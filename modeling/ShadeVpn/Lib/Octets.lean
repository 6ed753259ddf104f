import Mathlib

/-!
# Byte strings: big-endian numbers, UTF-8 text and wire alphabets

What any byte protocol needs before it has a format of its own.

* `toBE` / `ofBE` — fixed-width big-endian numbers.  `toBE k n` keeps the low
  `k` bytes of `n`, which is what a narrowing cast followed by `to_be_bytes`
  does, and `ofBE_toBE` says what a reader gets back.
* `utf8` / `ofUtf8?` — the bytes of a text and the checked way back.
* `Alphabet` — the symbols a wire message is written in.  A literal byte is a
  symbol of every alphabet; an alphabet may have further symbols that a program
  can copy, compare and cut but whose numeric value it never depends on.  The
  bytes themselves are the first instance.
-/

namespace Octets

/-- A byte string. -/
abbrev Bytes := List UInt8

/-! ## Big-endian numbers -/

/-- The low `k` bytes of `n`, most significant byte first. -/
def toBE : ℕ → ℕ → Bytes
  | 0, _ => []
  | k + 1, n => UInt8.ofNat (n / 256 ^ k) :: toBE k n

/-- The number a big-endian byte string stands for. -/
def ofBE : Bytes → ℕ
  | [] => 0
  | b :: bs => b.toNat * 256 ^ bs.length + ofBE bs

@[simp] theorem length_toBE (k n : ℕ) : (toBE k n).length = k := by
  induction k with
  | zero => rfl
  | succ k ih => simp [toBE, ih]

@[simp] theorem ofBE_nil : ofBE [] = 0 := rfl

theorem ofBE_cons (b : UInt8) (bs : Bytes) :
    ofBE (b :: bs) = b.toNat * 256 ^ bs.length + ofBE bs := rfl

theorem ofBE_lt (bs : Bytes) : ofBE bs < 256 ^ bs.length := by
  induction bs with
  | nil => simp
  | cons b bs ih =>
    have hb : b.toNat < 256 := UInt8.toNat_lt b
    rw [ofBE_cons, List.length_cons, pow_succ]
    calc b.toNat * 256 ^ bs.length + ofBE bs
        < b.toNat * 256 ^ bs.length + 256 ^ bs.length := by omega
      _ = (b.toNat + 1) * 256 ^ bs.length := by ring
      _ ≤ 256 * 256 ^ bs.length := Nat.mul_le_mul_right _ hb
      _ = 256 ^ bs.length * 256 := Nat.mul_comm _ _

/-- A reader of a `k`-byte field gets the written number modulo `256 ^ k`. -/
@[simp] theorem ofBE_toBE (k n : ℕ) : ofBE (toBE k n) = n % 256 ^ k := by
  induction k with
  | zero => simp [toBE, Nat.mod_one]
  | succ k ih =>
    have hbyte : (UInt8.ofNat (n / 256 ^ k)).toNat = n / 256 ^ k % 256 := UInt8.toNat_ofNat'
    rw [toBE, ofBE_cons, ih, length_toBE, hbyte, pow_succ, Nat.mod_mul]
    ring

theorem ofBE_toBE_of_lt {k n : ℕ} (h : n < 256 ^ k) : ofBE (toBE k n) = n := by
  rw [ofBE_toBE, Nat.mod_eq_of_lt h]

/-- The bytes of a number do not see what does not fit. -/
theorem toBE_add_mul (k m n : ℕ) : toBE k (n + m * 256 ^ k) = toBE k n := by
  induction k generalizing m with
  | zero => rfl
  | succ k ih =>
    have hsplit : m * 256 ^ (k + 1) = m * 256 * 256 ^ k := by rw [pow_succ]; ring
    have hdiv : (n + m * 256 * 256 ^ k) / 256 ^ k = n / 256 ^ k + m * 256 :=
      Nat.add_mul_div_right _ _ (by positivity)
    rw [hsplit, toBE, toBE, ih, hdiv]
    congr 1
    apply UInt8.toNat_inj.1
    simp

/-- The number a byte string stands for has that byte string. -/
theorem toBE_ofBE (bs : Bytes) : toBE bs.length (ofBE bs) = bs := by
  induction bs with
  | nil => rfl
  | cons b bs ih =>
    have hdiv : (ofBE bs + b.toNat * 256 ^ bs.length) / 256 ^ bs.length = b.toNat := by
      rw [Nat.add_mul_div_right _ _ (by positivity), Nat.div_eq_of_lt (ofBE_lt bs), Nat.zero_add]
    rw [List.length_cons, ofBE_cons, Nat.add_comm (b.toNat * _), toBE, toBE_add_mul, ih, hdiv]
    simp

/-- Numbers that fit their field have different encodings. -/
theorem toBE_injOn {k m n : ℕ} (hm : m < 256 ^ k) (hn : n < 256 ^ k)
    (h : toBE k m = toBE k n) : m = n := by
  rw [← ofBE_toBE_of_lt hm, ← ofBE_toBE_of_lt hn, h]

/-! ## UTF-8 text -/

/-- The UTF-8 bytes of a text. -/
def utf8 (s : String) : Bytes := s.toByteArray.data.toList

/-- The text with the given UTF-8 bytes, if they are valid UTF-8. -/
def ofUtf8? (bs : Bytes) : Option String := String.fromUTF8? ⟨bs.toArray⟩

@[simp] theorem ofUtf8?_utf8 (s : String) : ofUtf8? (utf8 s) = some s := by
  have h : (⟨(utf8 s).toArray⟩ : ByteArray) = s.toByteArray := by
    simp [utf8]
  rw [ofUtf8?, h, String.fromUTF8?, dif_pos s.isValidUTF8]
  rfl

theorem length_utf8 (s : String) : (utf8 s).length = s.utf8ByteSize :=
  Array.length_toList

/-! ## Alphabets -/

/-- The symbols of a wire message: every byte is a symbol, and `value` is the
number a program reads off a symbol. -/
class Alphabet (σ : Type) where
  /-- The symbol of a literal byte. -/
  byte : UInt8 → σ
  /-- The number read off a symbol. -/
  value : σ → UInt8
  value_byte : ∀ b, value (byte b) = b

attribute [simp] Alphabet.value_byte

/-- Bytes are the plain alphabet. -/
instance : Alphabet UInt8 where
  byte := id
  value := id
  value_byte _ := rfl

variable {σ : Type} [Alphabet σ]

/-- A byte string as a message. -/
def lits (bs : Bytes) : List σ := bs.map Alphabet.byte

/-- The numbers read off a message. -/
def values (xs : List σ) : Bytes := xs.map Alphabet.value

@[simp] theorem length_lits (bs : Bytes) : (lits bs : List σ).length = bs.length := by
  simp [lits]

@[simp] theorem length_values (xs : List σ) : (values xs).length = xs.length := by
  simp [values]

@[simp] theorem values_lits (bs : Bytes) : values (lits bs : List σ) = bs := by
  simp [values, lits, Function.comp_def]

theorem lits_injective : Function.Injective (lits : Bytes → List σ) := by
  intro a b h
  have := congrArg values h
  simpa using this

theorem exists_byte_of_mem_lits {bs : Bytes} {x : σ} (h : x ∈ (lits bs : List σ)) :
    ∃ b, x = Alphabet.byte b := by
  obtain ⟨b, -, rfl⟩ := List.mem_map.1 h
  exact ⟨b, rfl⟩

@[simp] theorem lits_nil : (lits [] : List σ) = [] := rfl

@[simp] theorem lits_append (a b : Bytes) : (lits (a ++ b) : List σ) = lits a ++ lits b := by
  simp [lits]

/-- An array of `n` symbols copied from the front of a message that has them. -/
def copyFrom (n : ℕ) (xs : List σ) : List.Vector σ n :=
  List.Vector.ofFn fun i => xs.getD i (Alphabet.byte 0)

theorem toList_copyFrom {n : ℕ} {xs : List σ} (h : n ≤ xs.length) :
    (copyFrom n xs).toList = xs.take n := by
  apply List.ext_getElem
  · simp [h]
  · intro i h₁ h₂
    have hi : i < n := by simpa using h₁
    have hget : (copyFrom n xs).toList[i] = (copyFrom n xs).get ⟨i, hi⟩ := rfl
    rw [hget, copyFrom, List.Vector.get_ofFn, List.getElem_take]
    exact List.getD_eq_getElem _ _ (lt_of_lt_of_le hi h)

/-- Copying an array that lies at the front of a message. -/
@[simp] theorem copyFrom_toList_append {n : ℕ} (v : List.Vector σ n) (xs : List σ) :
    copyFrom n (v.toList ++ xs) = v := by
  apply List.Vector.toList_injective
  rw [toList_copyFrom (by simp)]
  exact List.take_left' v.toList_length

@[simp] theorem copyFrom_toList {n : ℕ} (v : List.Vector σ n) : copyFrom n v.toList = v := by
  simpa using copyFrom_toList_append v []

/-- Copying sees only the symbols it copies. -/
theorem copyFrom_take_append {n : ℕ} {xs : List σ} (h : n ≤ xs.length) (q : List σ) :
    copyFrom n (xs.take n ++ q) = copyFrom n xs := by
  apply List.Vector.toList_injective
  have htake : (xs.take n).length = n := by rw [List.length_take]; omega
  rw [toList_copyFrom h, toList_copyFrom (by rw [List.length_append]; omega),
    List.take_left' htake]

@[simp] theorem lits_uint8 (bs : Bytes) : (lits bs : List UInt8) = bs := by
  simp [lits, Alphabet.byte]

@[simp] theorem values_uint8 (bs : Bytes) : values bs = bs := by
  simp [values, Alphabet.value]

end Octets
