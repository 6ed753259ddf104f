import ShadeVpn.Lib.Checked
import ShadeVpn.Lib.Octets

/-!
# The varint of the VLESS addons block

`encode_varint` and `decode_varint` of `native/src/vless.rs`: base-128 numbers,
low group first, with the continuation bit `0x80` on every byte but the last.
The decoder stops at the tenth byte.  Its `<<` is on `usize`, so on a 32-bit
target a sixth group faults instead of being read; a build without overflow checks
masks the distance of the shift and reads on.

* `decodeVarint_encodeVarint` — the decoder inverts the encoder, whatever
  follows, on both word sizes.
* `decodeVarint_local` — the decoder looks at no byte after the ones it reports
  as consumed.
* `varintCodec_iff` — both, and when a shift leaves the word.
-/

namespace ShadeVpn.Vless

open Octets Checked

/-- `VlessError`. -/
inductive VlessError where
  | layout
  | badResponse
  | uuidMismatch
  | badFrame
  deriving DecidableEq, Repr

/-! ## The codec -/

/-- `encode_varint`, the bytes it pushes. -/
def encodeVarint (value : ℕ) : Bytes :=
  let byte := UInt8.ofNat (value &&& 0x7f)
  if value >>> 7 ≠ 0 then
    (byte ||| 0x80) :: encodeVarint (value >>> 7)
  else
    [byte]
termination_by value
decreasing_by
  rw [Nat.shiftRight_eq_div_pow] at *
  omega

/-- The loop of `decode_varint`, with the `<<` of the build: `i` counts the bytes read
before `wire`. -/
def decodeVarintLoop (left : ℕ → ℕ → Except (Stop VlessError) ℕ) :
    Bytes → (i value shift : ℕ) → Except (Stop VlessError) (ℕ × ℕ)
  | [], _, _, _ => .error (.err .layout)
  | b :: wire, i, value, shift =>
    if 10 ≤ i then .error (.err .layout)
    else
      match left (b &&& 0x7f).toNat shift with
      | .error e => .error e
      | .ok group =>
        if b &&& 0x80 = 0 then .ok (value ||| group, i + 1)
        else decodeVarintLoop left wire (i + 1) (value ||| group) (shift + 7)

/-- `decode_varint`: the value and the number of bytes it took. -/
def decodeVarint (t : Target) (wire : Bytes) : Except (Stop VlessError) (ℕ × ℕ) :=
  decodeVarintLoop (shl t) wire 0 0 0

/-- A build with overflow checks, or one without. -/
inductive Build where
  | checked
  | unchecked
  deriving DecidableEq, Repr

/-- `a << s` in a build: without checks the distance is masked. -/
def Build.shl (b : Build) (t : Target) (a s : ℕ) : Except (Stop VlessError) ℕ :=
  match b with
  | .checked => Checked.shl t a s
  | .unchecked => .ok (a <<< (s % t.bits) % 2 ^ t.bits)

/-- `decode_varint` in a build. -/
def Build.decodeVarint (b : Build) (t : Target) (wire : Bytes) :
    Except (Stop VlessError) (ℕ × ℕ) :=
  decodeVarintLoop (b.shl t) wire 0 0 0

/-! ## One byte of the encoding -/

theorem low_bits_ofNat (n : ℕ) : (UInt8.ofNat n &&& 0x7f).toNat = n % 128 := by
  rw [UInt8.toNat_and, UInt8.toNat_ofNat', show (0x7f : UInt8).toNat = 2 ^ 7 - 1 from rfl,
    Nat.and_two_pow_sub_one_eq_mod]
  omega

/-- The continuation bit is clear exactly on the bytes below 128. -/
theorem continuation_eq_zero_iff (b : UInt8) : b &&& 0x80 = 0 ↔ b.toNat < 128 := by
  have hb : b.toNat < 256 := UInt8.toNat_lt b
  rw [← UInt8.toNat_inj, UInt8.toNat_and, show (0x80 : UInt8).toNat = 2 ^ 7 from rfl,
    Nat.and_two_pow, Nat.testBit_eq_decide_div_mod_eq]
  by_cases h : b.toNat < 128
  · simp [h]
    omega
  · simp [h]
    omega

theorem or_continuation {n : ℕ} (h : n < 128) :
    UInt8.ofNat n ||| 0x80 = UInt8.ofNat (n + 128) := by
  apply UInt8.toNat_inj.mp
  rw [UInt8.toNat_or, UInt8.toNat_ofNat', UInt8.toNat_ofNat',
    show (0x80 : UInt8).toNat = 2 ^ 7 * 1 from rfl, Nat.mod_eq_of_lt (by omega), Nat.or_comm,
    ← Nat.two_pow_add_eq_or_of_lt h]
  omega

/-- The last group: the byte is the value itself. -/
theorem encodeVarint_of_lt {v : ℕ} (h : v < 128) : encodeVarint v = [UInt8.ofNat v] := by
  have hv : v &&& 127 = v := by
    rw [show 127 = 2 ^ 7 - 1 from rfl, Nat.and_two_pow_sub_one_eq_mod]
    omega
  have hz : v >>> 7 = 0 := by
    rw [Nat.shiftRight_eq_div_pow]
    omega
  rw [encodeVarint, if_neg (by simpa using hz), hv]

/-- Any other group: the low seven bits, marked, then the rest. -/
theorem encodeVarint_of_le {v : ℕ} (h : 128 ≤ v) :
    encodeVarint v = UInt8.ofNat (v % 128 + 128) :: encodeVarint (v / 128) := by
  have hd : v >>> 7 = v / 128 := by rw [Nat.shiftRight_eq_div_pow]
  have hm : v &&& 127 = v % 128 := by
    rw [show 127 = 2 ^ 7 - 1 from rfl, Nat.and_two_pow_sub_one_eq_mod]
  rw [encodeVarint, if_pos (by rw [hd]; omega), hd, hm, or_continuation (by omega)]

theorem encodeVarint_length_pos (v : ℕ) : 0 < (encodeVarint v).length := by
  by_cases h : v < 128
  · rw [encodeVarint_of_lt h]
    simp
  · rw [encodeVarint_of_le (by omega)]
    simp

/-! ## The decoder inverts the encoder -/

/-- One step of the decoder on a group that fits the word. -/
theorem decodeVarintLoop_cons {t : Target} {b : UInt8} {wire : Bytes} {i value shift : ℕ}
    (hi : i < 10) (hs : shift < t.bits) (hv : value < 2 ^ shift)
    (hb : (b &&& 0x7f).toNat * 2 ^ shift < 2 ^ t.bits) :
    decodeVarintLoop (shl t) (b :: wire) i value shift =
      if b &&& 0x80 = 0 then .ok (value + (b &&& 0x7f).toNat * 2 ^ shift, i + 1)
      else decodeVarintLoop (shl t) wire (i + 1) (value + (b &&& 0x7f).toNat * 2 ^ shift)
        (shift + 7) := by
  have hor : value ||| (b &&& 0x7f).toNat * 2 ^ shift
      = value + (b &&& 0x7f).toNat * 2 ^ shift := by
    rw [Nat.or_comm, Nat.mul_comm, ← Nat.two_pow_add_eq_or_of_lt hv, Nat.add_comm]
  rw [decodeVarintLoop, if_neg (by omega), shl_eq_ok hs hb]
  simp only [hor]

/-- The decoder, started in the middle of a number: `i` groups are read, they
sum to `value`, and the rest of the number still fits the word. -/
theorem decodeVarintLoop_encodeVarint (t : Target) (rest : Bytes) :
    ∀ (v i value : ℕ), value < 2 ^ (7 * i) → v * 2 ^ (7 * i) + value < 2 ^ t.bits →
      (v = 0 → i = 0) →
      decodeVarintLoop (shl t) (encodeVarint v ++ rest) i value (7 * i) =
        .ok (v * 2 ^ (7 * i) + value, i + (encodeVarint v).length) := by
  intro v
  induction v using Nat.strong_induction_on with
  | _ v ih =>
  intro i value hvalue hfit hzero
  have hbits := t.bits_le
  have h32 := t.le_bits
  -- a group that is not zero lies inside the word, so its shift is in range
  have hshift : 7 * i < t.bits := by
    rcases Nat.eq_zero_or_pos v with hv0 | hv0
    · rw [hzero hv0]
      omega
    · have h1 : 2 ^ (7 * i) ≤ v * 2 ^ (7 * i) := Nat.le_mul_of_pos_left _ hv0
      exact (Nat.pow_lt_pow_iff_right (by decide)).1 (by omega : 2 ^ (7 * i) < 2 ^ t.bits)
  by_cases hlt : v < 128
  · have hlow : (UInt8.ofNat v &&& 0x7f).toNat = v := by
      rw [low_bits_ofNat]
      omega
    have hcont : UInt8.ofNat v &&& 0x80 = 0 := by
      rw [continuation_eq_zero_iff, UInt8.toNat_ofNat']
      omega
    rw [encodeVarint_of_lt hlt, List.singleton_append,
      decodeVarintLoop_cons (by omega) hshift hvalue (by rw [hlow]; omega), if_pos hcont, hlow,
      Nat.add_comm value]
    rfl
  · have hlow : (UInt8.ofNat (v % 128 + 128) &&& 0x7f).toNat = v % 128 := by
      rw [low_bits_ofNat]
      omega
    have hcont : ¬ UInt8.ofNat (v % 128 + 128) &&& 0x80 = 0 := by
      rw [continuation_eq_zero_iff, UInt8.toNat_ofNat']
      omega
    have hsplit : v * 2 ^ (7 * i)
        = v / 128 * 2 ^ (7 * (i + 1)) + v % 128 * 2 ^ (7 * i) := by
      rw [show 7 * (i + 1) = 7 * i + 7 from by ring, pow_add]
      calc v * 2 ^ (7 * i) = (128 * (v / 128) + v % 128) * 2 ^ (7 * i) := by
            rw [Nat.div_add_mod]
        _ = v / 128 * (2 ^ (7 * i) * 2 ^ 7) + v % 128 * 2 ^ (7 * i) := by ring
    have hgroup : value + v % 128 * 2 ^ (7 * i) < 2 ^ (7 * (i + 1)) := by
      rw [show 7 * (i + 1) = 7 * i + 7 from by ring, pow_add]
      have : v % 128 * 2 ^ (7 * i) ≤ 127 * 2 ^ (7 * i) := Nat.mul_le_mul_right _ (by omega)
      omega
    rw [encodeVarint_of_le (by omega), List.cons_append,
      decodeVarintLoop_cons (by omega) hshift hvalue (by rw [hlow]; omega), if_neg hcont, hlow,
      show 7 * i + 7 = 7 * (i + 1) from by ring,
      ih (v / 128) (by omega) (i + 1) _ hgroup (by omega) (by omega), hsplit, List.length_cons]
    congr 2
    · omega
    · omega

/-- **The varint round trip**: on either word size every `usize` is read back,
with the number of bytes it was written in, whatever follows. -/
theorem decodeVarint_encodeVarint (t : Target) {v : ℕ} (hv : v < 2 ^ t.bits) (rest : Bytes) :
    decodeVarint t (encodeVarint v ++ rest) = .ok (v, (encodeVarint v).length) := by
  have h := decodeVarintLoop_encodeVarint t rest v 0 0 (by simp) (by simpa using hv) (fun _ => rfl)
  simpa [decodeVarint] using h

/-! ## The decoder reads only what it consumes -/

theorem decodeVarintLoop_local {left : ℕ → ℕ → Except (Stop VlessError) ℕ} {bound v j : ℕ}
    (hleft : ∀ {a s group}, left a s = .ok group → group < 2 ^ bound) :
    ∀ {wire : Bytes} {i value shift : ℕ}, value < 2 ^ bound →
      decodeVarintLoop left wire i value shift = .ok (v, j) →
      ∃ used rest, wire = used ++ rest ∧ used ≠ [] ∧ j = i + used.length ∧ v < 2 ^ bound ∧
        ∀ rest', decodeVarintLoop left (used ++ rest') i value shift = .ok (v, j) := by
  intro wire
  induction wire with
  | nil => intro i value shift _ h; cases h
  | cons b wire ih =>
    intro i value shift hvalue h
    rw [decodeVarintLoop] at h
    split at h
    · cases h
    · rename_i hi
      split at h
      · cases h
      · rename_i group hgroup
        have hor : value ||| group < 2 ^ bound := Nat.or_lt_two_pow hvalue (hleft hgroup)
        split at h
        · rename_i hcont
          cases h
          refine ⟨[b], wire, rfl, by simp, rfl, hor, fun rest' => ?_⟩
          rw [List.singleton_append, decodeVarintLoop, if_neg hi, hgroup]
          simp [hcont]
        · rename_i hcont
          obtain ⟨used, rest, rfl, -, rfl, hv, hloc⟩ := ih hor h
          refine ⟨b :: used, rest, rfl, by simp, by simp; ring, hv, fun rest' => ?_⟩
          rw [List.cons_append, decodeVarintLoop, if_neg hi, hgroup]
          simpa [hcont] using hloc rest'

/-- Whatever a shift of a build returns fits the word. -/
theorem Build.shl_lt {b : Build} {t : Target} {a s v : ℕ} (h : b.shl t a s = .ok v) :
    v < 2 ^ t.bits := by
  cases b with
  | checked => exact Checked.shl_lt h
  | unchecked =>
    cases h
    exact Nat.mod_lt _ (Nat.two_pow_pos _)

/-- A decoded varint is a nonempty prefix of the input, its value fits the word,
and any continuation of that prefix decodes to the same value. -/
theorem Build.decodeVarint_local {b : Build} {t : Target} {wire : Bytes} {v c : ℕ}
    (h : b.decodeVarint t wire = .ok (v, c)) :
    ∃ used rest, wire = used ++ rest ∧ used ≠ [] ∧ c = used.length ∧ v < 2 ^ t.bits ∧
      ∀ rest', b.decodeVarint t (used ++ rest') = .ok (v, c) := by
  obtain ⟨used, rest, hw, hne, hc, hv, hloc⟩ :=
    decodeVarintLoop_local Build.shl_lt (Nat.two_pow_pos _) h
  exact ⟨used, rest, hw, hne, by simpa using hc, hv, hloc⟩

/-- The first byte is read alike in every build. -/
theorem Build.decodeVarint_cons (b : Build) (t : Target) (x : UInt8) (wire : Bytes) :
    b.decodeVarint t (x :: wire) =
      if x &&& 0x80 = 0 then .ok ((x &&& 0x7f).toNat, 1)
      else decodeVarintLoop (b.shl t) wire 1 (x &&& 0x7f).toNat 7 := by
  have hbits : 0 < t.bits := lt_of_lt_of_le (by decide) t.le_bits
  generalize hlow : (x &&& 0x7f).toNat = low
  have hfit : low < 2 ^ t.bits := by
    have := (x &&& 0x7f).toNat_lt
    exact t.lt_of_lt_32 (by omega)
  have hgroup : b.shl t low 0 = .ok low := by
    cases b with
    | checked =>
      rw [Build.shl, shl_eq_ok hbits (by simpa using hfit)]
      simp
    | unchecked => simp [Build.shl, Nat.mod_eq_of_lt hfit]
  rw [Build.decodeVarint, decodeVarintLoop, if_neg (by decide), hlow, hgroup]
  simp

/-- A one-byte varint is its own value. -/
theorem Build.decodeVarint_singleton (b : Build) (t : Target) (x : UInt8) (rest : Bytes)
    (hx : x.toNat < 128) : b.decodeVarint t (x :: rest) = .ok (x.toNat, 1) := by
  have hlow := low_bits_ofNat x.toNat
  rw [UInt8.ofNat_toNat, Nat.mod_eq_of_lt hx] at hlow
  rw [b.decodeVarint_cons, if_pos ((continuation_eq_zero_iff x).2 hx), hlow]

/-- The only one-byte varint of value zero is the zero byte. -/
theorem Build.eq_zero_of_decodeVarint {b : Build} {t : Target} {x : UInt8}
    (h : b.decodeVarint t [x] = .ok (0, 1)) : x = 0 := by
  by_cases hx : x.toNat < 128
  · rw [b.decodeVarint_singleton t x [] hx, Except.ok.injEq, Prod.mk.injEq] at h
    exact UInt8.toNat_inj.1 h.1
  · rw [b.decodeVarint_cons, if_neg (by rwa [continuation_eq_zero_iff])] at h
    cases h

/-! ## Shifts past the word -/

/-- Five groups that are continued, and a sixth behind them: 35 bits and more. -/
def SixGroups (wire : Bytes) : Prop := 5 < wire.length ∧ ∀ b ∈ wire.take 5, 128 ≤ b.toNat

instance (wire : Bytes) : Decidable (SixGroups wire) := inferInstanceAs (Decidable (_ ∧ _))

/-- One turn of the loop whose shift is within the word. -/
theorem sound_decodeVarintLoop_cons {t : Target} {b : UInt8} {wire : Bytes} {i value shift : ℕ}
    (hi : i < 10) (hs : shift < t.bits) :
    ∃ value', Sound (decodeVarintLoop (shl t) (b :: wire) i value shift) ↔
      (128 ≤ b.toNat → Sound (decodeVarintLoop (shl t) wire (i + 1) value' (shift + 7))) := by
  refine ⟨value ||| (b &&& 0x7f).toNat <<< shift % 2 ^ t.bits, ?_⟩
  rw [decodeVarintLoop, if_neg (by omega), shl, if_pos hs]
  dsimp only
  by_cases hlast : b.toNat < 128
  · rw [if_pos ((continuation_eq_zero_iff b).2 hlast)]
    exact iff_of_true (sound_ok _) fun h => absurd h (by omega)
  · rw [if_neg (by rwa [continuation_eq_zero_iff])]
    exact ⟨fun h _ => h, fun h => h (not_lt.1 hlast)⟩

/-- On 64 bits the tenth group, the last that is read, is shifted by 63. -/
theorem sound_decodeVarintLoop_aarch64 (wire : Bytes) (i value : ℕ) :
    Sound (decodeVarintLoop (shl .aarch64) wire i value (7 * i)) := by
  induction wire generalizing i value with
  | nil => exact sound_err _
  | cons b wire ih =>
    by_cases hi : i < 10
    · have hs : 7 * i < Target.aarch64.bits := by
        show 7 * i < 64
        omega
      obtain ⟨value', hturn⟩ := @sound_decodeVarintLoop_cons .aarch64 b wire i value _ hi hs
      exact hturn.2 fun _ => ih (i + 1) value'
    · rw [decodeVarintLoop, if_pos (by omega)]
      exact sound_err _

/-- On 32 bits the sixth group faults, whatever it holds. -/
theorem sound_decodeVarintLoop_armv7 (wire : Bytes) (n i value : ℕ) (hn : i + n = 5) :
    Sound (decodeVarintLoop (shl .armv7) wire i value (7 * i)) ↔
      ¬ (n < wire.length ∧ ∀ b ∈ wire.take n, 128 ≤ b.toNat) := by
  have hbits : Target.armv7.bits = 32 := rfl
  induction wire generalizing n i value with
  | nil => exact iff_of_true (sound_err _) fun h => absurd h.1 (Nat.not_lt_zero n)
  | cons b wire ih =>
    cases n with
    | zero =>
      have hfault : decodeVarintLoop (shl .armv7) (b :: wire) i value (7 * i) = .error .shlOverflow := by
        rw [decodeVarintLoop, if_neg (by omega), shl, if_neg (by omega)]
      rw [hfault]
      simp [Sound]
    | succ n =>
      obtain ⟨value', hturn⟩ :=
        @sound_decodeVarintLoop_cons .armv7 b wire i value (7 * i) (by omega) (by omega)
      have hrest := ih n (i + 1) value' (by omega)
      have hnext : 7 * i + 7 = 7 * (i + 1) := by ring
      rw [hnext] at hturn
      rw [hturn.trans (imp_congr_right fun _ => hrest), List.take_succ_cons,
        List.forall_mem_cons, List.length_cons, Nat.succ_lt_succ_iff]
      tauto

/-- **The codec on both word sizes.**  The decoder inverts the encoder, whatever follows;
and it shifts within the word exactly if the word has 64 bits or there is no sixth group. -/
theorem varintCodec_iff (t : Target) :
    (∀ v < 2 ^ t.bits, ∀ rest,
      decodeVarint t (encodeVarint v ++ rest) = .ok (v, (encodeVarint v).length)) ∧
    ∀ wire, Sound (decodeVarint t wire) ↔ t = .aarch64 ∨ ¬ SixGroups wire := by
  refine ⟨fun v hv rest => decodeVarint_encodeVarint t hv rest, fun wire => ?_⟩
  cases t with
  | armv7 =>
    have h := sound_decodeVarintLoop_armv7 wire 5 0 0 rfl
    simpa [decodeVarint, SixGroups] using h
  | aarch64 =>
    exact iff_of_true (sound_decodeVarintLoop_aarch64 wire 0 0) (Or.inl rfl)

/-- Five continued groups and a sixth, on a 32-bit target. -/
theorem not_varintCodec : ¬ ∀ t : Target,
    (∀ v < 2 ^ t.bits, ∀ rest,
      decodeVarint t (encodeVarint v ++ rest) = .ok (v, (encodeVarint v).length)) ∧
    ∀ wire, Sound (decodeVarint t wire) := by
  intro hall
  have hfault : decodeVarint .armv7 [0x80, 0x80, 0x80, 0x80, 0x80, 0x01] =
      .error .shlOverflow := by decide
  simpa using (hall .armv7).2 _ _ hfault

end ShadeVpn.Vless
