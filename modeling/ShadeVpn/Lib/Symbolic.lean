import ShadeVpn.Lib.Crypto

/-!
# Symbolic primitives

The primitives over an alphabet of terms, where a symbol of a derived message
names the operation it came from, its inputs and its place.  Diffie-Hellman is
commutative because a point keeps the multiset of the secrets applied to it;
everything else is free, so two messages are equal only if they were made alike.

`symbolic` satisfies `Lawful` and `Ideal`.  What a party without some of the
secrets can make of a set of symbols is the subject of `Attacker`.
-/

open Octets

namespace Symbolic

/-- A symbol of a message, over atomic secrets `κ`. -/
inductive Term (κ : Type) where
  | byte (b : UInt8)
  /-- A symbol of the point some secrets make of a base; the base point has the
  empty base. -/
  | point (base : List (Term κ)) (scalars : Multiset κ) (i : ℕ)
  | hkdf (salt ikm info : List (Term κ)) (i : ℕ)
  | sha (msg : List (Term κ)) (i : ℕ)
  | hmac (key msg : List (Term κ)) (i : ℕ)
  | sealed (key nonce aad msg : List (Term κ)) (i : ℕ)

variable {κ : Type}

/-- The number read off a symbol: nothing but literal bytes has one of its own. -/
def Term.value : Term κ → UInt8
  | .byte b => b
  | _ => 0

instance : Alphabet (Term κ) where
  byte := .byte
  value := Term.value
  value_byte _ := rfl

noncomputable instance : DecidableEq (Term κ) := Classical.decEq _

theorem byte_eq (b : UInt8) : (Alphabet.byte b : Term κ) = .byte b := rfl

/-! ## Words -/

/-- The word of `n` symbols of one output. -/
def word (n : ℕ) (f : ℕ → Term κ) : List.Vector (Term κ) n := List.Vector.ofFn fun i => f i

theorem mem_word {n : ℕ} {f : ℕ → Term κ} {x : Term κ} :
    x ∈ (word n f).toList ↔ ∃ i < n, f i = x := by
  rw [List.Vector.mem_iff_get]
  simp only [word, List.Vector.get_ofFn]
  exact ⟨fun ⟨i, h⟩ => ⟨i, i.isLt, h⟩, fun ⟨i, hi, h⟩ => ⟨⟨i, hi⟩, h⟩⟩

theorem first_mem_word {n : ℕ} (h : 0 < n) (f : ℕ → Term κ) : f 0 ∈ (word n f).toList :=
  mem_word.2 ⟨0, h, rfl⟩

theorem getD_word {n i : ℕ} (h : i < n) (f : ℕ → Term κ) (d : Term κ) :
    (word n f).toList.getD i d = f i := by
  rw [List.getD_eq_getElem _ _ (by simpa using h)]
  show (word n f).get ⟨i, h⟩ = f i
  rw [word, List.Vector.get_ofFn]

/-- Equal words start alike. -/
theorem word_eq {n : ℕ} (h : 0 < n) {f g : ℕ → Term κ} (heq : word n f = word n g) :
    f 0 = g 0 := by
  have := congrArg (fun v => v.get ⟨0, h⟩) heq
  simpa [word] using this

/-! ## Points -/

/-- The point some secrets make of a base. -/
def point (base : List (Term κ)) (scalars : Multiset κ) : List.Vector (Term κ) 32 :=
  word 32 (.point base scalars)

theorem point_inj {b b' : List (Term κ)} {S S' : Multiset κ} :
    point b S = point b' S' ↔ b = b' ∧ S = S' := by
  refine ⟨fun h => ?_, fun ⟨hb, hS⟩ => by rw [hb, hS]⟩
  have := word_eq (by decide) h
  injection this with hb hS
  exact ⟨hb, hS⟩

theorem point_ne_zeros (b : List (Term κ)) (S : Multiset κ) : point b S ≠ Crypto.zeros 32 := by
  intro h
  have := congrArg (fun v => v.get 0) h
  simp [point, word, Crypto.zeros, byte_eq] at this

/-- A vector as a base and the secrets already applied to it.  What is no point is
a base of its own. -/
noncomputable def asPoint (p : List.Vector (Term κ) 32) : List (Term κ) × Multiset κ :=
  match p.get 0 with
  | .point base scalars _ => if p = point base scalars then (base, scalars) else (p.toList, 0)
  | _ => (p.toList, 0)

@[simp] theorem asPoint_point (b : List (Term κ)) (S : Multiset κ) :
    asPoint (point b S) = (b, S) := by
  have h : (point b S).get 0 = .point b S 0 := by simp [point, word]
  rw [asPoint, h]
  exact if_pos rfl

/-- A vector is a point of its base and secrets, or its own base. -/
theorem asPoint_cases (p : List.Vector (Term κ) 32) :
    p = point (asPoint p).1 (asPoint p).2 ∨ asPoint p = (p.toList, 0) := by
  rw [asPoint]
  split
  · split_ifs with h
    · exact .inl h
    · exact .inr rfl
  · exact .inr rfl

end Symbolic

/-! ## The primitives -/

namespace Crypto

open Symbolic

variable {κ : Type}

/-- A sealed message. -/
noncomputable def symbolicSeal (key : List.Vector (Term κ) 32) (nonce : List.Vector (Term κ) 12)
    (aad msg : List (Term κ)) : Option (List (Term κ)) :=
  if aad.length ≤ AES_MAX ∧ msg.length ≤ AES_MAX then
    some (word (msg.length + AES_TAG) (.sealed key.toList nonce.toList aad msg)).toList
  else none

/-- The symbolic primitives. -/
noncomputable def symbolic : Crypto κ (Term κ) where
  x25519 k p := if p = zeros 32 then zeros 32 else point (asPoint p).1 (k ::ₘ (asPoint p).2)
  basepoint := point [] 0
  hkdfSha256 salt ikm info n := word n (.hkdf salt ikm info)
  sha256 msg := word 32 (.sha msg)
  hmacSha512 key msg := word 64 (.hmac key msg)
  aesEncrypt := symbolicSeal
  aesDecrypt key nonce aad ct :=
    match ct with
    | .sealed _ _ _ msg _ :: _ =>
      if symbolicSeal key nonce aad msg = some ct then some msg else none
    | _ => none

@[simp] theorem symbolic_x25519_point (k : κ) (b : List (Term κ)) (S : Multiset κ) :
    symbolic.x25519 k (point b S) = point b (k ::ₘ S) := by
  simp only [symbolic, asPoint_point]
  exact if_neg (point_ne_zeros b S)

/-- Only the all-zero share leads to the all-zero secret. -/
theorem symbolic_x25519_ne_zeros (k : κ) {p : List.Vector (Term κ) 32} (h : p ≠ zeros 32) :
    symbolic.x25519 k p ≠ zeros 32 := by
  simp only [symbolic, if_neg h]
  exact point_ne_zeros _ _

@[simp] theorem symbolic_publicKey (k : κ) : symbolic.publicKey k = point [] {k} :=
  symbolic_x25519_point k [] 0

/-- Secrets applied one after the other. -/
theorem foldr_symbolic_x25519 (secrets : List κ) (b : List (Term κ)) (S : Multiset κ) :
    secrets.foldr symbolic.x25519 (point b S) = point b (secrets + S) := by
  induction secrets with
  | nil => simp
  | cons k ks ih => rw [List.foldr_cons, ih, symbolic_x25519_point, ← Multiset.cons_coe,
      Multiset.cons_add]

theorem foldr_symbolic_basepoint (secrets : List κ) :
    secrets.foldr symbolic.x25519 symbolic.basepoint = point [] secrets := by
  have h := foldr_symbolic_x25519 secrets [] 0
  rwa [add_zero] at h

theorem foldr_symbolic_publicKey (secrets : List κ) (e : κ) :
    secrets.foldr symbolic.x25519 (symbolic.publicKey e) = point [] (e ::ₘ secrets) := by
  rw [symbolic_publicKey, foldr_symbolic_x25519, add_comm, Multiset.singleton_add]

/-- What a successful seal is. -/
theorem symbolic_encrypt_eq {key : List.Vector (Term κ) 32} {nonce : List.Vector (Term κ) 12}
    {aad msg ct : List (Term κ)} (h : symbolic.aesEncrypt key nonce aad msg = some ct) :
    ct = (word (msg.length + AES_TAG) (.sealed key.toList nonce.toList aad msg)).toList := by
  simp only [symbolic, symbolicSeal] at h
  split_ifs at h
  exact (Option.some.inj h).symm

/-- The symbols of a seal name what was sealed. -/
theorem mem_symbolic_encrypt {key : List.Vector (Term κ) 32} {nonce : List.Vector (Term κ) 12}
    {aad msg ct : List (Term κ)} (h : symbolic.aesEncrypt key nonce aad msg = some ct) {x : Term κ}
    (hx : x ∈ ct) : ∃ i, x = .sealed key.toList nonce.toList aad msg i := by
  rw [symbolic_encrypt_eq h] at hx
  obtain ⟨i, -, rfl⟩ := mem_word.1 hx
  exact ⟨i, rfl⟩

theorem symbolic_encrypt_cons {key : List.Vector (Term κ) 32} {nonce : List.Vector (Term κ) 12}
    {aad msg ct : List (Term κ)} (h : symbolic.aesEncrypt key nonce aad msg = some ct) :
    ∃ rest, ct = .sealed key.toList nonce.toList aad msg 0 :: rest :=
  ⟨(word (msg.length + 15) fun i => .sealed key.toList nonce.toList aad msg (i + 1)).toList,
    symbolic_encrypt_eq h⟩

/-- A ciphertext belongs to one key, nonce, associated data and message. -/
theorem symbolic_encrypt_inj {key key' : List.Vector (Term κ) 32}
    {nonce nonce' : List.Vector (Term κ) 12} {aad aad' msg msg' ct : List (Term κ)}
    (h : symbolic.aesEncrypt key nonce aad msg = some ct)
    (h' : symbolic.aesEncrypt key' nonce' aad' msg' = some ct) :
    key = key' ∧ nonce = nonce' ∧ aad = aad' ∧ msg = msg' := by
  obtain ⟨rest, hct⟩ := symbolic_encrypt_cons h
  obtain ⟨rest', hct'⟩ := symbolic_encrypt_cons h'
  rw [hct] at hct'
  injection hct' with hhead
  injection hhead with hkey hnonce haad hmsg
  exact ⟨List.Vector.toList_injective hkey, List.Vector.toList_injective hnonce, haad, hmsg⟩

theorem symbolic_decrypt {key : List.Vector (Term κ) 32} {nonce : List.Vector (Term κ) 12}
    {aad msg ct : List (Term κ)} :
    symbolic.aesDecrypt key nonce aad ct = some msg ↔
      symbolic.aesEncrypt key nonce aad msg = some ct := by
  constructor
  · intro h
    simp only [symbolic] at h
    split at h
    · split_ifs at h with hseal
      cases h
      exact hseal
    · cases h
  · intro h
    obtain ⟨rest, rfl⟩ := symbolic_encrypt_cons h
    simp only [symbolic]
    exact if_pos h

theorem symbolic_lawful : (symbolic (κ := κ)).Lawful where
  dh_comm a b := by
    rw [symbolic_publicKey, symbolic_publicKey, symbolic_x25519_point, symbolic_x25519_point]
    exact congrArg _ (Multiset.cons_swap a b 0)
  dh_zero a := if_pos rfl
  encrypt_ok key nonce aad msg haad hmsg := ⟨_, if_pos ⟨haad, hmsg⟩⟩
  encrypt_length h := by rw [symbolic_encrypt_eq h, List.Vector.toList_length]
  decrypt_encrypt := symbolic_decrypt.2

theorem symbolic_ideal : (symbolic (κ := κ)).Ideal where
  encrypt_of_decrypt := symbolic_decrypt.1
  nonce_unique h h' := (symbolic_encrypt_inj h h').2.1

end Crypto
