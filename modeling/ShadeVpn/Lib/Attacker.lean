import ShadeVpn.Lib.Symbolic

/-!
# What an attacker can build

`Knows` is the closure of the symbols an attacker has seen under the primitives
and its own secrets, for any primitives.

With symbolic primitives, `Public` is a closure without opening: a set of symbols
that is easy to invert.  If every sealed message on the wire is public already,
opening adds nothing, and all the attacker knows is public (`Knows.isPublic`).
What the attacker holds was then seen on the wire or built from public inputs,
and a point it holds carries at most one secret of somebody else.
-/

open Octets

namespace Symbolic

variable {κ σ : Type}

/-- The symbols an attacker can build from `wire` and from secrets of its own. -/
inductive Knows [Alphabet σ] (C : Crypto κ σ) (own : κ → Prop) (wire : Set σ) : σ → Prop
  | wire {x : σ} (hx : x ∈ wire) : Knows C own wire x
  | byte (b : UInt8) : Knows C own wire (Alphabet.byte b)
  | basepoint {x : σ} (hx : x ∈ C.basepoint.toList) : Knows C own wire x
  | x25519 {k : κ} {p : List.Vector σ 32} {x : σ} (hk : own k)
      (hp : ∀ y ∈ p.toList, Knows C own wire y) (hx : x ∈ (C.x25519 k p).toList) :
        Knows C own wire x
  | hkdf {salt ikm info : List σ} {n : ℕ} {x : σ} (hsalt : ∀ y ∈ salt, Knows C own wire y)
      (hikm : ∀ y ∈ ikm, Knows C own wire y) (hinfo : ∀ y ∈ info, Knows C own wire y)
      (hx : x ∈ (C.hkdfSha256 salt ikm info n).toList) : Knows C own wire x
  | sha256 {msg : List σ} {x : σ} (hmsg : ∀ y ∈ msg, Knows C own wire y)
      (hx : x ∈ (C.sha256 msg).toList) : Knows C own wire x
  | hmac {key msg : List σ} {x : σ} (hkey : ∀ y ∈ key, Knows C own wire y)
      (hmsg : ∀ y ∈ msg, Knows C own wire y) (hx : x ∈ (C.hmacSha512 key msg).toList) :
      Knows C own wire x
  | encrypt {key : List.Vector σ 32} {nonce : List.Vector σ 12} {aad msg ct : List σ} {x : σ}
      (hkey : ∀ y ∈ key.toList, Knows C own wire y)
      (hnonce : ∀ y ∈ nonce.toList, Knows C own wire y)
      (haad : ∀ y ∈ aad, Knows C own wire y) (hmsg : ∀ y ∈ msg, Knows C own wire y)
      (hct : C.aesEncrypt key nonce aad msg = some ct) (hx : x ∈ ct) : Knows C own wire x
  | decrypt {key : List.Vector σ 32} {nonce : List.Vector σ 12} {aad msg ct : List σ} {x : σ}
      (hkey : ∀ y ∈ key.toList, Knows C own wire y)
      (hnonce : ∀ y ∈ nonce.toList, Knows C own wire y)
      (haad : ∀ y ∈ aad, Knows C own wire y) (hct : ∀ y ∈ ct, Knows C own wire y)
      (hmsg : C.aesDecrypt key nonce aad ct = some msg) (hx : x ∈ msg) : Knows C own wire x

/-- Literal bytes are known. -/
theorem knows_lits [Alphabet σ] {C : Crypto κ σ} {own : κ → Prop} {wire : Set σ} {bs : Bytes} :
    ∀ y ∈ (lits bs : List σ), Knows C own wire y := by
  intro y hy
  obtain ⟨b, rfl⟩ := exists_byte_of_mem_lits hy
  exact .byte b

/-! ## Public symbols -/

/-- What `wire`, public inputs and own secrets lead to without opening anything. -/
inductive Public (own : κ → Prop) (wire : Set (Term κ)) : Term κ → Prop
  | wire {x : Term κ} (hx : x ∈ wire) : Public own wire x
  | byte (b : UInt8) : Public own wire (.byte b)
  | root (base : List (Term κ)) (i : ℕ) : Public own wire (.point base 0 i)
  | mul {k : κ} {base : List (Term κ)} {S : Multiset κ} {i : ℕ} (hk : own k)
      (hp : Public own wire (.point base S i)) (j : ℕ) : Public own wire (.point base (k ::ₘ S) j)
  | hkdf {salt ikm info : List (Term κ)} (hikm : ∀ y ∈ ikm, Public own wire y) (i : ℕ) :
      Public own wire (.hkdf salt ikm info i)
  | sha {msg : List (Term κ)} (hmsg : ∀ y ∈ msg, Public own wire y) (i : ℕ) :
      Public own wire (.sha msg i)
  | hmac {key msg : List (Term κ)} (hkey : ∀ y ∈ key, Public own wire y) (i : ℕ) :
      Public own wire (.hmac key msg i)
  | sealed {key nonce aad msg : List (Term κ)} (hkey : ∀ y ∈ key, Public own wire y)
      (hmsg : ∀ y ∈ msg, Public own wire y) (i : ℕ) : Public own wire (.sealed key nonce aad msg i)

/-- A wire whose sealed messages are no secrets and whose points are public keys. -/
structure Guarded (own : κ → Prop) (wire : Set (Term κ)) : Prop where
  sealed : ∀ {key nonce aad msg : List (Term κ)} {i : ℕ}, .sealed key nonce aad msg i ∈ wire →
    ∀ y ∈ msg, Public own wire y
  point : ∀ {base : List (Term κ)} {S : Multiset κ} {i : ℕ}, .point base S i ∈ wire →
    base = [] ∧ ∃ k, S = {k}

variable {own : κ → Prop} {wire : Set (Term κ)}

/-- More on the wire, more that is public. -/
theorem Public.mono {wire' : Set (Term κ)} (hsub : wire ⊆ wire') {x : Term κ}
    (h : Public own wire x) : Public own wire' x := by
  induction h with
  | wire hx => exact .wire (hsub hx)
  | byte b => exact .byte b
  | root base i => exact .root base i
  | mul hk _ j ih => exact .mul hk ih j
  | hkdf _ i ih => exact .hkdf ih i
  | sha _ i ih => exact .sha ih i
  | hmac _ i ih => exact .hmac ih i
  | sealed _ _ i ihkey ihmsg => exact .sealed ihkey ihmsg i

/-- Own secrets take public vectors to public points. -/
theorem Public.x25519 {k : κ} {p : List.Vector (Term κ) 32} {x : Term κ} (hk : own k)
    (hp : ∀ y ∈ p.toList, Public own wire y) (hx : x ∈ (Crypto.symbolic.x25519 k p).toList) :
    Public own wire x := by
  by_cases hzero : p = Crypto.zeros 32
  · rw [hzero, Crypto.symbolic_lawful.dh_zero] at hx
    rw [hzero] at hp
    exact hp x hx
  · simp only [Crypto.symbolic, if_neg hzero] at hx
    obtain ⟨j, -, rfl⟩ := mem_word.1 hx
    rcases asPoint_cases p with hpoint | hroot
    · refine Public.mul hk (hp (.point (asPoint p).1 (asPoint p).2 0) ?_) j
      rw [hpoint, asPoint_point]
      exact first_mem_word (by decide) _
    · rw [hroot]
      exact Public.mul hk (Public.root p.toList 0) j

/-- **Everything the attacker knows is public.** -/
theorem Knows.isPublic (hwire : Guarded own wire) {x : Term κ}
    (h : Knows Crypto.symbolic own wire x) : Public own wire x := by
  induction h with
  | wire hx => exact .wire hx
  | byte b => exact .byte b
  | basepoint hx =>
    obtain ⟨i, -, rfl⟩ := mem_word.1 hx
    exact .root [] i
  | x25519 hk _ hx hp => exact .x25519 hk hp hx
  | hkdf _ _ _ hx _ hikm _ =>
    obtain ⟨i, -, rfl⟩ := mem_word.1 hx
    exact .hkdf hikm i
  | sha256 _ hx hmsg =>
    obtain ⟨i, -, rfl⟩ := mem_word.1 hx
    exact .sha hmsg i
  | hmac _ _ hx hkey _ =>
    obtain ⟨i, -, rfl⟩ := mem_word.1 hx
    exact .hmac hkey i
  | encrypt _ _ _ _ hct hx hkey _ _ hmsg =>
    rw [Crypto.symbolic_encrypt_eq hct] at hx
    obtain ⟨i, -, rfl⟩ := mem_word.1 hx
    exact .sealed hkey hmsg i
  | decrypt _ _ _ _ hmsg hx _ _ _ hct =>
    obtain ⟨rest, rfl⟩ := Crypto.symbolic_encrypt_cons (Crypto.symbolic_decrypt.1 hmsg)
    -- the first symbol was seen on the wire or sealed from public inputs
    cases hct _ List.mem_cons_self with
    | wire hseen => exact hwire.sealed hseen _ hx
    | sealed _ hopen => exact hopen _ hx

/-! ## Where public symbols come from -/

namespace Public

theorem hkdf_inv {salt ikm info : List (Term κ)} {i : ℕ}
    (h : Public own wire (.hkdf salt ikm info i)) :
    .hkdf salt ikm info i ∈ wire ∨ ∀ y ∈ ikm, Public own wire y := by
  cases h with
  | wire hx => exact .inl hx
  | hkdf hikm => exact .inr hikm

theorem sha_inv {msg : List (Term κ)} {i : ℕ} (h : Public own wire (.sha msg i)) :
    .sha msg i ∈ wire ∨ ∀ y ∈ msg, Public own wire y := by
  cases h with
  | wire hx => exact .inl hx
  | sha hmsg => exact .inr hmsg

theorem hmac_inv {key msg : List (Term κ)} {i : ℕ} (h : Public own wire (.hmac key msg i)) :
    .hmac key msg i ∈ wire ∨ ∀ y ∈ key, Public own wire y := by
  cases h with
  | wire hx => exact .inl hx
  | hmac hkey => exact .inr hkey

theorem sealed_inv {key nonce aad msg : List (Term κ)} {i : ℕ}
    (h : Public own wire (.sealed key nonce aad msg i)) :
    .sealed key nonce aad msg i ∈ wire ∨ ∀ y ∈ key, Public own wire y := by
  cases h with
  | wire hx => exact .inl hx
  | sealed hkey => exact .inr hkey

/-- **A public message that opens** was sealed on the wire as it is, or its key is public. -/
theorem opened_inv {key : List.Vector (Term κ) 32} {nonce : List.Vector (Term κ) 12}
    {aad msg ct : List (Term κ)} (hct : ∀ y ∈ ct, Public own wire y)
    (h : Crypto.symbolic.aesDecrypt key nonce aad ct = some msg) :
    .sealed key.toList nonce.toList aad msg 0 ∈ wire ∨ ∀ y ∈ key.toList, Public own wire y := by
  obtain ⟨rest, rfl⟩ := Crypto.symbolic_encrypt_cons (Crypto.symbolic_decrypt.1 h)
  exact (hct _ List.mem_cons_self).sealed_inv

/-- A public point carries own secrets only, or one more on the base point. -/
theorem point_inv (hwire : Guarded own wire) {base : List (Term κ)} {S : Multiset κ} {i : ℕ}
    (h : Public own wire (.point base S i)) :
    (∀ a ∈ S, own a) ∨ base = [] ∧ ∃ k A, S = k ::ₘ A ∧ ∀ a ∈ A, own a := by
  generalize hx : Term.point base S i = x at h
  induction h generalizing S i with
  | wire hseen =>
    subst hx
    obtain ⟨hbase, k, hS⟩ := hwire.point hseen
    exact .inr ⟨hbase, k, 0, hS, by simp⟩
  | root =>
    injection hx with _ hS
    exact .inl (by simp [hS])
  | mul hk _ _ ih =>
    injection hx with hbase hS
    subst hbase hS
    rcases ih rfl with hown | ⟨hbase, k', A, rfl, hown⟩
    · exact .inl (by simpa using ⟨hk, hown⟩)
    · exact .inr ⟨hbase, k', _ ::ₘ A, Multiset.cons_swap _ _ _, by simpa using ⟨hk, hown⟩⟩
  | byte => cases hx
  | hkdf => cases hx
  | sha => cases hx
  | hmac => cases hx
  | sealed => cases hx

/-- **One foreign secret at most**: the other secrets of a public point are own,
and its base is the base point. -/
theorem point_cons_inv (hwire : Guarded own wire) {base : List (Term κ)} {e : κ} {S : Multiset κ}
    {i : ℕ} (he : ¬ own e) (h : Public own wire (.point base (e ::ₘ S) i)) :
    base = [] ∧ ∀ a ∈ S, own a := by
  rcases point_inv hwire h with hown | ⟨hbase, k, A, hS, hown⟩
  · exact absurd (hown e (Multiset.mem_cons_self e S)) he
  · have hmem : e ∈ k ::ₘ A := hS ▸ Multiset.mem_cons_self e S
    have hek : e = k := (Multiset.mem_cons.1 hmem).resolve_right fun hA => he (hown e hA)
    rw [hek, Multiset.cons_inj_right] at hS
    exact ⟨hbase, hS ▸ hown⟩

end Public

end Symbolic
