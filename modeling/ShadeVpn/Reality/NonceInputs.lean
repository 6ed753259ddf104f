import ShadeVpn.Lib.Symbolic
import ShadeVpn.Reality.Handshake

/-!
# The inputs of the record nonces

`derive_nonce` hashes a domain, a purpose, a session id and a counter, one behind the
other and with nothing between them.  The domains have one length, the id and the
counter have fixed lengths, and the two purposes differ in length, so that the input
says what it was made of (`NonceUse.input_injective`).  A nonce is the front of the
hash; where that is injective the nonces differ (`nonces_distinct`).
-/

namespace ShadeVpn.Handshake

open Octets

/-! ## What a nonce is for -/

/-- The purposes of a nonce. -/
inductive Purpose where
  | response
  | data
  deriving DecidableEq, Repr

/-- Its label. -/
def Purpose.label : Purpose → Bytes
  | .response => NONCE_PURPOSE_RESPONSE
  | .data => NONCE_PURPOSE_DATA

/-- The domain of a direction, as `derive_nonce` picks it. -/
def Direction.domain : Direction → Bytes
  | .client => NONCE_DOMAIN_CLIENT
  | .server => NONCE_DOMAIN_SERVER

theorem Direction.length_domain (d : Direction) : d.domain.length = 24 := by
  cases d <;> decide +kernel

theorem Direction.domain_injective : Function.Injective Direction.domain := by
  intro a b h
  cases a <;> cases b
  · rfl
  · exact absurd h (by decide +kernel)
  · exact absurd h (by decide +kernel)
  · rfl

theorem Purpose.length_label (p : Purpose) :
    p.label.length = if p = .response then 28 else 24 := by
  cases p <;> decide +kernel

/-- The purposes are told apart by the length of their labels. -/
theorem Purpose.length_label_injective :
    Function.Injective fun p : Purpose => p.label.length := by
  intro a b h
  simp only [length_label] at h
  cases a <;> cases b <;> simp at h ⊢

/-- What `derive_nonce` is given. -/
structure NonceUse (σ : Type) where
  sessionId : List.Vector σ 32
  seq : UInt64
  direction : Direction
  purpose : Purpose

variable {κ σ : Type} [Alphabet σ]

namespace NonceUse

/-- The bytes that `derive_nonce` hashes. -/
def input (u : NonceUse σ) : List σ :=
  lits u.direction.domain ++ lits u.purpose.label ++ u.sessionId.toList
    ++ lits (toBE 8 u.seq.toNat)

/-- The nonce it derives. -/
def nonce (C : Crypto κ σ) (u : NonceUse σ) : List.Vector σ 12 :=
  deriveNonce C u.sessionId u.seq u.direction u.purpose.label

end NonceUse

/-- The front of a hash, which is what a nonce is. -/
def nonceHash (C : Crypto κ σ) (msg : List σ) : List.Vector σ 12 :=
  copyFrom 12 (C.sha256 msg).toList

/-- `derive_nonce` hashes that input. -/
theorem NonceUse.nonce_eq (C : Crypto κ σ) (u : NonceUse σ) :
    u.nonce C = nonceHash C u.input := by
  obtain ⟨sessionId, seq, direction, purpose⟩ := u
  cases direction <;> rfl

/-! ## The input says what it was made of -/

/-- The length of an input is the purpose. -/
theorem NonceUse.purpose_eq {u v : NonceUse σ} (h : u.input = v.input) :
    u.purpose = v.purpose := by
  have hlen := congrArg List.length h
  simp only [input, List.length_append, length_lits, Direction.length_domain, length_toBE,
    List.Vector.toList_length] at hlen
  refine Purpose.length_label_injective ?_
  show u.purpose.label.length = v.purpose.label.length
  omega

/-- **The inputs of different uses are different.** -/
theorem NonceUse.input_injective : Function.Injective (NonceUse.input : NonceUse σ → List σ) := by
  intro u v h
  have hpurpose := purpose_eq h
  obtain ⟨sessionId, seq, direction, purpose⟩ := u
  obtain ⟨sessionId', seq', direction', purpose'⟩ := v
  cases hpurpose
  simp only [input] at h
  -- the parts from the back to the front, each of one length on both sides
  obtain ⟨h, hseq⟩ := List.append_inj' h (by simp)
  obtain ⟨h, hid⟩ := List.append_inj' h (by simp)
  obtain ⟨hdomain, -⟩ := List.append_inj' h rfl
  have hnat : seq.toNat = seq'.toNat :=
    toBE_injOn (k := 8) seq.toNat_lt seq'.toNat_lt (lits_injective hseq)
  rw [UInt64.toNat_inj.1 hnat, List.Vector.toList_injective hid,
    Direction.domain_injective (lits_injective hdomain)]

/-! ## The records of a session -/

/-- The records of a session that are sealed with a derived nonce: the confirmation,
and the data records of both directions. -/
inductive SessionRecord where
  | confirmation
  | data (direction : Direction) (seq : UInt64)

/-- What the nonce of a record is derived from. -/
def SessionRecord.nonceUse (sessionId : List.Vector σ 32) : SessionRecord → NonceUse σ
  | .confirmation => ⟨sessionId, 0, .server, .response⟩
  | .data direction seq => ⟨sessionId, seq, direction, .data⟩

omit [Alphabet σ] in
theorem SessionRecord.nonceUse_injective (sessionId : List.Vector σ 32) :
    Function.Injective (SessionRecord.nonceUse sessionId) := by
  intro a b h
  cases a with
  | confirmation =>
    cases b with
    | confirmation => rfl
    | data direction seq => cases congrArg NonceUse.purpose h
  | data direction seq =>
    cases b with
    | confirmation => cases congrArg NonceUse.purpose h
    | data direction' seq' =>
      cases congrArg NonceUse.direction h
      cases congrArg NonceUse.seq h
      rfl

/-- **Nonce inputs never collide**, so that the nonces of different uses are different
where the hash is injective on their inputs: those of the confirmation and of all data
records of a session. -/
theorem nonces_distinct (C : Crypto κ σ) {uses : Set (NonceUse σ)}
    (hhash : Set.InjOn (nonceHash C) (NonceUse.input '' uses)) :
    Function.Injective (NonceUse.input : NonceUse σ → List σ) ∧
      Set.InjOn (NonceUse.nonce C) uses ∧
      ∀ sessionId, (∀ r : SessionRecord, r.nonceUse sessionId ∈ uses) →
        Function.Injective fun r : SessionRecord => (r.nonceUse sessionId).nonce C := by
  have hnonce : Set.InjOn (NonceUse.nonce C) uses := by
    intro u hu v hv h
    rw [NonceUse.nonce_eq, NonceUse.nonce_eq] at h
    exact NonceUse.input_injective
      (hhash (Set.mem_image_of_mem _ hu) (Set.mem_image_of_mem _ hv) h)
  refine ⟨NonceUse.input_injective, hnonce, fun sessionId hmem a b h => ?_⟩
  exact SessionRecord.nonceUse_injective sessionId (hnonce (hmem a) (hmem b) h)

/-- The symbolic hash is injective, and so is its front. -/
theorem nonceHash_symbolic_injective :
    Function.Injective (nonceHash (Crypto.symbolic : Crypto κ (Symbolic.Term κ))) := by
  intro a b h
  have hfront : ∀ msg : List (Symbolic.Term κ),
      (nonceHash Crypto.symbolic msg).toList.head? = some (.sha msg 0) := by
    intro msg
    rw [nonceHash, toList_copyFrom (by simp), List.head?_take, if_neg (by decide)]
    rfl
  have hhead := congrArg (fun v : List.Vector (Symbolic.Term κ) 12 => v.toList.head?) h
  simp only [hfront] at hhead
  cases hhead
  rfl

/-- The records of one session, under the symbolic hash. -/
theorem nonces_distinct_symbolic : Function.Injective fun r : SessionRecord =>
    (r.nonceUse (.replicate 32 (Alphabet.byte 7))).nonce
      (Crypto.symbolic : Crypto ℕ (Symbolic.Term ℕ)) := by
  have h := @nonces_distinct ℕ (Symbolic.Term ℕ) _ Crypto.symbolic Set.univ
    nonceHash_symbolic_injective.injOn
  exact h.2.2 (.replicate 32 (Alphabet.byte 7)) fun _ => Set.mem_univ _

end ShadeVpn.Handshake
