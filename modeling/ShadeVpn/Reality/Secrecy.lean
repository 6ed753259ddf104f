import ShadeVpn.Reality.Agreement

/-!
# Who can build the keys of a session

The keys of an answered hello against an attacker that sees every message and holds some
secrets, its own or leaked ones.

* `Run.knows_keys_iff` — the record keys can be built exactly from one of the two
  ephemeral secrets: the server's long-term secret does not lead to them.  The AuthKey
  can be built exactly from the client's ephemeral secret or the server's long-term one.
-/

namespace ShadeVpn.Handshake

open Octets Checked Tls Reality Symbolic

variable {κ : Type} {serverSecret : κ} {own : κ → Prop}
  {runs : Set (Run (Crypto.symbolic (κ := κ)) serverSecret)}
  {run : Run (Crypto.symbolic (κ := κ)) serverSecret}

/-! ## What leads to a key -/

/-- The secret of two parties is public only if one of theirs is the attacker's. -/
theorem own_of_pair_public {wire : Set (Term κ)} (hwire : Guarded own wire) {a b : κ}
    (h : ∀ y ∈ (point [] {a, b} : List.Vector (Term κ) 32).toList, Public own wire y) :
    own a ∨ own b := by
  by_contra hforeign
  rw [not_or] at hforeign
  have hfirst : Public own wire (.point [] (a ::ₘ {b}) 0) :=
    h _ (first_mem_word (by decide) _)
  obtain ⟨-, hown⟩ := hfirst.point_cons_inv hwire hforeign.1
  exact hforeign.2 (hown b (Multiset.mem_singleton_self b))

/-- The octets of record keys are octets of the key material. -/
theorem mem_recordKeys {sid secret : List.Vector (Term κ) 32} {y : Term κ}
    (hy : y ∈ (recordKeys Crypto.symbolic sid secret).send.toList ∨
      y ∈ (recordKeys Crypto.symbolic sid secret).recv.toList) :
    y ∈ (Crypto.symbolic.hkdfSha256 (lits HKDF_SALT)
      (sessionIdentity Crypto.symbolic sid secret).toList (lits KEY_INFO) 64).toList := by
  rcases hy with hsend | hrecv
  · rw [recordKeys, toList_copyFrom (by simp)] at hsend
    exact List.mem_of_mem_take hsend
  · rw [recordKeys, toList_copyFrom (by simp)] at hrecv
    exact List.mem_of_mem_drop (List.mem_of_mem_take hrecv)

/-- One public octet of the key material makes the secret behind it public. -/
theorem Run.secret_of_material {sid secret : List.Vector (Term κ) 32} {y : Term κ}
    (hy : y ∈ (Crypto.symbolic.hkdfSha256 (lits HKDF_SALT)
      (sessionIdentity Crypto.symbolic sid secret).toList (lits KEY_INFO) 64).toList)
    (h : Public own (Run.wire runs) y) : ∀ z ∈ secret.toList, Public own (Run.wire runs) z := by
  obtain ⟨i, -, rfl⟩ := mem_word.1 hy
  have hident := h.hkdf_inv.resolve_left (Run.hkdf_not_mem_wire (by decide))
  have hrecv : ∀ z ∈ (recordKeys Crypto.symbolic sid secret).recv.toList,
      Public own (Run.wire runs) z := by
    intro z hz
    obtain ⟨j, -, rfl⟩ := mem_word.1 (mem_recordKeys (.inr hz))
    exact .hkdf hident j
  exact Run.secret_public hrecv

/-- One public octet of an AuthKey makes the shared secret public. -/
theorem Run.shared_of_authKey {shared random : List.Vector (Term κ) 32} {y : Term κ}
    (hy : y ∈ (authKey Crypto.symbolic shared random).toList)
    (h : Public own (Run.wire runs) y) : ∀ z ∈ shared.toList, Public own (Run.wire runs) z := by
  obtain ⟨i, -, rfl⟩ := mem_word.1 hy
  exact h.hkdf_inv.resolve_left (Run.hkdf_not_mem_wire (by decide))

/-! ## What an attacker with a secret builds -/

/-- The key shares of both ends are on the wire. -/
theorem Run.knows_shares (hrun : run ∈ runs) {y : Term κ}
    (hy : y ∈ (Crypto.symbolic.publicKey run.ephemeral).toList ∨
      y ∈ (Crypto.symbolic.publicKey run.serverEphemeral).toList) :
    Knows Crypto.symbolic own (Run.wire runs) y := by
  rcases hy with hclient | hserver
  · exact .wire (.inr ⟨run, hrun, _, .hello, run.mem_wireHello (.inl hclient)⟩)
  · obtain ⟨-, -, confirm, -, hresponse⟩ := run.response_eq Crypto.symbolic_lawful
    refine .wire (.inr ⟨run, hrun, _, .response, ?_⟩)
    rw [hresponse]
    exact List.mem_append_left _ (List.mem_append_right _ hserver)

/-- The secret of two parties from one of them and the other's share. -/
theorem knows_pair {wire : Set (Term κ)} {a b : κ} (hown : own a ∨ own b)
    (ha : ∀ y ∈ (Crypto.symbolic.publicKey a).toList, Knows Crypto.symbolic own wire y)
    (hb : ∀ y ∈ (Crypto.symbolic.publicKey b).toList, Knows Crypto.symbolic own wire y) :
    ∀ y ∈ (Crypto.symbolic.x25519 a (Crypto.symbolic.publicKey b)).toList,
      Knows Crypto.symbolic own wire y := by
  intro y hy
  rcases hown with hown | hown
  · exact .x25519 hown hb hy
  · rw [Crypto.symbolic_lawful.dh_comm] at hy
    exact .x25519 hown ha hy

/-- The key material of a known secret: the session id is on the wire. -/
theorem Run.knows_material (hrun : run ∈ runs) {secret : List.Vector (Term κ) 32}
    (h : ∀ y ∈ secret.toList, Knows Crypto.symbolic own (Run.wire runs) y) :
    ∀ y ∈ (Crypto.symbolic.hkdfSha256 (lits HKDF_SALT)
      (sessionIdentity Crypto.symbolic run.st.sealedSessionId secret).toList
      (lits KEY_INFO) 64).toList, Knows Crypto.symbolic own (Run.wire runs) y := by
  intro y hy
  refine .hkdf knows_lits (fun z hz => ?_) knows_lits hy
  refine .sha256 (fun w hw => ?_) hz
  rcases List.mem_append.1 hw with hsid | hsecret
  · exact .wire (.inr ⟨run, hrun, _, .hello, run.mem_wireHello (.inr hsid)⟩)
  · exact h w hsecret

/-- **Whose secrets lead to the keys of a run.**  An octet of its record keys can be built
exactly with the ephemeral secret of one of the ends, whatever else is known, and an octet
of its AuthKey exactly with the client's ephemeral secret or the server's long-term one. -/
theorem Run.knows_keys_iff (hrun : run ∈ runs) :
    (∀ y, y ∈ run.keys.send.toList ∨ y ∈ run.keys.recv.toList →
      (Knows Crypto.symbolic own (Run.wire runs) y ↔
        own run.ephemeral ∨ own run.serverEphemeral)) ∧
    ∀ y ∈ run.st.authKey.toList,
      (Knows Crypto.symbolic own (Run.wire runs) y ↔ own run.ephemeral ∨ own serverSecret) := by
  have hguarded := Run.guarded own runs
  refine ⟨fun y hy => ⟨fun h => ?_, fun h => ?_⟩, fun y hy => ⟨fun h => ?_, fun h => ?_⟩⟩
  · have hsecret := Run.secret_of_material (mem_recordKeys hy) (h.isPublic hguarded)
    rw [Run.ecdhe, Crypto.symbolic_publicKey, Crypto.symbolic_x25519_point] at hsecret
    exact (own_of_pair_public hguarded hsecret).symm
  · refine Run.knows_material hrun (knows_pair h.symm ?_ ?_) y (mem_recordKeys hy)
    · exact fun z hz => Run.knows_shares hrun (.inr hz)
    · exact fun z hz => Run.knows_shares hrun (.inl hz)
  · rw [run.authKey_eq] at hy
    have hshared := Run.shared_of_authKey hy (h.isPublic hguarded)
    rw [Run.shared, Crypto.symbolic_publicKey, Crypto.symbolic_x25519_point] at hshared
    exact own_of_pair_public hguarded hshared
  · have hshared : ∀ z ∈ run.shared.toList, Knows Crypto.symbolic own (Run.wire runs) z :=
      knows_pair h (fun z hz => Run.knows_shares hrun (.inl hz)) fun z hz => .wire (.inl hz)
    rw [run.authKey_eq] at hy
    refine .hkdf (fun z hz => ?_) hshared knows_lits hy
    exact .hkdf knows_lits hshared knows_lits (List.mem_of_mem_take hz)

/-- The server's long-term secret leads to the AuthKey of a run, not to its record keys. -/
theorem Run.knows_keys_iff_leaked : ∃ run : Run (Crypto.symbolic (κ := ℕ)) 3,
    (∀ y ∈ run.keys.send.toList, ¬ Knows Crypto.symbolic (· = 3) (Run.wire {run}) y) ∧
    (∀ y ∈ run.keys.recv.toList, ¬ Knows Crypto.symbolic (· = 3) (Run.wire {run}) y) ∧
    ∀ y ∈ run.st.authKey.toList, Knows Crypto.symbolic (· = 3) (Run.wire {run}) y := by
  obtain ⟨run, he, -, ht⟩ := Run.exists_run (κ := ℕ) 3 5 7 9
  obtain ⟨hkeys, hauth⟩ := @Run.knows_keys_iff ℕ 3 (· = 3) {run} run (Set.mem_singleton run)
  have hforeign : ¬ (run.ephemeral = 3 ∨ run.serverEphemeral = 3) := by
    rw [he, ht]
    decide
  exact ⟨run, fun y hy h => hforeign ((hkeys y (.inl hy)).1 h),
    fun y hy h => hforeign ((hkeys y (.inr hy)).1 h), fun y hy => (hauth y hy).2 (.inr rfl)⟩

end ShadeVpn.Handshake
