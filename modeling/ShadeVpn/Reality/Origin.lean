import ShadeVpn.Reality.NonceInputs
import ShadeVpn.Reality.Secrecy
import ShadeVpn.Tls.Exact

/-!
# Where hellos and records come from

Both ends of the runs behind an attacker that sees every message, holds secrets of its own
and decides what arrives.

* `Run.openHello_origin` — a hello that the server opens is one of the runs' as it was
  sent, or its key share is all zero or made from the attacker's own secrets.
* `Run.server_opens_origin`, `Run.client_opens_origin` — a record that an end opens was sent
  by the other end, in this direction and under this number.
-/

namespace ShadeVpn.Handshake

open Octets Checked Tls Reality Symbolic

/-- The session id that was patched in last stands. -/
theorem patchSessionId_patchSessionId {σ : Type} {record sid sid' : List σ}
    (hlen : sid'.length = sid.length) (hlong : SESSION_ID_OFFSET + sid'.length ≤ record.length) :
    patchSessionId (patchSessionId record sid') sid = patchSessionId record sid := by
  have hfront : (record.take SESSION_ID_OFFSET).length = SESSION_ID_OFFSET := by
    rw [List.length_take]
    omega
  simp only [patchSessionId, List.append_assoc, List.take_left' hfront, hlen]
  rw [← List.drop_drop, List.drop_left' hfront, List.drop_left' hlen]

/-- What a hello went through that the server opens. -/
theorem openHello_eq_ok {κ σ : Type} [Alphabet σ] {C : Crypto κ σ} {serverSecret : κ}
    {frame : List σ} {opened : OpenedHello σ} (h : openHello C serverSecret frame = .ok opened) :
    ∃ hello, parseClientHello frame = .ok hello ∧
      opened.ephemeralPublic = hello.ephemeralPublic ∧
      opened.sessionId.toList = hello.sessionId ∧
      opened.authKey = authKey C (C.x25519 serverSecret hello.ephemeralPublic) hello.random ∧
      SESSION_ID_OFFSET + 32 ≤ frame.length ∧
      unsealSessionId C opened.authKey hello.random
        (patchSessionId frame (Crypto.zeros 32 : List.Vector σ 32).toList) opened.sessionId =
          .ok opened.plain := by
  rw [openHello] at h
  split at h
  · cases h
  · next hello hparse =>
    split at h
    · cases h
    · dsimp only at h
      split_ifs at h with hshort hsid
      rw [not_not] at hsid
      split at h
      · cases h
      · next plain hplain =>
        obtain rfl := Except.ok.inj h
        have hcopy : (copyFrom 32 hello.sessionId).toList = hello.sessionId := by
          rw [toList_copyFrom hsid.ge, ← hsid, List.take_length]
        exact ⟨hello, hparse, rfl, hcopy, rfl, not_lt.1 hshort, hplain⟩

/-- What is unsealed was decrypted. -/
theorem decrypt_of_unseal {κ σ : Type} [Alphabet σ] {C : Crypto κ σ}
    {key random : List.Vector σ 32} {aad : List σ} {sid : List.Vector σ 32}
    {plain : SessionIdPlain σ} (h : unsealSessionId C key random aad sid = .ok plain) :
    ∃ msg, C.aesDecrypt key (sessionIdNonce random) aad sid.toList = some msg := by
  rw [unsealSessionId] at h
  split_ifs at h
  split at h
  · cases h
  · next msg hmsg => exact ⟨msg, hmsg⟩

/-! ## What is sent -/

section Transcript

variable {κ σ : Type} [Alphabet σ] [DecidableEq σ] {C : Crypto κ σ} {serverSecret : κ}

/-- The messages of a run whose ends send this data, each its records one after the other
from sequence number 0. -/
inductive Run.Transmits (data : Direction → List Bytes) (run : Run C serverSecret) :
    List σ → Prop
  | hello : Transmits data run run.st.wireHello
  | response : Transmits data run run.response
  | clientRecord {st' : HandshakeState κ σ} {seq : UInt64} {payload : Bytes} {frame : List σ}
      (haccept : run.st.complete C run.response = (.ok (), st'))
      (hdata : (data .client)[seq.toNat]? = some payload)
      (hseal : st'.sealRecord C seq (lits payload) = .ok frame) : Transmits data run frame
  | serverRecord {seq : UInt64} {payload : Bytes} {frame : List σ}
      (hdata : (data .server)[seq.toNat]? = some payload)
      (hseal : run.session.sealRecord C seq (lits payload) = some frame) :
      Transmits data run frame

/-- The symbols an attacker sees of runs that send this data. -/
def Run.transcript (data : Run C serverSecret → Direction → List Bytes)
    (runs : Set (Run C serverSecret)) : Set σ :=
  {x | x ∈ (C.publicKey serverSecret).toList ∨
    ∃ run ∈ runs, ∃ msg, run.Transmits (data run) msg ∧ x ∈ msg}

theorem Run.Transmits.sends {data : Direction → List Bytes} {run : Run C serverSecret}
    {msg : List σ} (h : run.Transmits data msg) : run.Sends msg := by
  cases h with
  | hello => exact .hello
  | response => exact .response
  | clientRecord haccept _ hseal => exact .clientRecord haccept hseal
  | serverRecord _ hseal => exact .serverRecord hseal

theorem Run.transcript_subset (data : Run C serverSecret → Direction → List Bytes)
    (runs : Set (Run C serverSecret)) : Run.transcript data runs ⊆ Run.wire runs := by
  rintro x (hpub | ⟨run, hrun, msg, hsent, hx⟩)
  · exact .inl hpub
  · exact .inr ⟨run, hrun, msg, hsent.sends, hx⟩

/-- The key a record of the session is sealed with. -/
def Run.keyOf (run : Run C serverSecret) : SessionRecord → List.Vector σ 32
  | .confirmation => run.keys.recv
  | .data .client _ => run.keys.send
  | .data .server _ => run.keys.recv

end Transcript

section Symbolic

variable {κ : Type} {serverSecret : κ} {own : κ → Prop}
  {runs : Set (Run (Crypto.symbolic (κ := κ)) serverSecret)}
  {run : Run (Crypto.symbolic (κ := κ)) serverSecret}

/-! ## What is sealed -/

/-- A client that accepted the answer of its run has the keys of the run. -/
theorem Run.keys_of_accept {st' : HandshakeState κ (Term κ)}
    (haccept : run.st.complete Crypto.symbolic run.response = (.ok (), st')) :
    st'.recordKeys = some run.keys ∧ st'.sealedSessionId = run.st.sealedSessionId := by
  have hecdhe : Crypto.symbolic.x25519 run.ephemeral
      (Crypto.symbolic.publicKey run.serverEphemeral) ≠ Crypto.zeros 32 := by
    rw [Crypto.symbolic_publicKey, Crypto.symbolic_x25519_point]
    exact point_ne_zeros _ _
  obtain ⟨st'', hcomplete, hkeys⟩ := complete_serve Crypto.symbolic_lawful rfl run.initiated
    run.answered hecdhe
  rw [haccept, Prod.mk.injEq] at hcomplete
  obtain ⟨hsend, hrecv, -⟩ := run.response_eq Crypto.symbolic_lawful
  refine ⟨?_, ?_⟩
  · rw [hcomplete.2, hkeys, hsend, hrecv]
  · obtain ⟨-, -, -, rfl⟩ := acceptable_of_complete haccept
    rfl

/-- The server's session is under the session id of the hello. -/
theorem Run.session_eq : run.session.sessionId = run.st.sealedSessionId ∧
    run.session.recvKey = run.keys.send ∧ run.session.sendKey = run.keys.recv := by
  obtain ⟨hsend, hrecv, -⟩ := run.response_eq Crypto.symbolic_lawful
  refine ⟨?_, hrecv, hsend⟩
  obtain ⟨hello, hopen, hanswer⟩ := serve_eq_ok run.answered
  have hread := openHello_initiate Crypto.symbolic_lawful rfl run.initiated
    (length_lt_of_openHello hopen)
  rw [hopen] at hread
  cases hread
  rw [answer] at hanswer
  dsimp only at hanswer
  split at hanswer
  · cases hanswer
  · injection hanswer with hpair
    rw [← (Prod.mk.inj hpair).2]

/-- What a record of a session is sealed with, and what is in it. -/
def Run.Record (data : Direction → List Bytes)
    (run : Run (Crypto.symbolic (κ := κ)) serverSecret) (key nonce pt : List (Term κ)) : Prop :=
  ∃ r : SessionRecord, key = (run.keyOf r).toList ∧
    nonce = ((r.nonceUse run.st.sealedSessionId).nonce Crypto.symbolic).toList ∧
    ∀ direction seq, r = .data direction seq →
      ∃ payload, (data direction)[seq.toNat]? = some payload ∧ pt = lits payload

/-- **A seal on the wire** is the session id of a hello, over that hello, or a record. -/
theorem Run.Transmits.sealed_inv {data : Direction → List Bytes} {msg : List (Term κ)}
    (h : run.Transmits data msg) {key nonce aad pt : List (Term κ)} {i : ℕ}
    (hx : .sealed key nonce aad pt i ∈ msg) :
    (aad ≠ [] ∧ ∃ (k : List.Vector (Term κ) 32) (n : List.Vector (Term κ) 12), key = k.toList ∧
      nonce = n.toList ∧
      Crypto.symbolic.aesEncrypt k n aad pt = some run.st.sealedSessionId.toList ∧
      run.st.wireHello = patchSessionId aad run.st.sealedSessionId.toList) ∨
    aad = [] ∧ run.Record data key nonce pt := by
  cases h with
  | hello =>
    obtain ⟨hello, hbuild, hwire, hseal⟩ := run.wireHello_eq
    rw [hwire] at hx
    obtain ⟨b, hbyte⟩ | hpub | hrandom | hsid :=
      mem_buildClientHello (buildClientHello_patch (by simp) hbuild) hx
    · cases hbyte
    · rw [Crypto.symbolic_publicKey] at hpub
      obtain ⟨j, -, hpoint⟩ := mem_word.1 hpub
      cases hpoint
    · obtain ⟨j, -, hhkdf⟩ := mem_word.1 hrandom
      cases hhkdf
    · obtain ⟨j, heq⟩ := Crypto.mem_symbolic_encrypt hseal hsid
      injection heq with hkey hnonce haad hpt
      subst hkey hnonce haad hpt
      refine .inl ⟨?_, _, _, rfl, rfl, hseal, hwire⟩
      rintro rfl
      have hslot := (buildClientHello_slot hbuild).2
      simp [SESSION_ID_OFFSET] at hslot
  | response =>
    obtain ⟨-, -, confirm, hconfirm, hresponse⟩ := run.response_eq Crypto.symbolic_lawful
    rw [hresponse, temporaryCertificate, List.mem_append, List.mem_append, List.mem_append] at hx
    simp only [Crypto.symbolic_publicKey] at hx
    obtain ((hpub | htag) | hshare) | hconf := hx
    · obtain ⟨j, -, hpoint⟩ := mem_word.1 hpub
      cases hpoint
    · obtain ⟨j, -, htag⟩ := mem_word.1 htag
      cases htag
    · obtain ⟨j, -, hpoint⟩ := mem_word.1 hshare
      cases hpoint
    · obtain ⟨j, heq⟩ := Crypto.mem_symbolic_encrypt hconfirm hconf
      injection heq with hkey hnonce haad
      exact .inr ⟨haad, .confirmation, hkey, hnonce, fun _ _ h => by cases h⟩
  | clientRecord haccept hdata hseal =>
    obtain ⟨hkeys, hsid⟩ := Run.keys_of_accept haccept
    rw [HandshakeState.sealRecord, hkeys, hsid] at hseal
    dsimp only at hseal
    split at hseal
    · cases hseal
    · next ct hct =>
      cases hseal
      obtain ⟨j, heq⟩ := Crypto.mem_symbolic_encrypt hct hx
      injection heq with hkey hnonce haad hpt
      refine .inr ⟨haad, .data .client _, hkey, hnonce, ?_⟩
      rintro direction seq' ⟨⟩
      exact ⟨_, hdata, hpt⟩
  | serverRecord hdata hseal =>
    obtain ⟨hsid, -, hkey⟩ := run.session_eq
    rw [ServerSession.sealRecord, hsid, hkey] at hseal
    obtain ⟨j, heq⟩ := Crypto.mem_symbolic_encrypt hseal hx
    injection heq with hkey hnonce haad hpt
    refine .inr ⟨haad, .data .server _, hkey, hnonce, ?_⟩
    rintro direction seq' ⟨⟩
    exact ⟨_, hdata, hpt⟩

variable {data : Run (Crypto.symbolic (κ := κ)) serverSecret → Direction → List Bytes}

/-- What the attacker sees is the server's public key or sent by a run. -/
theorem Run.mem_transcript {key nonce aad pt : List (Term κ)} {i : ℕ}
    (h : .sealed key nonce aad pt i ∈ Run.transcript data runs) :
    ∃ run ∈ runs, ∃ msg, run.Transmits (data run) msg ∧ .sealed key nonce aad pt i ∈ msg := by
  rcases h with hpub | hsent
  · rw [Crypto.symbolic_publicKey] at hpub
    obtain ⟨j, -, hpoint⟩ := mem_word.1 hpub
    cases hpoint
  · exact hsent

/-- The transcript guards its secrets as all messages of the runs do. -/
theorem Run.guarded_transcript (own : κ → Prop)
    (data : Run (Crypto.symbolic (κ := κ)) serverSecret → Direction → List Bytes)
    (runs : Set (Run (Crypto.symbolic (κ := κ)) serverSecret)) :
    Guarded own (Run.transcript data runs) where
  sealed h y hy := by
    rcases Run.mem_wire (Run.transcript_subset data runs h) with ⟨j, hpoint⟩ | ⟨run, -, hemits⟩
    · cases hpoint
    · obtain ⟨b, rfl⟩ : ∃ b, y = Alphabet.byte b := by
        cases hemits <;> exact exists_byte_of_mem_lits hy
      exact .byte b
  point h := (Run.guarded own runs).point (Run.transcript_subset data runs h)

/-! ## Hellos -/

/-- **The server's hellos.**  A frame that an attacker without the server's secret can build
and that the server opens is the hello of a run as it was sent, or its key share is all
zero or made from the attacker's own secrets. -/
theorem Run.openHello_origin (hs : ¬ own serverSecret) {frame : List (Term κ)}
    (hframe : ∀ y ∈ frame, Knows Crypto.symbolic own (Run.transcript data runs) y)
    {opened : OpenedHello (Term κ)}
    (hopen : openHello Crypto.symbolic serverSecret frame = .ok opened) :
    (∃ run ∈ runs, frame = run.st.wireHello) ∨
      opened.ephemeralPublic = Crypto.zeros 32 ∨
      ∃ secrets : List κ, (∀ a ∈ secrets, own a) ∧ opened.ephemeralPublic
        = secrets.foldr Crypto.symbolic.x25519 Crypto.symbolic.basepoint := by
  have hguarded := Run.guarded_transcript own data runs
  obtain ⟨hello, hparse, hshare, hsid, hauth, hlong, hunseal⟩ := openHello_eq_ok hopen
  obtain ⟨pt, hdecrypt⟩ := decrypt_of_unseal hunseal
  -- the session id stands in the frame
  have hslot : patchSessionId frame opened.sessionId.toList = frame := by
    rw [hsid]
    exact patchSessionId_of_parse hparse
  have hpublic : ∀ y ∈ opened.sessionId.toList,
      Public own (Run.transcript data runs) y := by
    intro y hy
    refine (hframe y ?_).isPublic hguarded
    rw [← hslot, patchSessionId]
    exact List.mem_append_left _ (List.mem_append_right _ hy)
  rcases Public.opened_inv hpublic hdecrypt with hseen | hkey
  · left
    obtain ⟨run, hrun, msg, hsent, hmem⟩ := Run.mem_transcript hseen
    have haad : patchSessionId frame (Crypto.zeros 32 : List.Vector (Term κ) 32).toList ≠ [] := by
      rw [← List.length_pos_iff, length_patchSessionId (by simpa using hlong)]
      omega
    rcases hsent.sealed_inv hmem with ⟨-, k, n, hk, hn, hseal, hwire⟩ | ⟨hnil, -⟩
    · obtain rfl := List.Vector.toList_injective hk
      obtain rfl := List.Vector.toList_injective hn
      rw [Crypto.symbolic_decrypt.1 hdecrypt, Option.some.injEq] at hseal
      refine ⟨run, hrun, ?_⟩
      rw [hwire, ← hseal, patchSessionId_patchSessionId (by simp) (by simpa using hlong), hslot]
    · exact absurd hnil haad
  · right
    rw [or_iff_not_imp_left]
    intro hzero
    have hfirst : opened.authKey.get 0 ∈ opened.authKey.toList :=
      (List.Vector.mem_iff_get _ _).2 ⟨0, rfl⟩
    have hseen := (hkey _ hfirst).mono (Run.transcript_subset data runs)
    rw [hauth, ← hshare] at hfirst hseen
    have hshared := Run.shared_of_authKey hfirst hseen
    exact exists_own_of_secret_public (Run.guarded own runs) hs
      (Crypto.symbolic_x25519_ne_zeros serverSecret hzero) hshared

/-- The hello of a run reaches the server as it was sent. -/
theorem Run.openHello_origin_honest : ∃ run : Run (Crypto.symbolic (κ := ℕ)) 3, ∃ opened,
    openHello Crypto.symbolic 3 run.st.wireHello = .ok opened ∧
    ((∃ x ∈ ({run} : Set (Run Crypto.symbolic 3)), run.st.wireHello = x.st.wireHello) ∨
      opened.ephemeralPublic = Crypto.zeros 32 ∨
      ∃ secrets : List ℕ, (∀ a ∈ secrets, a = 11) ∧ opened.ephemeralPublic
        = secrets.foldr Crypto.symbolic.x25519 Crypto.symbolic.basepoint) := by
  obtain ⟨run, -, -, -⟩ := Run.exists_run (κ := ℕ) 3 5 7 9
  obtain ⟨opened, hopen, -⟩ := serve_eq_ok run.answered
  refine ⟨run, opened, hopen, ?_⟩
  exact @Run.openHello_origin ℕ 3 (· = 11) {run} (fun _ _ => []) (by decide) _
    (fun y hy => .wire (.inr ⟨run, rfl, _, .hello, hy⟩)) opened hopen

/-! ## Records -/

theorem send_inj {sid sid' secret secret' : List.Vector (Term κ) 32}
    (h : (recordKeys Crypto.symbolic sid secret).send
      = (recordKeys Crypto.symbolic sid' secret').send) : sid = sid' ∧ secret = secret' := by
  have hget := congrArg (fun v => v.get 0) h
  simp only [send_get_zero] at hget
  injection hget with _ hident
  have hfirst := word_eq (by decide) (List.Vector.toList_injective hident)
  injection hfirst with happ
  obtain ⟨hsid, hsecret⟩ := List.append_inj happ (by simp)
  exact ⟨List.Vector.toList_injective hsid, List.Vector.toList_injective hsecret⟩

/-- Keys of one direction are of one session id and one secret. -/
theorem Run.keyOf_inj {x : Run (Crypto.symbolic (κ := κ)) serverSecret} {direction : Direction}
    {seq : UInt64} (h : (x.keyOf (.data direction seq)).toList
      = (run.keyOf (.data direction seq)).toList) :
    x.st.sealedSessionId = run.st.sealedSessionId ∧ x.ecdhe = run.ecdhe := by
  cases direction with
  | client => exact send_inj (List.Vector.toList_injective h)
  | server => exact recv_inj (List.Vector.toList_injective h)

/-- A run is known by its keys where every answer has a key share of its own. -/
theorem Run.eq_of_keyOf (hfresh : Set.InjOn Run.serverEphemeral runs)
    {x : Run (Crypto.symbolic (κ := κ)) serverSecret} (hx : x ∈ runs) (hrun : run ∈ runs)
    {direction : Direction} {seq : UInt64} (h : (x.keyOf (.data direction seq)).toList
      = (run.keyOf (.data direction seq)).toList) : x = run := by
  obtain ⟨hsid, hecdhe⟩ := Run.keyOf_inj h
  have hephemeral := (Run.hello_eq hsid).2
  rw [Run.ecdhe, Run.ecdhe, hephemeral, Crypto.symbolic_publicKey, Crypto.symbolic_x25519_point,
    Crypto.symbolic_x25519_point, point_inj, Multiset.cons_inj_left] at hecdhe
  exact hfresh hx hrun hecdhe.2

/-- The keys of a run whose secrets are not the attacker's are not public. -/
theorem Run.keyOf_secret (he : ¬ own run.ephemeral) (ht : ¬ own run.serverEphemeral)
    (r : SessionRecord) : ¬ ∀ y ∈ (run.keyOf r).toList, Public own (Run.wire runs) y := by
  intro hpublic
  have hfirst : (run.keyOf r).get 0 ∈ (run.keyOf r).toList :=
    (List.Vector.mem_iff_get _ _).2 ⟨0, rfl⟩
  have hkeys : (run.keyOf r).get 0 ∈ run.keys.send.toList ∨
      (run.keyOf r).get 0 ∈ run.keys.recv.toList := by
    cases r with
    | confirmation => exact .inr hfirst
    | data direction seq =>
      cases direction with
      | client => exact .inl hfirst
      | server => exact .inr hfirst
  have hsecret := Run.secret_of_material (mem_recordKeys hkeys) (hpublic _ hfirst)
  rw [Run.ecdhe, Crypto.symbolic_publicKey, Crypto.symbolic_x25519_point] at hsecret
  rcases own_of_pair_public (Run.guarded own runs) hsecret with hown | hown
  · exact ht hown
  · exact he hown

/-- **A record that opens was sent**, in this direction and under this number. -/
theorem Run.opened_origin (hfresh : Set.InjOn Run.serverEphemeral runs) (hrun : run ∈ runs)
    (he : ¬ own run.ephemeral) (ht : ¬ own run.serverEphemeral) {frame pt : List (Term κ)}
    (hframe : ∀ y ∈ frame, Knows Crypto.symbolic own (Run.transcript data runs) y)
    {direction : Direction} {seq : UInt64}
    (hopen : Crypto.symbolic.aesDecrypt (run.keyOf (.data direction seq))
      ((SessionRecord.data direction seq).nonceUse run.st.sealedSessionId |>.nonce
        Crypto.symbolic) [] frame = some pt) :
    ∃ payload, (data run direction)[seq.toNat]? = some payload ∧ pt = lits payload := by
  have hpublic : ∀ y ∈ frame, Public own (Run.transcript data runs) y :=
    fun y hy => (hframe y hy).isPublic (Run.guarded_transcript own data runs)
  rcases Public.opened_inv hpublic hopen with hseen | hkey
  · obtain ⟨x, hx, msg, hsent, hmem⟩ := Run.mem_transcript hseen
    rcases hsent.sealed_inv hmem with ⟨hnil, -⟩ | ⟨-, r, hkey, hnonce, hdata⟩
    · exact absurd rfl hnil
    · -- the nonce says which record it is, the key whose
      have huse := List.Vector.toList_injective hnonce
      rw [NonceUse.nonce_eq, NonceUse.nonce_eq] at huse
      have huse := NonceUse.input_injective (nonceHash_symbolic_injective huse)
      obtain rfl : r = .data direction seq := by
        cases r with
        | confirmation => cases congrArg NonceUse.purpose huse
        | data direction' seq' =>
          cases congrArg NonceUse.direction huse
          cases congrArg NonceUse.seq huse
          rfl
      obtain rfl := Run.eq_of_keyOf hfresh hx hrun hkey.symm
      exact hdata direction seq rfl
  · exact absurd (fun y hy => (hkey y hy).mono (Run.transcript_subset data runs))
      (Run.keyOf_secret he ht _)

/-- **A record that the server opens** was sent by the client of the run, under this
number. -/
theorem Run.server_opens_origin (hfresh : Set.InjOn Run.serverEphemeral runs) (hrun : run ∈ runs)
    (he : ¬ own run.ephemeral) (ht : ¬ own run.serverEphemeral) {frame pt : List (Term κ)}
    (hframe : ∀ y ∈ frame, Knows Crypto.symbolic own (Run.transcript data runs) y) {seq : UInt64}
    (hopen : run.session.openRecord Crypto.symbolic seq frame = some pt) :
    ∃ payload, (data run .client)[seq.toNat]? = some payload ∧ pt = lits payload := by
  obtain ⟨hsid, hkey, -⟩ := run.session_eq
  rw [ServerSession.openRecord, hsid, hkey] at hopen
  exact @Run.opened_origin _ _ _ _ _ data hfresh hrun he ht frame pt hframe .client seq hopen

/-- **A record that the client opens**, once it agrees with the server, was sent by the
server for its hello, under this number. -/
theorem Run.client_opens_origin (hfresh : Set.InjOn Run.serverEphemeral runs)
    (he : ¬ own run.ephemeral) (ht : ∀ x ∈ runs, ¬ own x.serverEphemeral) {r : List (Term κ)}
    {st' : HandshakeState κ (Term κ)}
    (haccept : run.st.complete Crypto.symbolic r = (.ok (), st')) (hagrees : run.Agrees runs r) :
    ∃ x ∈ runs, x.st.wireHello = run.st.wireHello ∧
      ∀ {frame pt : List (Term κ)},
        (∀ y ∈ frame, Knows Crypto.symbolic own (Run.transcript data runs) y) → ∀ {seq : UInt64},
        st'.openRecord Crypto.symbolic seq frame = .ok pt →
          ∃ payload, (data x .server)[seq.toNat]? = some payload ∧ pt = lits payload := by
  obtain ⟨x, hx, hhello, hkeys⟩ := hagrees st' haccept
  obtain ⟨-, hrecvKey, hsendKey⟩ := x.session_eq
  rw [hrecvKey, hsendKey] at hkeys
  obtain ⟨-, -, -, rfl⟩ := acceptable_of_complete haccept
  -- the keys are those of `x`, and so are the session id and the client's secret
  obtain ⟨hsid, -⟩ := recv_inj (congrArg RecordKeys.recv (Option.some.inj hkeys))
  have hex : ¬ own x.ephemeral := by
    rw [(Run.hello_eq hsid.symm).2]
    exact he
  refine ⟨x, hx, hhello, fun {frame pt} hframe {seq} hopen => ?_⟩
  have hsid' : (run.st.keyed Crypto.symbolic r).sealedSessionId = x.st.sealedSessionId := hsid
  rw [HandshakeState.openRecord, hkeys, hsid'] at hopen
  dsimp only at hopen
  split at hopen
  · cases hopen
  · next opened hdecrypt =>
    obtain rfl := Except.ok.inj hopen
    exact @Run.opened_origin _ _ _ _ _ data hfresh hx hex (ht x hx) frame opened hframe .server seq
      hdecrypt

/-- The honest answer leads to agreement. -/
theorem Run.agrees_response (hrun : run ∈ runs) : run.Agrees runs run.response := by
  intro st' haccept
  obtain ⟨-, hrecv, hsend⟩ := run.session_eq
  refine ⟨run, hrun, rfl, ?_⟩
  rw [(Run.keys_of_accept haccept).1, hrecv, hsend]

end Symbolic

end ShadeVpn.Handshake
