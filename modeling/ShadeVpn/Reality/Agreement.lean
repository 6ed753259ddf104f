import ShadeVpn.Lib.Attacker
import ShadeVpn.Reality.HonestRun

/-!
# Key agreement against an active attacker

Handshakes that an honest server answered, the messages they put on the wire,
and the responses an attacker can make of them.

The certificate of a response is a tag under the AuthKey over a key that appears
nowhere else: it says nothing of the key share behind it.  An attacker that puts
a share of its own behind an honest certificate knows the record keys the client
derives, and can seal the confirmation (`Spliced`).

* `agrees_iff_not_spliced` — with symbolic primitives, an accepted response leads
  to keys of a session the server derived for this hello exactly if it is not
  spliced.
* `not_agrees_spliced` — an attacker with no secret of its own at all.
-/

namespace ShadeVpn.Handshake

open Octets Checked Tls Reality Symbolic

variable {κ σ : Type} [Alphabet σ] [DecidableEq σ]

/-! ## Answered hellos -/

/-- A hello of `initiate` and the honest server's answer to it. -/
structure Run (C : Crypto κ σ) (serverSecret : κ) where
  sni : String
  shortId : Bytes
  ephemeral : κ
  unixTime : UInt32
  st : HandshakeState κ σ
  expectedShortId : List.Vector σ 8
  signing : κ
  serverEphemeral : κ
  response : List σ
  session : ServerSession σ
  initiated : initiate C ⟨sni, C.publicKey serverSecret, shortId⟩ ephemeral unixTime = .ok st
  answered : serve C serverSecret expectedShortId signing serverEphemeral st.wireHello
    = .ok (response, session)

namespace Run

variable {C : Crypto κ σ} {serverSecret : κ}

/-- The messages a run puts on the wire: the hello, the answer, and data records
of both sides once the client has accepted the answer. -/
inductive Sends (run : Run C serverSecret) : List σ → Prop
  | hello : Sends run run.st.wireHello
  | response : Sends run run.response
  | clientRecord {st' : HandshakeState κ σ} {seq : UInt64} {data : Bytes} {frame : List σ}
      (haccept : run.st.complete C run.response = (.ok (), st'))
      (hseal : st'.sealRecord C seq (lits data) = .ok frame) : Sends run frame
  | serverRecord {seq : UInt64} {data : Bytes} {frame : List σ}
      (hseal : run.session.sealRecord C seq (lits data) = some frame) : Sends run frame

/-- The symbols an attacker sees: the server's public key and the messages of the runs. -/
def wire (runs : Set (Run C serverSecret)) : Set σ :=
  {x | x ∈ (C.publicKey serverSecret).toList ∨ ∃ run ∈ runs, ∃ msg, run.Sends msg ∧ x ∈ msg}

/-- If the client accepts `r`, its keys are those of a session that the server
derived for this hello. -/
def Agrees (runs : Set (Run C serverSecret)) (run : Run C serverSecret) (r : List σ) : Prop :=
  ∀ st', run.st.complete C r = (.ok (), st') →
    ∃ x ∈ runs, x.st.wireHello = run.st.wireHello ∧
      st'.recordKeys = some ⟨x.session.recvKey, x.session.sendKey⟩

/-- A response with the certificate of an honest answer, a share made from own
secrets, and anything sealed under the keys that share leads to. -/
def Spliced (own : κ → Prop) (runs : Set (Run C serverSecret)) (run : Run C serverSecret)
    (r : List σ) : Prop :=
  ∃ x ∈ runs, x.st.authKey = run.st.authKey ∧ ∃ secrets : List κ, (∀ a ∈ secrets, own a) ∧
    ∃ msg confirm, C.aesEncrypt
      (recordKeys C run.st.sealedSessionId (secrets.foldr C.x25519 run.st.ephemeralPublic)).recv
      (deriveNonce C run.st.sealedSessionId 0 .server NONCE_PURPOSE_RESPONSE) [] msg = some confirm ∧
      r = x.response.take CERT_LEN ++ (secrets.foldr C.x25519 C.basepoint).toList ++ confirm

end Run

namespace Run

variable {C : Crypto κ σ} {serverSecret : κ} (run : Run C serverSecret)

/-- The ECDHE secret of the server. -/
def ecdhe : List.Vector σ 32 := C.x25519 run.serverEphemeral (C.publicKey run.ephemeral)

/-- The record keys of the server, as the client names them. -/
def keys : RecordKeys σ := recordKeys C run.st.sealedSessionId run.ecdhe

/-- The shared secret of the hello. -/
def shared : List.Vector σ 32 := C.x25519 run.ephemeral (C.publicKey serverSecret)

/-- What the server's answer is, in terms of the client's state. -/
theorem response_eq (hC : C.Lawful) :
    run.session.sendKey = run.keys.recv ∧ run.session.recvKey = run.keys.send ∧
      ∃ confirm, C.aesEncrypt run.keys.recv
        (deriveNonce C run.st.sealedSessionId 0 .server NONCE_PURPOSE_RESPONSE) []
        (lits SERVER_CONFIRMATION) = some confirm ∧
      run.response = temporaryCertificate C run.signing run.st.authKey
        ++ (C.publicKey run.serverEphemeral).toList ++ confirm := by
  obtain ⟨hello, hopen, hanswer⟩ := serve_eq_ok run.answered
  have hread := openHello_initiate hC rfl run.initiated (length_lt_of_openHello hopen)
  rw [hopen] at hread
  cases hread
  exact answer_eq_ok hanswer

theorem take_response (hC : C.Lawful) :
    run.response.take CERT_LEN = temporaryCertificate C run.signing run.st.authKey := by
  obtain ⟨-, -, confirm, -, h⟩ := run.response_eq hC
  rw [h, List.append_assoc]
  exact List.take_left' (length_temporaryCertificate ..)

/-- The client's side of a run before any response. -/
theorem state_eq : ∃ hello, buildClientHello (some run.sni) (C.publicKey run.ephemeral)
      (helloRandom C run.shared) (Crypto.zeros 32 : List.Vector σ 32).toList = .ok hello ∧
    sealSessionId C (authKey C run.shared (helloRandom C run.shared)) (helloRandom C run.shared)
      hello CLIENT_VERSION run.unixTime run.shortId = .ok run.st.sealedSessionId ∧
    run.st = startState C ⟨run.sni, C.publicKey serverSecret, run.shortId⟩ run.ephemeral hello
      run.st.sealedSessionId := by
  obtain ⟨-, hello, sid, hbuild, hseal, hst⟩ := initiate_eq_ok run.initiated
  have hsid : run.st.sealedSessionId = sid := by rw [hst]; rfl
  exact ⟨hello, hbuild, by rw [hsid]; exact hseal, by rw [hsid]; exact hst⟩

theorem authKey_eq : run.st.authKey = authKey C run.shared (helloRandom C run.shared) := by
  obtain ⟨hello, -, -, hst⟩ := run.state_eq
  exact congrArg HandshakeState.authKey hst

theorem ephemeral_eq : run.st.ephemeral = run.ephemeral := by
  obtain ⟨hello, -, -, hst⟩ := run.state_eq
  exact congrArg HandshakeState.ephemeral hst

theorem ephemeralPublic_eq : run.st.ephemeralPublic = C.publicKey run.ephemeral := by
  obtain ⟨hello, -, -, hst⟩ := run.state_eq
  exact congrArg HandshakeState.ephemeralPublic hst

theorem fresh : run.st.completed = false ∧ run.st.recordKeys = none := by
  obtain ⟨hello, -, -, hst⟩ := run.state_eq
  exact ⟨congrArg HandshakeState.completed hst, congrArg HandshakeState.recordKeys hst⟩

/-- The hello on the wire is the built hello with the sealed session id. -/
theorem wireHello_eq : ∃ hello, buildClientHello (some run.sni) (C.publicKey run.ephemeral)
      (helloRandom C run.shared) (Crypto.zeros 32 : List.Vector σ 32).toList = .ok hello ∧
    run.st.wireHello = patchSessionId hello run.st.sealedSessionId.toList ∧
    C.aesEncrypt run.st.authKey (sessionIdNonce (helloRandom C run.shared)) hello
      (lits (sessionIdPlaintext CLIENT_VERSION.toList run.unixTime run.shortId))
      = some run.st.sealedSessionId.toList := by
  obtain ⟨hello, hbuild, hseal, hst⟩ := run.state_eq
  refine ⟨hello, hbuild, congrArg HandshakeState.wireHello hst, ?_⟩
  rw [run.authKey_eq]
  exact sealSessionId_eq_ok hseal

end Run

/-! ## Terms on the wire -/

/-- The shapes of the symbols a run puts on the wire. -/
inductive Run.Emits {κ : Type} {serverSecret : κ}
    (run : Run (Crypto.symbolic (κ := κ)) serverSecret) : Term κ → Prop
  | byte (b : UInt8) : Emits run (.byte b)
  | publicKey (k : κ) (i : ℕ) : Emits run (.point [] {k} i)
  | random (i : ℕ) : Emits run (.hkdf (lits HKDF_SALT) run.shared.toList (lits HELLO_RANDOM_INFO) i)
  | sessionId (nonce aad : List (Term κ)) (msg : Bytes) (i : ℕ) :
      Emits run (.sealed run.st.authKey.toList nonce aad (lits msg) i)
  | tag (i : ℕ) :
      Emits run (.hmac run.st.authKey.toList (Crypto.symbolic.publicKey run.signing).toList i)
  | server (nonce aad : List (Term κ)) (msg : Bytes) (i : ℕ) :
      Emits run (.sealed run.keys.recv.toList nonce aad (lits msg) i)
  | client (secret : List.Vector (Term κ) 32) (nonce aad : List (Term κ)) (msg : Bytes) (i : ℕ) :
      Emits run (.sealed (recordKeys Crypto.symbolic run.st.sealedSessionId secret).send.toList
        nonce aad (lits msg) i)

section Symbolic

variable {κ : Type} {serverSecret : κ}

theorem Run.Emits.ofPublicKey {run : Run (Crypto.symbolic (κ := κ)) serverSecret} {k : κ}
    {x : Term κ} (h : x ∈ (Crypto.symbolic.publicKey k).toList) : run.Emits x := by
  rw [Crypto.symbolic_publicKey] at h
  obtain ⟨i, -, rfl⟩ := mem_word.1 h
  exact .publicKey k i

theorem Run.Emits.hkdf_inv {run : Run (Crypto.symbolic (κ := κ)) serverSecret}
    {salt ikm info : List (Term κ)} {i : ℕ} (h : run.Emits (.hkdf salt ikm info i)) :
    info = lits HELLO_RANDOM_INFO := by
  cases h
  rfl

theorem Run.Emits.hmac_inv {run : Run (Crypto.symbolic (κ := κ)) serverSecret}
    {key msg : List (Term κ)} {i : ℕ} (h : run.Emits (.hmac key msg i)) :
    key = run.st.authKey.toList ∧ msg = (Crypto.symbolic.publicKey run.signing).toList := by
  cases h
  exact ⟨rfl, rfl⟩

theorem Run.Emits.sealed_inv {run : Run (Crypto.symbolic (κ := κ)) serverSecret}
    {key nonce aad msg : List (Term κ)} {i : ℕ} (h : run.Emits (.sealed key nonce aad msg i)) :
    key = run.st.authKey.toList ∨ key = run.keys.recv.toList ∨
      ∃ secret, key
        = (recordKeys Crypto.symbolic run.st.sealedSessionId secret).send.toList := by
  cases h with
  | sessionId => exact .inl rfl
  | server => exact .inr (.inl rfl)
  | client secret => exact .inr (.inr ⟨secret, rfl⟩)

/-- **Everything a run sends** has one of these shapes. -/
theorem Run.Sends.emits {run : Run (Crypto.symbolic (κ := κ)) serverSecret} {msg : List (Term κ)}
    (h : run.Sends msg) {x : Term κ} (hx : x ∈ msg) : run.Emits x := by
  cases h with
  | hello =>
    obtain ⟨hello, hbuild, hwire, hseal⟩ := run.wireHello_eq
    rw [hwire] at hx
    obtain ⟨b, rfl⟩ | hpub | hrandom | hsid :=
      mem_buildClientHello (buildClientHello_patch (by simp) hbuild) hx
    · exact .byte b
    · exact .ofPublicKey hpub
    · obtain ⟨i, -, rfl⟩ := mem_word.1 hrandom
      exact .random i
    · rw [Crypto.symbolic_encrypt_eq hseal] at hsid
      obtain ⟨i, -, rfl⟩ := mem_word.1 hsid
      exact .sessionId _ _ _ i
  | response =>
    obtain ⟨-, -, confirm, hconfirm, hresponse⟩ := run.response_eq Crypto.symbolic_lawful
    rw [hresponse, temporaryCertificate, List.mem_append, List.mem_append, List.mem_append] at hx
    obtain ((hpub | htag) | hshare) | hconf := hx
    · exact .ofPublicKey hpub
    · obtain ⟨i, -, rfl⟩ := mem_word.1 htag
      exact .tag i
    · exact .ofPublicKey hshare
    · rw [Crypto.symbolic_encrypt_eq hconfirm] at hconf
      obtain ⟨i, -, rfl⟩ := mem_word.1 hconf
      exact .server _ _ _ i
  | clientRecord haccept hseal =>
    obtain ⟨-, -, -, rfl⟩ := acceptable_of_complete haccept
    rw [HandshakeState.sealRecord] at hseal
    simp only [HandshakeState.keyed] at hseal
    split at hseal
    · cases hseal
    · next ct hct =>
      cases hseal
      rw [Crypto.symbolic_encrypt_eq hct] at hx
      obtain ⟨i, -, rfl⟩ := mem_word.1 hx
      exact .client _ _ _ _ i
  | serverRecord hseal =>
    rw [ServerSession.sealRecord, (run.response_eq Crypto.symbolic_lawful).1] at hseal
    rw [Crypto.symbolic_encrypt_eq hseal] at hx
    obtain ⟨i, -, rfl⟩ := mem_word.1 hx
    exact .server _ _ _ i

/-- What the attacker sees is the server's public key or sent by a run. -/
theorem Run.mem_wire {runs : Set (Run (Crypto.symbolic (κ := κ)) serverSecret)} {x : Term κ}
    (h : x ∈ Run.wire runs) : (∃ i, x = .point [] {serverSecret} i) ∨ ∃ run ∈ runs, run.Emits x := by
  rcases h with hpub | ⟨run, hrun, msg, hsends, hx⟩
  · rw [Crypto.symbolic_publicKey] at hpub
    obtain ⟨i, -, rfl⟩ := mem_word.1 hpub
    exact .inl ⟨i, rfl⟩
  · exact .inr ⟨run, hrun, hsends.emits hx⟩

/-- The messages of honest runs guard their secrets. -/
theorem Run.guarded (own : κ → Prop) (runs : Set (Run (Crypto.symbolic (κ := κ)) serverSecret)) :
    Guarded own (Run.wire runs) where
  sealed h y hy := by
    rcases Run.mem_wire h with ⟨i, hpoint⟩ | ⟨run, -, hemits⟩
    · cases hpoint
    · obtain ⟨b, rfl⟩ : ∃ b, y = Alphabet.byte b := by
        cases hemits <;> exact exists_byte_of_mem_lits hy
      exact .byte b
  point h := by
    rcases Run.mem_wire h with ⟨i, hpoint⟩ | ⟨run, -, hemits⟩
    · cases hpoint
      exact ⟨rfl, serverSecret, rfl⟩
    · cases hemits
      exact ⟨rfl, _, rfl⟩

/-! ## Secrets on the wire -/

/-- The first symbol of a send key. -/
theorem send_get_zero (sid secret : List.Vector (Term κ) 32) :
    (recordKeys Crypto.symbolic sid secret).send.get 0
      = .hkdf (lits HKDF_SALT) (sessionIdentity Crypto.symbolic sid secret).toList (lits KEY_INFO)
        0 := by
  rw [recordKeys]
  simp only [copyFrom, List.Vector.get_ofFn]
  exact getD_word (by decide) _ _

/-- The first symbol of a receive key. -/
theorem recv_get_zero (sid secret : List.Vector (Term κ) 32) :
    (recordKeys Crypto.symbolic sid secret).recv.get 0
      = .hkdf (lits HKDF_SALT) (sessionIdentity Crypto.symbolic sid secret).toList (lits KEY_INFO)
        32 := by
  rw [recordKeys]
  simp only [copyFrom, List.Vector.get_ofFn]
  rw [List.getD_eq_getElem?_getD, List.getElem?_drop, ← List.getD_eq_getElem?_getD]
  exact getD_word (by decide) _ _

theorem recv_ne_send {sid sid' secret secret' : List.Vector (Term κ) 32} :
    (recordKeys Crypto.symbolic sid secret).recv
      ≠ (recordKeys Crypto.symbolic sid' secret').send := by
  intro h
  have := congrArg (fun v => v.get 0) h
  simp only [recv_get_zero, send_get_zero] at this
  injection this with _ _ _ hplace
  cases hplace

/-- Receive keys of one value are of one session id and one secret. -/
theorem recv_inj {sid sid' secret secret' : List.Vector (Term κ) 32}
    (h : (recordKeys Crypto.symbolic sid secret).recv
      = (recordKeys Crypto.symbolic sid' secret').recv) : sid = sid' ∧ secret = secret' := by
  have := congrArg (fun v => v.get 0) h
  simp only [recv_get_zero] at this
  injection this with _ hident
  have hword : (word 32 (.sha (sid.toList ++ secret.toList)) : List.Vector (Term κ) 32)
      = word 32 (.sha (sid'.toList ++ secret'.toList)) := List.Vector.toList_injective hident
  have hfirst := word_eq (by decide) hword
  injection hfirst with happ
  obtain ⟨hsid, hsecret⟩ := List.append_inj happ (by simp)
  exact ⟨List.Vector.toList_injective hsid, List.Vector.toList_injective hsecret⟩

/-- The first symbol of an AuthKey. -/
theorem authKey_get_zero (shared random : List.Vector (Term κ) 32) :
    (authKey Crypto.symbolic shared random).get 0
      = .hkdf (random.toList.take RANDOM_SALT_LEN) shared.toList (lits REALITY_INFO) 0 := by
  rw [authKey]
  simp only [Crypto.symbolic, word, List.Vector.get_ofFn]
  rfl

variable {own : κ → Prop} {runs : Set (Run (Crypto.symbolic (κ := κ)) serverSecret)}

/-- An info string that no random is derived with. -/
theorem Run.hkdf_not_mem_wire {salt ikm : List (Term κ)} {info : Bytes} {i : ℕ}
    (hinfo : info ≠ HELLO_RANDOM_INFO) : .hkdf salt ikm (lits info) i ∉ Run.wire runs := by
  intro h
  rcases Run.mem_wire h with ⟨i, hpoint⟩ | ⟨run, -, hemits⟩
  · cases hpoint
  · exact hinfo (lits_injective hemits.hkdf_inv)

/-- **The AuthKey of a foreign client is not public.** -/
theorem Run.authKey_secret {run : Run (Crypto.symbolic (κ := κ)) serverSecret}
    (he : ¬ own run.ephemeral) (hs : ¬ own serverSecret) :
    ¬ ∀ y ∈ run.st.authKey.toList, Public own (Run.wire runs) y := by
  intro hpublic
  have hfirst := hpublic _ ((List.Vector.mem_iff_get _ _).2 ⟨0, rfl⟩)
  rw [run.authKey_eq, authKey_get_zero] at hfirst
  rcases hfirst.hkdf_inv with hwire | hikm
  · exact Run.hkdf_not_mem_wire (by decide) hwire
  · rw [Run.shared, Crypto.symbolic_publicKey, Crypto.symbolic_x25519_point] at hikm
    have hpoint := hikm _ (first_mem_word (by decide) _)
    have hown := (hpoint.point_cons_inv (Run.guarded own runs) he).2
    exact hs (hown serverSecret (Multiset.mem_singleton_self serverSecret))

/-- A public receive key has a public secret behind it. -/
theorem Run.secret_public {sid secret : List.Vector (Term κ) 32}
    (h : ∀ y ∈ (recordKeys Crypto.symbolic sid secret).recv.toList, Public own (Run.wire runs) y) :
    ∀ y ∈ secret.toList, Public own (Run.wire runs) y := by
  have hfirst := h _ ((List.Vector.mem_iff_get _ _).2 ⟨0, rfl⟩)
  rw [recv_get_zero] at hfirst
  rcases hfirst.hkdf_inv with hwire | hident
  · exact absurd hwire (Run.hkdf_not_mem_wire (by decide))
  · have hsha : Public own (Run.wire runs) (.sha (sid.toList ++ secret.toList) 0) :=
      hident _ (first_mem_word (by decide) _)
    rcases hsha.sha_inv with hwire | hmsg
    · rcases Run.mem_wire hwire with ⟨i, hpoint⟩ | ⟨run, -, hemits⟩
      · cases hpoint
      · cases hemits
    · exact fun y hy => hmsg y (List.mem_append_right _ hy)

/-- A foreign client's secret with a share is public only for a share made from own secrets. -/
theorem exists_own_of_secret_public {wire : Set (Term κ)} (hwire : Guarded own wire) {e : κ}
    (he : ¬ own e) {share : List.Vector (Term κ) 32}
    (hne : Crypto.symbolic.x25519 e share ≠ Crypto.zeros 32)
    (h : ∀ y ∈ (Crypto.symbolic.x25519 e share).toList, Public own wire y) :
    ∃ secrets : List κ, (∀ a ∈ secrets, own a) ∧
      share = secrets.foldr Crypto.symbolic.x25519 Crypto.symbolic.basepoint := by
  have hshare : share ≠ Crypto.zeros 32 := by
    rintro rfl
    exact hne (Crypto.symbolic_lawful.dh_zero e)
  have hpoint : Crypto.symbolic.x25519 e share = point (asPoint share).1 (e ::ₘ (asPoint share).2) :=
    if_neg hshare
  rw [hpoint] at h
  obtain ⟨hbase, hown⟩ :=
    (h _ (first_mem_word (by decide) _)).point_cons_inv hwire he
  rcases asPoint_cases share with hform | hroot
  · refine ⟨(asPoint share).2.toList, by simpa using hown, ?_⟩
    calc share = point (asPoint share).1 (asPoint share).2 := hform
      _ = point [] (asPoint share).2.toList := by rw [hbase, Multiset.coe_toList]
      _ = (asPoint share).2.toList.foldr Crypto.symbolic.x25519 Crypto.symbolic.basepoint :=
        (Crypto.foldr_symbolic_basepoint _).symm
  · rw [hroot] at hbase
    have := share.toList_length
    rw [show share.toList = [] from hbase] at this
    cases this

/-! ## Accepted responses -/

/-- **The certificate is an honest one**: a public response with a certificate the
client accepts starts like the answer of a run with the client's AuthKey. -/
theorem Run.certificate_origin {run : Run (Crypto.symbolic (κ := κ)) serverSecret}
    (he : ¬ own run.ephemeral) (hs : ¬ own serverSecret) {r : List (Term κ)}
    (hr : ∀ y ∈ r, Public own (Run.wire runs) y)
    (hcert : verifyTemporaryCertificate Crypto.symbolic run.st.authKey (r.take CERT_LEN) = .ok ()) :
    ∃ x ∈ runs, x.st.authKey = run.st.authKey ∧ r.take CERT_LEN = x.response.take CERT_LEN := by
  obtain ⟨-, htag⟩ := (verifyTemporaryCertificate_ok_iff _).1 hcert
  have hmem : Term.hmac run.st.authKey.toList ((r.take CERT_LEN).take 32) 0
      ∈ (r.take CERT_LEN).drop 32 := by
    rw [htag]
    exact first_mem_word (by decide) _
  rcases (hr _ (List.mem_of_mem_take (List.mem_of_mem_drop hmem))).hmac_inv with hwire | hkey
  · rcases Run.mem_wire hwire with ⟨i, hpoint⟩ | ⟨x, hx, hemits⟩
    · cases hpoint
    · obtain ⟨hauth, hpub⟩ := hemits.hmac_inv
      have hauth' : run.st.authKey = x.st.authKey := List.Vector.toList_injective hauth
      refine ⟨x, hx, hauth'.symm, ?_⟩
      calc r.take CERT_LEN
          = (r.take CERT_LEN).take 32 ++ (r.take CERT_LEN).drop 32 :=
            (List.take_append_drop 32 _).symm
        _ = temporaryCertificate Crypto.symbolic x.signing x.st.authKey := by
            rw [htag, hpub, hauth', temporaryCertificate]
        _ = x.response.take CERT_LEN := (x.take_response Crypto.symbolic_lawful).symm
  · exact absurd hkey (Run.authKey_secret he hs)

/-- **The confirmation is an honest one, or the share is the attacker's.** -/
theorem Run.confirmation_origin {run : Run (Crypto.symbolic (κ := κ)) serverSecret}
    (he : ¬ own run.ephemeral) {r : List (Term κ)} (hr : ∀ y ∈ r, Public own (Run.wire runs) y)
    (hacc : Acceptable Crypto.symbolic run.st r) :
    (∃ x ∈ runs, x.st.sealedSessionId = run.st.sealedSessionId ∧
      x.ecdhe = responseSecret Crypto.symbolic run.st.ephemeral r) ∨
    ∃ secrets : List κ, (∀ a ∈ secrets, own a) ∧ (copyFrom 32 (r.drop CERT_LEN)
      = secrets.foldr Crypto.symbolic.x25519 Crypto.symbolic.basepoint) := by
  obtain ⟨msg, hmsg⟩ := Option.isSome_iff_exists.1 hacc.confirmation
  obtain ⟨rest, hrest⟩ := Crypto.symbolic_encrypt_cons (Crypto.symbolic_decrypt.1 hmsg)
  have hmem := List.mem_of_mem_drop (hrest ▸ List.mem_cons_self)
  rcases (hr _ hmem).sealed_inv with hwire | hkey
  · rcases Run.mem_wire hwire with ⟨i, hpoint⟩ | ⟨x, hx, hemits⟩
    · cases hpoint
    · rcases hemits.sealed_inv with hauth | hrecv | ⟨secret, hsend⟩
      · -- an AuthKey is derived with another info string
        have hget := congrArg (fun v => v.get 0) (List.Vector.toList_injective hauth)
        simp only [recv_get_zero, x.authKey_eq, authKey_get_zero] at hget
        injection hget with _ _ hinfo
        exact absurd (lits_injective hinfo) (by decide)
      · obtain ⟨hsid, hsecret⟩ := recv_inj (List.Vector.toList_injective hrecv)
        exact .inl ⟨x, hx, hsid.symm, hsecret.symm⟩
      · exact absurd (List.Vector.toList_injective hsend) recv_ne_send
  · exact .inr (exists_own_of_secret_public (Run.guarded own runs) (run.ephemeral_eq ▸ he)
      hacc.secret (Run.secret_public hkey))

/-- Runs with one session id have one client ephemeral and one hello. -/
theorem Run.hello_eq {run x : Run (Crypto.symbolic (κ := κ)) serverSecret}
    (hsid : x.st.sealedSessionId = run.st.sealedSessionId) :
    x.st.wireHello = run.st.wireHello ∧ x.ephemeral = run.ephemeral := by
  obtain ⟨hello, -, hwire, hseal⟩ := run.wireHello_eq
  obtain ⟨hello', -, hwire', hseal'⟩ := x.wireHello_eq
  rw [hsid] at hseal' hwire'
  obtain ⟨hauth, -, hhello, -⟩ := Crypto.symbolic_encrypt_inj hseal' hseal
  refine ⟨by rw [hwire, hwire', hhello], ?_⟩
  have hget := congrArg (fun v => v.get 0) hauth
  simp only [x.authKey_eq, run.authKey_eq, authKey_get_zero] at hget
  injection hget with _ hshared
  have hpoint := List.Vector.toList_injective hshared
  simp only [Run.shared, Crypto.symbolic_publicKey, Crypto.symbolic_x25519_point, point_inj] at hpoint
  exact (Multiset.cons_inj_left _).1 hpoint.2

/-- A spliced response is accepted, with the keys of the attacker's share. -/
theorem Run.Spliced.complete {run : Run (Crypto.symbolic (κ := κ)) serverSecret}
    {r : List (Term κ)} (h : run.Spliced own runs r) :
    ∃ secrets : List κ, (∀ a ∈ secrets, own a) ∧ ∃ st', run.st.complete Crypto.symbolic r
      = (.ok (), st') ∧ st'.recordKeys = some (recordKeys Crypto.symbolic run.st.sealedSessionId
        (point [] (run.ephemeral ::ₘ secrets))) := by
  obtain ⟨x, -, hauth, secrets, hown, msg, confirm, hconfirm, rfl⟩ := h
  have hcert : (x.response.take CERT_LEN).length = CERT_LEN := by
    rw [x.take_response Crypto.symbolic_lawful]
    exact length_temporaryCertificate ..
  have hsecret : responseSecret Crypto.symbolic run.st.ephemeral (x.response.take CERT_LEN
      ++ (secrets.foldr Crypto.symbolic.x25519 Crypto.symbolic.basepoint).toList ++ confirm)
      = point [] (run.ephemeral ::ₘ secrets) := by
    rw [responseSecret, List.append_assoc, List.drop_left' hcert, copyFrom_toList_append,
      Crypto.foldr_symbolic_basepoint, Crypto.symbolic_x25519_point, run.ephemeral_eq]
  rw [run.ephemeralPublic_eq, Crypto.foldr_symbolic_publicKey] at hconfirm
  refine ⟨secrets, hown, _, complete_of_acceptable run.fresh.1 run.fresh.2 ?_, ?_⟩
  · refine ⟨?_, ?_, ?_, ?_⟩
    · simp only [List.length_append, hcert, List.Vector.toList_length,
        Crypto.symbolic_lawful.encrypt_length hconfirm, SERVER_RESPONSE_MIN, SERVER_SHARE_LEN,
        TAG_LEN, Crypto.AES_TAG]
      omega
    · rw [List.append_assoc, List.take_left' hcert, x.take_response Crypto.symbolic_lawful, ← hauth]
      exact verifyTemporaryCertificate_temporaryCertificate ..
    · rw [hsecret]
      exact point_ne_zeros _ _
    · rw [hsecret, List.drop_left' (by simp [hcert, SERVER_SHARE_LEN]),
        Crypto.symbolic_lawful.decrypt_encrypt hconfirm]
      rfl
  · rw [HandshakeState.keyed, hsecret]

/-- The server has no such keys. -/
theorem Run.Spliced.not_agrees {run : Run (Crypto.symbolic (κ := κ)) serverSecret}
    (ht : ∀ x ∈ runs, ¬ own x.serverEphemeral) {r : List (Term κ)} (h : run.Spliced own runs r) :
    ¬ run.Agrees runs r := by
  intro hagrees
  obtain ⟨secrets, hown, st', hcomplete, hkeys⟩ := h.complete
  obtain ⟨x, hx, -, hsession⟩ := hagrees st' hcomplete
  rw [hkeys, Option.some.injEq] at hsession
  have hrecv := congrArg RecordKeys.recv hsession
  rw [(x.response_eq Crypto.symbolic_lawful).1] at hrecv
  obtain ⟨hsid, hsecret⟩ := recv_inj hrecv
  rw [Run.ecdhe, (Run.hello_eq hsid.symm).2, Crypto.symbolic_publicKey,
    Crypto.symbolic_x25519_point, point_inj] at hsecret
  have hswap := hsecret.2.trans (Multiset.cons_swap _ _ 0)
  rw [Multiset.cons_inj_right] at hswap
  exact ht x hx (hown _ (by rw [← Multiset.mem_coe, hswap]; simp))

/-- **Key agreement, and what breaks it.**  For any honest runs against one server
and any response an attacker without the server's secrets and without this
client's secret can build: the client agrees with the server on the keys of this
hello exactly if the response is not spliced. -/
theorem Run.agrees_iff_not_spliced {run : Run (Crypto.symbolic (κ := κ)) serverSecret}
    (hs : ¬ own serverSecret) (he : ¬ own run.ephemeral)
    (ht : ∀ x ∈ runs, ¬ own x.serverEphemeral) {r : List (Term κ)}
    (hr : ∀ y ∈ r, Knows Crypto.symbolic own (Run.wire runs) y) :
    run.Agrees runs r ↔ ¬ run.Spliced own runs r := by
  have hpublic : ∀ y ∈ r, Public own (Run.wire runs) y :=
    fun y hy => (hr y hy).isPublic (Run.guarded own runs)
  constructor
  · exact fun hagrees hspliced => hspliced.not_agrees ht hagrees
  · intro hspliced st' hcomplete
    obtain ⟨-, -, hacc, rfl⟩ := acceptable_of_complete hcomplete
    rcases Run.confirmation_origin he hpublic hacc with ⟨x, hx, hsid, hecdhe⟩ |
      ⟨secrets, hown, hshare⟩
    · refine ⟨x, hx, (Run.hello_eq hsid).1, ?_⟩
      obtain ⟨hsend, hrecv, -⟩ := x.response_eq Crypto.symbolic_lawful
      rw [HandshakeState.keyed, hsend, hrecv, Run.keys, hsid, hecdhe]
    · refine absurd ?_ hspliced
      obtain ⟨x, hx, hauth, hcert⟩ := Run.certificate_origin he hs hpublic hacc.certificate
      obtain ⟨msg, hmsg⟩ := Option.isSome_iff_exists.1 hacc.confirmation
      have hlen := hacc.length
      rw [SERVER_RESPONSE_MIN] at hlen
      have hsecret : responseSecret Crypto.symbolic run.st.ephemeral r
          = secrets.foldr Crypto.symbolic.x25519 run.st.ephemeralPublic := by
        rw [responseSecret, hshare, run.ephemeral_eq, run.ephemeralPublic_eq,
          Crypto.foldr_symbolic_basepoint, Crypto.foldr_symbolic_publicKey,
          Crypto.symbolic_x25519_point]
      refine ⟨x, hx, hauth, secrets, hown, msg, r.drop (CERT_LEN + SERVER_SHARE_LEN), ?_, ?_⟩
      · rw [← hsecret]
        exact Crypto.symbolic_decrypt.1 hmsg
      · rw [← hshare, ← hcert, toList_copyFrom (by
          rw [List.length_drop]
          simp only [SERVER_SHARE_LEN] at hlen
          omega), ← List.drop_drop, List.append_assoc]
        simp [SERVER_SHARE_LEN]

/-- There is a run for any secrets. -/
theorem Run.exists_run (serverSecret ephemeral signing serverEphemeral : κ) :
    ∃ run : Run (Crypto.symbolic (κ := κ)) serverSecret, run.ephemeral = ephemeral ∧
      run.signing = signing ∧ run.serverEphemeral = serverEphemeral := by
  have hsecret : ∀ k : κ, Crypto.symbolic.x25519 ephemeral (Crypto.symbolic.publicKey k)
      ≠ Crypto.zeros 32 := by
    intro k
    rw [Crypto.symbolic_publicKey, Crypto.symbolic_x25519_point]
    exact point_ne_zeros _ _
  obtain ⟨hello, hbuild, hlen⟩ : ∃ hello, buildClientHello (some "example.com")
      (Crypto.symbolic.publicKey ephemeral) (helloRandom Crypto.symbolic
        (Crypto.symbolic.x25519 ephemeral (Crypto.symbolic.publicKey serverSecret)))
      (Crypto.zeros 32 : List.Vector (Term κ) 32).toList = .ok hello ∧ hello.length < 5 + 65536 :=
    buildClientHello_ok _ _ (by decide) (by decide) (by simp)
  have hpos : 1 ≤ ([1, 2] : Bytes).length := by decide
  obtain ⟨st, -, response, session, -, hinit, -, -, hserve, -⟩ := handshake_ok
    Crypto.symbolic_lawful serverSecret ephemeral signing serverEphemeral "example.com" 1700000000
    hpos (by decide) (hsecret _) (hsecret _) hbuild hlen
  exact ⟨⟨"example.com", [1, 2], ephemeral, 1700000000, st, _, signing, serverEphemeral, response,
    session, hinit, hserve⟩, rfl, rfl, rfl⟩

theorem Run.agrees_iff_not_spliced_honest : ∃ run : Run (Crypto.symbolic (κ := ℕ)) 3,
    run.ephemeral = 5 ∧ run.serverEphemeral = 9 ∧
      (run.Agrees {run} run.response ↔ ¬ run.Spliced (· = 11) {run} run.response) := by
  obtain ⟨run, he, -, ht⟩ := Run.exists_run (κ := ℕ) 3 5 7 9
  refine ⟨run, he, ht, Run.agrees_iff_not_spliced (by decide) (by rw [he]; decide) ?_ ?_⟩
  · intro x hx
    rw [Set.mem_singleton_iff.1 hx, ht]
    decide
  · exact fun y hy => .wire (.inr ⟨run, rfl, _, .response, hy⟩)

/-! ## An attack -/

/-- The client's share and its session id are on the wire. -/
theorem Run.mem_wireHello (run : Run (Crypto.symbolic (κ := κ)) serverSecret) {x : Term κ}
    (h : x ∈ (Crypto.symbolic.publicKey run.ephemeral).toList ∨ x ∈ run.st.sealedSessionId.toList) :
    x ∈ run.st.wireHello := by
  obtain ⟨hello, hbuild, hwire, -⟩ := run.wireHello_eq
  rw [hwire]
  exact mem_of_buildClientHello (buildClientHello_patch (by simp) hbuild) h

/-- Keys from a known secret are known: the session id is on the wire. -/
theorem Run.knows_recv {run : Run (Crypto.symbolic (κ := κ)) serverSecret} (hrun : run ∈ runs)
    {secret : List.Vector (Term κ) 32}
    (h : ∀ y ∈ secret.toList, Knows Crypto.symbolic own (Run.wire runs) y) :
    ∀ y ∈ (recordKeys Crypto.symbolic run.st.sealedSessionId secret).recv.toList,
      Knows Crypto.symbolic own (Run.wire runs) y := by
  have hident : ∀ y ∈ (sessionIdentity Crypto.symbolic run.st.sealedSessionId secret).toList,
      Knows Crypto.symbolic own (Run.wire runs) y := by
    intro y hy
    refine .sha256 (fun z hz => ?_) hy
    rcases List.mem_append.1 hz with hsid | hsecret
    · exact .wire (.inr ⟨run, hrun, _, .hello, run.mem_wireHello (.inr hsid)⟩)
    · exact h z hsecret
  intro y hy
  rw [recordKeys, toList_copyFrom (by simp)] at hy
  have hmaterial := List.mem_of_mem_drop (List.mem_of_mem_take hy)
  exact .hkdf knows_lits hident knows_lits hmaterial

theorem Run.knows_nonce {run : Run (Crypto.symbolic (κ := κ)) serverSecret} (hrun : run ∈ runs)
    (seq : UInt64) (direction : Direction) (purpose : Bytes) :
    ∀ y ∈ (deriveNonce Crypto.symbolic run.st.sealedSessionId seq direction purpose).toList,
      Knows Crypto.symbolic own (Run.wire runs) y := by
  intro y hy
  simp only [deriveNonce] at hy
  rw [toList_copyFrom (by simp)] at hy
  refine .sha256 (fun z hz => ?_) (List.mem_of_mem_take hy)
  simp only [List.mem_append] at hz
  obtain ((hdomain | hpurpose) | hsid) | hseq := hz
  · exact knows_lits z hdomain
  · exact knows_lits z hpurpose
  · exact .wire (.inr ⟨run, hrun, _, .hello, run.mem_wireHello (.inr hsid)⟩)
  · exact knows_lits z hseq

/-- **An attacker without any secret breaks the agreement**: an honest
certificate, the base point as key share, and a seal under the keys that the
client's own public key leads to. -/
theorem Run.not_agrees_spliced : ∃ run : Run (Crypto.symbolic (κ := ℕ)) 3,
    run.ephemeral = 5 ∧ run.signing = 7 ∧ run.serverEphemeral = 9 ∧ ∃ confirm,
      Crypto.symbolic.aesEncrypt
        (recordKeys Crypto.symbolic run.st.sealedSessionId run.st.ephemeralPublic).recv
        (deriveNonce Crypto.symbolic run.st.sealedSessionId 0 .server NONCE_PURPOSE_RESPONSE) []
        (lits SERVER_CONFIRMATION) = some confirm ∧
      (∀ y ∈ run.response.take CERT_LEN ++ Crypto.symbolic.basepoint.toList ++ confirm,
        Knows Crypto.symbolic (fun _ => False) (Run.wire {run}) y) ∧
      ¬ run.Agrees {run}
        (run.response.take CERT_LEN ++ Crypto.symbolic.basepoint.toList ++ confirm) := by
  obtain ⟨run, he, hg, ht⟩ := Run.exists_run (κ := ℕ) 3 5 7 9
  obtain ⟨confirm, hconfirm⟩ := Crypto.symbolic_lawful.encrypt_ok
    (recordKeys Crypto.symbolic run.st.sealedSessionId run.st.ephemeralPublic).recv
    (deriveNonce Crypto.symbolic run.st.sealedSessionId 0 .server NONCE_PURPOSE_RESPONSE) []
    (lits SERVER_CONFIRMATION) (by simp) (by rw [length_lits]; decide)
  have hpub : ∀ y ∈ run.st.ephemeralPublic.toList,
      Knows Crypto.symbolic (fun _ => False) (Run.wire {run}) y := by
    intro y hy
    rw [run.ephemeralPublic_eq] at hy
    exact .wire (.inr ⟨run, rfl, _, .hello, run.mem_wireHello (.inl hy)⟩)
  have hmem : run ∈ ({run} : Set (Run Crypto.symbolic 3)) := Set.mem_singleton run
  have hspliced : run.Spliced (fun _ => False) {run}
      (run.response.take CERT_LEN ++ Crypto.symbolic.basepoint.toList ++ confirm) :=
    ⟨run, rfl, rfl, [], by simp, _, confirm, hconfirm, rfl⟩
  refine ⟨run, he, hg, ht, confirm, hconfirm, ?_, hspliced.not_agrees fun _ _ => not_false⟩
  intro y hy
  obtain (hcert | hshare) | hconf : (y ∈ run.response.take CERT_LEN ∨
      y ∈ Crypto.symbolic.basepoint.toList) ∨ y ∈ confirm := by
    simpa only [List.mem_append] using hy
  · exact .wire (.inr ⟨run, rfl, _, .response, List.mem_of_mem_take hcert⟩)
  · exact .basepoint hshare
  · exact .encrypt (Run.knows_recv hmem hpub) (Run.knows_nonce hmem _ _ _) (by simp) knows_lits
      hconfirm hconf

end Symbolic

end ShadeVpn.Handshake
