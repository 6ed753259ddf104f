import ShadeVpn.Reality.Server

/-!
# A client and an honest server

The run of one handshake with lawful primitives, step by step:

* `initiate_ok` — a client with proper parameters gets a hello out;
* `openHello_initiate` — the server reads the client's fields off the wire hello
  and unseals what the client sealed;
* `complete_answer` — the client accepts the server's answer, with the server's
  keys the other way round;
* `honest_handshake` — all of it, and the records of both directions.
-/

namespace ShadeVpn.Handshake

open Octets Checked Tls Reality

variable {κ σ : Type}

/-! ## The hello -/

theorem length_patchSessionId {record : List σ} {sid : List σ}
    (h : SESSION_ID_OFFSET + sid.length ≤ record.length) :
    (patchSessionId record sid).length = record.length := by
  simp only [patchSessionId, List.length_append, List.length_take, List.length_drop]
  omega

variable [Alphabet σ]

/-- What the server unseals from a client's hello. -/
def sealedFields (unixTime : UInt32) (shortId : Bytes) : SessionIdPlain σ where
  clientVersion := CLIENT_VERSION.map Alphabet.byte
  unixTime := unixTime
  shortId := copyFrom 8 (lits (padShortId shortId))

/-- The state a client starts from, for the hello and the session id sealed against it. -/
def startState (C : Crypto κ σ) (params : HandshakeParams σ) (ephemeral : κ) (hello : List σ)
    (sid : List.Vector σ 32) : HandshakeState κ σ where
  ephemeral := ephemeral
  ephemeralPublic := C.publicKey ephemeral
  authKey := authKey C (C.x25519 ephemeral params.serverPublicKey)
    (helloRandom C (C.x25519 ephemeral params.serverPublicKey))
  wireHello := patchSessionId hello sid.toList
  sealedSessionId := sid
  recordKeys := none
  completed := false

/-- Zeroing the patched session id again gives the hello that was sealed. -/
theorem patchSessionId_back {sni : Option String} {pub random : List.Vector σ 32}
    {sid sid' hello : List σ} (hlen : sid'.length = sid.length)
    (h : buildClientHello sni pub random sid = .ok hello) :
    patchSessionId (patchSessionId hello sid') sid = hello := by
  have hpatch := buildClientHello_patch hlen h
  have hback := buildClientHello_patch hlen.symm hpatch
  rw [h] at hback
  exact (Except.ok.inj hback).symm

variable [DecidableEq σ] {C : Crypto κ σ}

/-- What a successful `initiate` went through. -/
theorem initiate_eq_ok {params : HandshakeParams σ} {ephemeral : κ} {unixTime : UInt32}
    {st : HandshakeState κ σ} (h : initiate C params ephemeral unixTime = .ok st) :
    let shared := C.x25519 ephemeral params.serverPublicKey
    let random := helloRandom C shared
    shared ≠ Crypto.zeros 32 ∧ ∃ hello sid,
      buildClientHello (some params.sni) (C.publicKey ephemeral) random
        (Crypto.zeros 32 : List.Vector σ 32).toList = .ok hello ∧
      sealSessionId C (authKey C shared random) random hello CLIENT_VERSION unixTime params.shortId
        = .ok sid ∧
      st = startState C params ephemeral hello sid := by
  dsimp only
  rw [initiate] at h
  dsimp only at h
  split_ifs at h with hshort hkey hshared
  refine ⟨hshared, ?_⟩
  split at h
  · next e _ => cases e <;> cases h
  · next hello hbuild =>
    split at h
    · next e _ => cases e <;> cases h
    · next sid hseal =>
      cases h
      exact ⟨hello, sid, hbuild, hseal, rfl⟩

/-- A new state is neither completed nor keyed. -/
theorem initiate_fresh {params : HandshakeParams σ} {ephemeral : κ} {unixTime : UInt32}
    {st : HandshakeState κ σ} (h : initiate C params ephemeral unixTime = .ok st) :
    st.ephemeral = ephemeral ∧ st.completed = false ∧ st.recordKeys = none := by
  obtain ⟨-, _, _, -, -, hst⟩ := initiate_eq_ok h
  rw [hst]
  exact ⟨rfl, rfl, rfl⟩

/-- What a successful `serve` went through. -/
theorem serve_eq_ok {serverSecret : κ} {expectedShortId : List.Vector σ 8}
    {signing ephemeral : κ} {helloFrame response : List σ} {session : ServerSession σ}
    (h : serve C serverSecret expectedShortId signing ephemeral helloFrame
      = .ok (response, session)) :
    ∃ hello, openHello C serverSecret helloFrame = .ok hello ∧
      answer C hello signing ephemeral = .ok (response, session) := by
  rw [serve] at h
  split at h
  · cases h
  · next hello hopen =>
    split_ifs at h
    exact ⟨hello, hopen, h⟩

omit [DecidableEq σ] in
/-- What a successful answer is. -/
theorem answer_eq_ok {hello : OpenedHello σ} {signing ephemeral : κ}
    {response : List σ} {session : ServerSession σ}
    (h : answer C hello signing ephemeral = .ok (response, session)) :
    let keys := recordKeys C hello.sessionId (C.x25519 ephemeral hello.ephemeralPublic)
    session.sendKey = keys.recv ∧ session.recvKey = keys.send ∧
      ∃ confirm, C.aesEncrypt keys.recv
        (deriveNonce C hello.sessionId 0 .server NONCE_PURPOSE_RESPONSE) []
        (lits SERVER_CONFIRMATION) = some confirm ∧
      response = temporaryCertificate C signing hello.authKey ++ (C.publicKey ephemeral).toList
        ++ confirm := by
  rw [answer] at h
  dsimp only at h ⊢
  split at h
  · cases h
  · next confirm hconfirm =>
    cases h
    exact ⟨rfl, rfl, confirm, hconfirm, rfl⟩

omit [DecidableEq σ] in
/-- An open hello was a parsable one. -/
theorem length_lt_of_openHello {serverSecret : κ} {helloFrame : List σ}
    {hello : OpenedHello σ} (h : openHello C serverSecret helloFrame = .ok hello) :
    helloFrame.length < 5 + 65536 := by
  rw [openHello] at h
  split at h
  · cases h
  · next parsed hparsed => exact length_lt_of_parseClientHello hparsed

section Lawful

variable (hC : C.Lawful)
include hC

/-- **The hello goes out** when the parameters are proper, the secret is not zero
and the builder returns a hello AES-GCM takes as associated data. -/
theorem initiate_ok {params : HandshakeParams σ} {ephemeral : κ} (unixTime : UInt32)
    {hello : List σ} (hpos : 1 ≤ params.shortId.length) (hshort : params.shortId.length ≤ 8)
    (hshared : C.x25519 ephemeral params.serverPublicKey ≠ Crypto.zeros 32)
    (hbuild : buildClientHello (some params.sni) (C.publicKey ephemeral)
      (helloRandom C (C.x25519 ephemeral params.serverPublicKey))
      (Crypto.zeros 32 : List.Vector σ 32).toList = .ok hello)
    (hmax : hello.length ≤ Crypto.AES_MAX) :
    ∃ st, initiate C params ephemeral unixTime = .ok st ∧ st.wireHello.length = hello.length := by
  have hkey : params.serverPublicKey ≠ Crypto.zeros 32 := by
    intro hzero
    rw [hzero, hC.dh_zero] at hshared
    exact hshared rfl
  have hslot := (buildClientHello_slot hbuild).2
  rw [List.Vector.toList_length] at hslot
  obtain ⟨sid, hseal⟩ : ∃ sid, sealSessionId C
      (authKey C (C.x25519 ephemeral params.serverPublicKey)
        (helloRandom C (C.x25519 ephemeral params.serverPublicKey)))
      (helloRandom C (C.x25519 ephemeral params.serverPublicKey)) hello CLIENT_VERSION unixTime
      params.shortId = .ok sid := sealSessionId_ok hC hshort hslot hmax
  have hempty : params.shortId ≠ [] := by
    rintro hnil
    rw [hnil] at hpos
    simp at hpos
  refine ⟨startState C params ephemeral hello sid, ?_, ?_⟩
  · rw [initiate, if_neg (by rw [SID_SHORT_ID_LEN]; exact not_or.2 ⟨hempty, by omega⟩),
      if_neg hkey]
    dsimp only
    rw [if_neg hshared, hbuild]
    dsimp only
    rw [hseal]
    rfl
  · exact length_patchSessionId (by rw [List.Vector.toList_length]; exact hslot)

/-- **The server reads the hello.** -/
theorem openHello_initiate {params : HandshakeParams σ} {serverSecret ephemeral : κ}
    {unixTime : UInt32} {st : HandshakeState κ σ}
    (hkey : params.serverPublicKey = C.publicKey serverSecret)
    (h : initiate C params ephemeral unixTime = .ok st)
    (hlen : st.wireHello.length < 5 + 65536) :
    openHello C serverSecret st.wireHello
      = .ok { sni := params.sni, ephemeralPublic := C.publicKey ephemeral, authKey := st.authKey,
              sessionId := st.sealedSessionId,
              plain := sealedFields unixTime params.shortId } := by
  obtain ⟨-, hello, sid, hbuild, hseal, rfl⟩ := initiate_eq_ok h
  have hbuildWire : buildClientHello (some params.sni) (C.publicKey ephemeral)
      (helloRandom C (C.x25519 ephemeral params.serverPublicKey)) sid.toList
      = .ok (startState C params ephemeral hello sid).wireHello :=
    buildClientHello_patch (by simp) hbuild
  have hback : patchSessionId (startState C params ephemeral hello sid).wireHello
      (Crypto.zeros 32 : List.Vector σ 32).toList = hello :=
    patchSessionId_back (by simp) hbuild
  have hslot := (buildClientHello_slot hbuildWire).2
  rw [List.Vector.toList_length] at hslot
  have hshared : C.x25519 serverSecret (C.publicKey ephemeral)
      = C.x25519 ephemeral params.serverPublicKey := by rw [hkey, hC.dh_comm]
  rw [openHello, parse_build hbuildWire hlen]
  dsimp only
  rw [if_neg (by omega), if_neg (by simp), copyFrom_toList, hback, hshared,
    unsealSessionId_sealSessionId hC hseal]
  rfl

/-! ## The answer -/

/-- **The client accepts the answer**, and its keys are the server's the other way round. -/
theorem complete_answer {st : HandshakeState κ σ} {hello : OpenedHello σ} {signing ephemeral : κ}
    (hfresh : st.completed = false) (hkeys : st.recordKeys = none)
    (hpub : hello.ephemeralPublic = C.publicKey st.ephemeral) (hauth : hello.authKey = st.authKey)
    (hsid : hello.sessionId = st.sealedSessionId)
    (hecdhe : C.x25519 st.ephemeral (C.publicKey ephemeral) ≠ Crypto.zeros 32) :
    ∃ response session st', answer C hello signing ephemeral = .ok (response, session) ∧
      st.complete C response = (.ok (), st') ∧
      st'.recordKeys = some ⟨session.recvKey, session.sendKey⟩ ∧
      st'.sealedSessionId = session.sessionId := by
  have hsecret : C.x25519 ephemeral hello.ephemeralPublic
      = C.x25519 st.ephemeral (C.publicKey ephemeral) := by rw [hpub, hC.dh_comm]
  obtain ⟨confirm, hconfirm⟩ := hC.encrypt_ok
    (recordKeys C st.sealedSessionId (C.x25519 st.ephemeral (C.publicKey ephemeral))).recv
    (deriveNonce C st.sealedSessionId 0 .server NONCE_PURPOSE_RESPONSE) []
    (lits SERVER_CONFIRMATION) (by simp) (by rw [length_lits]; decide)
  have hlen := hC.encrypt_length hconfirm
  have hcert : (temporaryCertificate C signing st.authKey).length = CERT_LEN :=
    length_temporaryCertificate C signing st.authKey
  have hresponse : answer C hello signing ephemeral
      = .ok (temporaryCertificate C signing st.authKey ++ (C.publicKey ephemeral).toList
          ++ confirm,
        { sni := hello.sni, sessionId := st.sealedSessionId,
          recvKey := (recordKeys C st.sealedSessionId
            (C.x25519 st.ephemeral (C.publicKey ephemeral))).send,
          sendKey := (recordKeys C st.sealedSessionId
            (C.x25519 st.ephemeral (C.publicKey ephemeral))).recv }) := by
    rw [answer, hsecret, hsid, hconfirm, hauth]
  have hshare : responseSecret C st.ephemeral (temporaryCertificate C signing st.authKey
      ++ (C.publicKey ephemeral).toList ++ confirm)
      = C.x25519 st.ephemeral (C.publicKey ephemeral) := by
    rw [responseSecret, List.append_assoc, List.drop_left' hcert, copyFrom_toList_append]
  have hacc : Acceptable C st (temporaryCertificate C signing st.authKey
      ++ (C.publicKey ephemeral).toList ++ confirm) := by
    refine ⟨?_, ?_, by rwa [hshare], ?_⟩
    · simp only [List.length_append, hcert, List.Vector.toList_length, hlen, SERVER_RESPONSE_MIN,
        SERVER_SHARE_LEN, TAG_LEN, Crypto.AES_TAG]
      omega
    · rw [List.append_assoc, List.take_left' hcert]
      exact verifyTemporaryCertificate_temporaryCertificate C signing st.authKey
    · rw [hshare, List.drop_left' (by simp [hcert, CERT_LEN, SERVER_SHARE_LEN]),
        hC.decrypt_encrypt hconfirm]
      rfl
  refine ⟨_, _, _, hresponse, complete_of_acceptable hfresh hkeys hacc, ?_, rfl⟩
  rw [HandshakeState.keyed, hshare]

/-- The client accepts what the server serves for its hello. -/
theorem complete_serve {params : HandshakeParams σ}
    {serverSecret ephemeral signing serverEphemeral : κ}
    {unixTime : UInt32} {st : HandshakeState κ σ} {expectedShortId : List.Vector σ 8}
    {response : List σ} {session : ServerSession σ}
    (hkey : params.serverPublicKey = C.publicKey serverSecret)
    (hinit : initiate C params ephemeral unixTime = .ok st)
    (hserve : serve C serverSecret expectedShortId signing serverEphemeral st.wireHello
      = .ok (response, session))
    (hecdhe : C.x25519 ephemeral (C.publicKey serverEphemeral) ≠ Crypto.zeros 32) :
    ∃ st', st.complete C response = (.ok (), st') ∧
      st'.recordKeys = some ⟨session.recvKey, session.sendKey⟩ := by
  obtain ⟨hello, hopen, hanswer⟩ := serve_eq_ok hserve
  have hread := openHello_initiate hC hkey hinit (length_lt_of_openHello hopen)
  obtain ⟨hephemeral, hfresh, hnone⟩ := initiate_fresh hinit
  rw [hopen, Except.ok.injEq] at hread
  have hpub : hello.ephemeralPublic = C.publicKey st.ephemeral := by rw [hread, hephemeral]
  have hauth : hello.authKey = st.authKey := by rw [hread]
  have hsid : hello.sessionId = st.sealedSessionId := by rw [hread]
  rw [← hephemeral] at hecdhe
  obtain ⟨response', session', st', hanswer', hcomplete, hkeys, -⟩ :=
    complete_answer hC hfresh hnone hpub hauth hsid hecdhe
  rw [hanswer, Except.ok.injEq, Prod.mk.injEq] at hanswer'
  obtain ⟨rfl, rfl⟩ := hanswer'
  exact ⟨st', hcomplete, hkeys⟩

/-! ## The whole run -/

/-- **A handshake goes through**, for any secrets whose two shared secrets are not
zero: the server reads the client's fields, and the client accepts its answer. -/
theorem handshake_ok (serverSecret ephemeral signing serverEphemeral : κ) (sni : String)
    {shortId : Bytes} (unixTime : UInt32) {hello : List σ}
    (hpos : 1 ≤ shortId.length) (hshort : shortId.length ≤ 8)
    (hshared : C.x25519 ephemeral (C.publicKey serverSecret) ≠ Crypto.zeros 32)
    (hecdhe : C.x25519 ephemeral (C.publicKey serverEphemeral) ≠ Crypto.zeros 32)
    (hbuild : buildClientHello (some sni) (C.publicKey ephemeral)
      (helloRandom C (C.x25519 ephemeral (C.publicKey serverSecret)))
      (Crypto.zeros 32 : List.Vector σ 32).toList = .ok hello)
    (hlen : hello.length < 5 + 65536) :
    ∃ st opened response session st',
      initiate C ⟨sni, C.publicKey serverSecret, shortId⟩ ephemeral unixTime = .ok st ∧
      openHello C serverSecret st.wireHello = .ok opened ∧
      opened.plain = sealedFields unixTime shortId ∧
      serve C serverSecret (copyFrom 8 (lits (padShortId shortId))) signing serverEphemeral
        st.wireHello = .ok (response, session) ∧
      st.complete C response = (.ok (), st') ∧
      st'.recordKeys = some ⟨session.recvKey, session.sendKey⟩ ∧
      st'.sealedSessionId = session.sessionId := by
  have hmax : hello.length ≤ Crypto.AES_MAX := by
    rw [Crypto.AES_MAX]
    omega
  obtain ⟨st, hinit, hwire⟩ : ∃ st, initiate C ⟨sni, C.publicKey serverSecret, shortId⟩ ephemeral
      unixTime = .ok st ∧ st.wireHello.length = hello.length :=
    initiate_ok hC unixTime hpos hshort hshared hbuild hmax
  have hopen := openHello_initiate hC rfl hinit (by omega)
  obtain ⟨-, _, _, -, -, hst⟩ := initiate_eq_ok hinit
  obtain ⟨response, session, st', hanswer, hcomplete, hkeys, hsid⟩ :
      ∃ response session st', answer C ⟨sni, C.publicKey ephemeral, st.authKey, st.sealedSessionId,
          sealedFields unixTime shortId⟩ signing serverEphemeral = .ok (response, session) ∧
        st.complete C response = (.ok (), st') ∧
        st'.recordKeys = some ⟨session.recvKey, session.sendKey⟩ ∧
        st'.sealedSessionId = session.sessionId :=
    complete_answer hC (by rw [hst]; rfl) (by rw [hst]; rfl) (by rw [hst]; rfl) rfl rfl
      (by rw [hst]; exact hecdhe)
  refine ⟨st, _, response, session, st', hinit, hopen, rfl, ?_, hcomplete, hkeys, hsid⟩
  rw [serve, hopen]
  dsimp only
  rw [if_neg (by simp [sealedFields]), if_neg (by simp [sealedFields])]
  exact hanswer

/-- **The honest handshake.**  For any secrets whose two shared secrets are not
zero, any short id of 1 to 8 bytes, any time and any host name for which the
builder returns a hello whose handshake message is below 2^16: the server
recovers version, time and padded short id from the wire hello; the client
accepts the server's response; the client's send key is the server's receive
key and the other way round; each side opens what the other seals, and seals
whatever AES-GCM takes. -/
theorem honest_handshake (serverSecret ephemeral signing serverEphemeral : κ) (sni : String)
    {shortId : Bytes} (unixTime : UInt32) {hello : List σ}
    (hpos : 1 ≤ shortId.length) (hshort : shortId.length ≤ 8)
    (hshared : C.x25519 ephemeral (C.publicKey serverSecret) ≠ Crypto.zeros 32)
    (hecdhe : C.x25519 ephemeral (C.publicKey serverEphemeral) ≠ Crypto.zeros 32)
    (hbuild : buildClientHello (some sni) (C.publicKey ephemeral)
      (helloRandom C (C.x25519 ephemeral (C.publicKey serverSecret)))
      (Crypto.zeros 32 : List.Vector σ 32).toList = .ok hello)
    (hlen : hello.length < 5 + 65536) :
    ∃ st opened response session st',
      initiate C ⟨sni, C.publicKey serverSecret, shortId⟩ ephemeral unixTime = .ok st ∧
      openHello C serverSecret st.wireHello = .ok opened ∧
      opened.plain = sealedFields unixTime shortId ∧
      serve C serverSecret (copyFrom 8 (lits (padShortId shortId))) signing serverEphemeral
        st.wireHello = .ok (response, session) ∧
      st.complete C response = (.ok (), st') ∧
      st'.recordKeys = some ⟨session.recvKey, session.sendKey⟩ ∧
      (∀ seq pt ct, st'.sealRecord C seq pt = .ok ct → session.openRecord C seq ct = some pt) ∧
      (∀ seq pt ct, session.sealRecord C seq pt = some ct → st'.openRecord C seq ct = .ok pt) ∧
      ∀ seq pt, pt.length ≤ Crypto.AES_MAX →
        (∃ ct, st'.sealRecord C seq pt = .ok ct) ∧ ∃ ct, session.sealRecord C seq pt = some ct := by
  obtain ⟨st, opened, response, session, st', hinit, hopen, hplain, hserve, hcomplete, hkeys,
    hsid⟩ :=
    handshake_ok hC serverSecret ephemeral signing serverEphemeral sni unixTime hpos hshort hshared
      hecdhe hbuild hlen
  refine ⟨st, opened, response, session, st', hinit, hopen, hplain, hserve, hcomplete, hkeys, ?_, ?_,
    ?_⟩
  · intro seq pt ct hseal
    rw [HandshakeState.sealRecord, hkeys, hsid] at hseal
    dsimp only at hseal
    split at hseal
    · cases hseal
    · next ct' hct =>
      cases hseal
      exact hC.decrypt_encrypt hct
  · intro seq pt ct hseal
    rw [HandshakeState.openRecord, hkeys, hsid]
    dsimp only
    rw [hC.decrypt_encrypt hseal]
  · intro seq pt hpt
    refine ⟨?_, hC.encrypt_ok _ _ _ _ (by simp) hpt⟩
    obtain ⟨ct, hct⟩ := hC.encrypt_ok session.recvKey
      (deriveNonce C session.sessionId seq .client NONCE_PURPOSE_DATA) [] pt (by simp) hpt
    refine ⟨ct, ?_⟩
    rw [HandshakeState.sealRecord, hkeys, hsid]
    dsimp only
    rw [hct]

end Lawful

theorem honest_handshake_toy : ∃ st opened response session st',
    initiate Crypto.toy ⟨"example.com", Crypto.toy.publicKey 3, [1, 2]⟩ 5 1700000000 = .ok st ∧
    openHello Crypto.toy 3 st.wireHello = .ok opened ∧
    opened.plain = sealedFields 1700000000 [1, 2] ∧
    serve Crypto.toy 3 (copyFrom 8 (lits (padShortId [1, 2]))) 7 9 st.wireHello
      = .ok (response, session) ∧
    st.complete Crypto.toy response = (.ok (), st') ∧
    st'.recordKeys = some ⟨session.recvKey, session.sendKey⟩ ∧
    (∀ seq pt ct, st'.sealRecord Crypto.toy seq pt = .ok ct →
      session.openRecord Crypto.toy seq ct = some pt) ∧
    (∀ seq pt ct, session.sealRecord Crypto.toy seq pt = some ct →
      st'.openRecord Crypto.toy seq ct = .ok pt) ∧
    ∀ seq pt, pt.length ≤ Crypto.AES_MAX →
      (∃ ct, st'.sealRecord Crypto.toy seq pt = .ok ct) ∧
        ∃ ct, session.sealRecord Crypto.toy seq pt = some ct := by
  obtain ⟨hello, hbuild, hlen⟩ : ∃ hello, buildClientHello (some "example.com")
      (Crypto.toy.publicKey 5)
      (helloRandom Crypto.toy (Crypto.toy.x25519 5 (Crypto.toy.publicKey 3)))
      (Crypto.zeros 32 : List.Vector UInt8 32).toList = .ok hello ∧ hello.length < 5 + 65536 :=
    buildClientHello_ok _ _ (by decide) (by decide) (by decide)
  exact honest_handshake Crypto.toy_lawful 3 5 7 9 "example.com" 1700000000 (by decide) (by decide)
    (by decide) (by decide) hbuild hlen

end ShadeVpn.Handshake
