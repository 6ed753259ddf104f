import ShadeVpn.Lib.Crypto
import ShadeVpn.Tls.RoundTrip
import ShadeVpn.Tls13.CertificateEncoding
import ShadeVpn.Tls13.RecordLayer
import ShadeVpn.Tls13.ServerHello

/-!
# An honest TLS 1.3 server

The other end of the handshake in the words of RFC 8446, as the interoperability test of
`native/src/tls13.rs` meets it: it reads the ClientHello, answers with a ServerHello,
follows the key schedule, authenticates itself with a certificate, a signature and a
Finished, and divides these as it likes into protected records.

* `readServerHello_serverHello` — the client reads the suite and the key share of the
  server, whatever other extensions stand round it;
* `readMessages_flight` — message by message the client checks what the server made;
* `verifyCertificateVerify_signature` — and it verifies the signature of the server.
-/

namespace ShadeVpn.Tls13

open Octets Checked Reader Fallible
open Tls (Extension pushExtension)

variable {κ : Type} (C : Crypto κ UInt8) (k : Crates)

/-! ## The server -/

/-- The signature schemes of RSA keys. -/
inductive SignatureScheme where
  | rsaPss (h : SignatureHash)
  | rsaPkcs1 (h : SignatureHash)

namespace SignatureScheme

def code : SignatureScheme → ℕ
  | rsaPss .sha256 => 0x0804
  | rsaPss .sha384 => 0x0805
  | rsaPss .sha512 => 0x0806
  | rsaPkcs1 .sha256 => 0x0401
  | rsaPkcs1 .sha384 => 0x0501
  | rsaPkcs1 .sha512 => 0x0601

def verify : SignatureScheme → RsaPublicKey → Bytes → Bytes → Bool
  | rsaPss h => k.verifyPss h
  | rsaPkcs1 h => k.verifyPkcs1 h

end SignatureScheme

/-- What a server brings to a connection: its ephemeral secret, what it negotiates, and
its certificate with the key to sign.  `before` and `after` are the extensions of its
ServerHello round the key share. -/
structure HonestServer (κ : Type) where
  secret : κ
  suite : CipherSuite
  random : List.Vector UInt8 32
  before : List (Extension UInt8)
  after : List (Extension UInt8)
  encryptedExtensions : Bytes
  certificate : CertificateMessage
  scheme : SignatureScheme
  sign : Bytes → Bytes

/-- What the server takes from a ClientHello: the handshake message, the session id to
echo and the x25519 share. -/
structure Heard where
  message : Bytes
  sessionId : Bytes
  share : List.Vector UInt8 32

/-- A ClientHello that offers TLS 1.3 is heard. -/
def hear (record : Bytes) : Option Heard :=
  match Tls.parseClientHello record with
  | .ok hello =>
    if hello.tls13Negotiable then
      some ⟨record.drop 5, hello.sessionId, hello.ephemeralPublic⟩
    else none
  | .error _ => none

namespace HonestServer

variable (s : HonestServer κ) (heard : Heard)

/-- The key_share extension of the ServerHello: one entry. -/
def keyShare : Extension UInt8 :=
  (EXT_KEY_SHARE, pushExtension (GROUP_X25519, (C.publicKey s.secret).toList))

def extensions : List (Extension UInt8) := s.before ++ s.keyShare C :: s.after

/-- The length of the extension block. -/
def block : ℕ := ((s.extensions C).flatMap pushExtension).length

def serverHello : ServerHello where
  declared := copyFrom 3 (toBE 3 (40 + heard.sessionId.length + s.block C))
  legacyVersion := .replicate 2 3
  random := s.random
  sessionId := heard.sessionId
  suite := s.suite
  compression := .replicate 1 0
  extTotal := s.block C
  extensions := s.extensions C
  rest := []

/-- The record of the ServerHello. -/
def helloRecord : Bytes :=
  let message := (s.serverHello C heard).encode
  CONTENT_HANDSHAKE :: 3 :: 3 :: (toBE 2 message.length ++ message)

/-- The handshake messages through these. -/
def messages (ms : List Message) : Bytes :=
  heard.message ++ (s.serverHello C heard).encode ++ encodeAll ms

/-! The key schedule. -/

def sharedSecret : Bytes := (C.x25519 s.secret heard.share).toList

def zeros : Bytes := List.replicate s.suite.hash.len 0

def earlySecret : Bytes := Rfc8446.extract k s.suite.hash s.zeros s.zeros

def handshakeSecret : Bytes :=
  Rfc8446.extract k s.suite.hash
    (Rfc8446.deriveSecret k s.suite.hash (s.earlySecret k) "derived" []) (s.sharedSecret C heard)

def masterSecret : Bytes :=
  Rfc8446.extract k s.suite.hash
    (Rfc8446.deriveSecret k s.suite.hash (s.handshakeSecret C k heard) "derived" []) s.zeros

/-- A traffic secret of the handshake, by its label. -/
def handshakeTraffic (label : String) : Bytes :=
  Rfc8446.deriveSecret k s.suite.hash (s.handshakeSecret C k heard) label (s.messages C heard [])

def clientHandshake : Bytes := s.handshakeTraffic C k heard "c hs traffic"

def serverHandshake : Bytes := s.handshakeTraffic C k heard "s hs traffic"

/-! The flight. -/

/-- EncryptedExtensions and Certificate: what the signature covers. -/
def signed : List Message :=
  [⟨HS_ENCRYPTED_EXTENSIONS, s.encryptedExtensions⟩, ⟨HS_CERTIFICATE, s.certificate.encode⟩]

def signature : Bytes :=
  s.sign (Rfc8446.signatureContent k s.suite.hash (s.messages C heard s.signed))

def certificateVerify : Message :=
  ⟨HS_CERTIFICATE_VERIFY, toBE 2 s.scheme.code ++ toBE 2 (s.signature C k heard).length
    ++ s.signature C k heard⟩

/-- The Finished of a traffic secret behind these messages. -/
def finished (secret : Bytes) (ms : List Message) : Message :=
  ⟨HS_FINISHED, Rfc8446.verifyData k s.suite.hash secret (s.messages C heard ms)⟩

/-- What the Finished of the server covers. -/
def authenticated : List Message := s.signed ++ [s.certificateVerify C k heard]

def flight : List Message :=
  s.authenticated C k heard
    ++ [s.finished C k heard (s.serverHandshake C k heard) (s.authenticated C k heard)]

/-- A traffic secret of the application, by its label. -/
def applicationTraffic (label : String) : Bytes :=
  Rfc8446.deriveSecret k s.suite.hash (s.masterSecret C k heard) label
    (s.messages C heard (s.flight C k heard))

def clientApplication : Bytes := s.applicationTraffic C k heard "c ap traffic"

def serverApplication : Bytes := s.applicationTraffic C k heard "s ap traffic"

/-- The server takes a record for the Finished of its client. -/
def Takes (record : Bytes) : Prop :=
  Peer.unprotect k (trafficKeys k s.suite (s.clientHandshake C k heard)) 0 record =
    some (CONTENT_HANDSHAKE,
      (s.finished C k heard (s.clientHandshake C k heard) (s.flight C k heard)).encode)

/-- The server does as a server must: there is one key share and its messages fit their
lengths, and its signatures verify under the RSA key of its leaf. -/
structure Honest : Prop where
  extensions : ∀ e ∈ s.before ++ s.after, e.Fits ∧ e.1 ≠ EXT_KEY_SHARE
  block : s.block C + 76 ≤ 2 ^ 14
  encryptedExtensions : s.encryptedExtensions.length < 256 ^ 3
  certificate : s.certificate.encode.length < 256 ^ 3
  signature : ∀ msg, (s.sign msg).length < 256 ^ 2
  key : ∃ (leaf : Certificate) (key : RsaSpki),
    s.certificate.chain.head? = some leaf.encode ∧
    leaf.tbs.subjectPublicKeyInfo = key.contents ∧ k.rsaAccepts ⟨key.modulus, key.exponent⟩ ∧
    ∀ msg, s.scheme.verify k ⟨key.modulus, key.exponent⟩ msg (s.sign msg)

end HonestServer

/-! ## The client reads the ServerHello -/

namespace ServerHello

/-- Extensions that fill their block are read to their end. -/
theorem stopsAt_flatMap (es : List (Extension UInt8)) (read : ℕ) :
    StopsAt (read + (es.flatMap pushExtension).length) read es := by
  induction es generalizing read with
  | nil => exact le_refl read
  | cons e es ih =>
    have hlen : (pushExtension e).length = 4 + e.2.length := by simp [pushExtension]; omega
    rw [List.flatMap_cons, List.length_append, hlen]
    refine ⟨by omega, ?_⟩
    rw [← Nat.add_assoc]
    exact ih _

/-- Other extensions leave the share. -/
theorem foldlM_readShare {es : List (Extension UInt8)} (hes : ∀ e ∈ es, e.1 ≠ EXT_KEY_SHARE)
    (share : Option (List.Vector UInt8 32)) : es.foldlM readShare share = .ok share := by
  induction es with
  | nil => rfl
  | cons e es ih =>
    rw [List.forall_mem_cons] at hes
    rw [List.foldlM_cons, readShare, if_neg hes.1]
    exact ih hes.2

end ServerHello

variable {C} {k} {s : HonestServer κ} {heard : Heard} {t : Target}

namespace HonestServer

theorem keyShare_fits : (s.keyShare C).Fits := by
  simp [keyShare, Extension.Fits, pushExtension, EXT_KEY_SHARE]

theorem mem_extensions {e : Extension UInt8} (he : e ∈ s.extensions C) :
    e = s.keyShare C ∨ e ∈ s.before ++ s.after := by
  rw [extensions, List.mem_append, List.mem_cons] at he
  rw [List.mem_append]
  tauto

theorem reads_serverHello (hs : s.Honest C k) (hsid : heard.sessionId.length ≤ 32) :
    (s.serverHello C heard).Reads where
  sessionId := by
    show heard.sessionId.length < 256 ^ 1
    omega
  extTotal := by
    have := hs.block
    show s.block C < 256 ^ 2
    omega
  extensions e he := by
    rcases mem_extensions he with rfl | he
    · exact keyShare_fits
    · exact (hs.extensions e he).1
  stops := by
    have hstops := ServerHello.stopsAt_flatMap (s.extensions C) 0
    rwa [Nat.zero_add] at hstops
  shares e he htype := by
    rcases mem_extensions he with rfl | he
    · refine ⟨(GROUP_X25519, (C.publicKey s.secret).toList), [], ?_, (List.append_nil _).symm⟩
      simp [Extension.Fits, GROUP_X25519]
    · exact absurd htype (hs.extensions e he).2

theorem readShare_keyShare (share : Option (List.Vector UInt8 32)) :
    ServerHello.readShare share (s.keyShare C) = .ok (some (C.publicKey s.secret)) := by
  have hpub : (C.publicKey s.secret).toList.length = 32 := List.Vector.toList_length _
  have hgroup (r : Bytes) : u16 (toBE 2 GROUP_X25519 ++ r) = .ok (GROUP_X25519, r) :=
    Cursor.number_toBE_append (by decide) r
  have hklen (r : Bytes) : u16 (Tls.lengthPrefixed 2 (C.publicKey s.secret).toList ++ r) =
      .ok (32, (C.publicKey s.secret).toList ++ r) := by
    have hnumber := @ServerHello.number_lengthPrefixed 2 (C.publicKey s.secret).toList
      (by rw [hpub]; decide) r
    rwa [hpub] at hnumber
  have hkey (r : Bytes) : take 32 ((C.publicKey s.secret).toList ++ r) = .ok (_, r) :=
    Cursor.take_append hpub r
  have hinto : tryInto 32 (C.publicKey s.secret).toList = some (C.publicKey s.secret) := by
    rw [tryInto, dif_pos hpub]
    rfl
  have hdata := ServerHello.pushExtension_append (GROUP_X25519, (C.publicKey s.secret).toList) []
  rw [List.append_nil] at hdata
  rw [ServerHello.readShare, keyShare, if_pos rfl, readShareEntry, hdata]
  simp only [hgroup, hklen, hkey, hinto, unwrap, bind, Except.bind, and_self, if_true]

/-- **The client reads the suite and the key share of the server.** -/
theorem readServerHello_serverHello (hs : s.Honest C k) (hsid : heard.sessionId.length ≤ 32) :
    readServerHello (s.serverHello C heard).encode =
      .ok (s.suite, some (C.publicKey s.secret)) := by
  have hother : ∀ e ∈ s.before, e.1 ≠ EXT_KEY_SHARE := fun e he =>
    (hs.extensions e (List.mem_append_left _ he)).2
  have hother' : ∀ e ∈ s.after, e.1 ≠ EXT_KEY_SHARE := fun e he =>
    (hs.extensions e (List.mem_append_right _ he)).2
  have hfold : (s.extensions C).foldlM ServerHello.readShare none =
      .ok (some (C.publicKey s.secret)) := by
    rw [extensions, List.foldlM_append, ServerHello.foldlM_readShare hother]
    refine Cursor.bind_eq_ok.2 ⟨none, rfl, ?_⟩
    rw [List.foldlM_cons, readShare_keyShare]
    exact ServerHello.foldlM_readShare hother' _
  rw [ServerHello.readServerHello_eq (reads_serverHello hs hsid)]
  show ((s.extensions C).foldlM ServerHello.readShare none).map (s.suite, ·) = _
  rw [hfold]
  rfl

end HonestServer

/-- The body of an unprotected record. -/
theorem recordBody_record {body : Bytes} (hbody : body.length < 256 ^ 2) (type : UInt8)
    (bad : Tls13Error) :
    recordBody type bad (type :: 3 :: 3 :: (toBE 2 body.length ++ body)) = .ok body := by
  obtain ⟨a, b, hab⟩ := List.length_eq_two.1 (length_toBE 2 body.length)
  have hlen : ofBE [a, b] = body.length := by rw [← hab, ofBE_toBE_of_lt hbody]
  rw [hab, recordBody, if_neg (by simp), index_eq_ok (by simp), index_eq_ok (by simp)]
  simp only [List.cons_append, List.nil_append, List.getElem_cons_succ, List.getElem_cons_zero,
    bind, Except.bind, hlen]
  rw [if_neg (by simp; omega), slice_add_eq_ok (by simp; omega)]
  simp

variable {c : Tls13Client}

/-- A ServerHello that is read with its share. -/
theorem exec_processServerHello_of_read {wire helloHs : Bytes} {h : ServerHello}
    {share : List.Vector UInt8 32} (hgreets : Greets c wire h helloHs)
    (hread : readServerHello h.encode = .ok (h.suite, some share)) :
    exec (processServerHello k wire) c =
      (.ok share, c.greeted k h.suite helloHs h.encode) := by
  obtain ⟨hello, hsent, hlong, rfl⟩ := hgreets.sent
  have hhead : h.encode.head? = some HS_SERVER_HELLO := rfl
  simp only [processServerHello, exec_bind, exec_lift, hgreets.record, hhead, ne_eq,
    not_true_eq_false, if_false, hread, exec_get, orFail, okOr, hsent, if_pos hlong, exec_modify,
    Tls13Client.greeted]

namespace HonestServer

theorem length_encode_serverHello (hs : s.Honest C k) (hsid : heard.sessionId.length ≤ 32) :
    (s.serverHello C heard).encode.length < 256 ^ 2 := by
  have hblock := hs.block
  have hlen : (s.serverHello C heard).encode.length =
      44 + heard.sessionId.length + s.block C := by
    simp [ServerHello.encode, ServerHello.body, serverHello, Tls.lengthPrefixed, block]
    omega
  omega

/-- **The ServerHello greets the client** that has sent its hello. -/
theorem greets_helloRecord (hs : s.Honest C k) (hsid : heard.sessionId.length ≤ 32) {hello : Bytes}
    (hsent : c.clientHello = some hello) (hlong : 5 ≤ hello.length) :
    Greets c (s.helloRecord C heard) (s.serverHello C heard) (hello.drop 5) where
  reads := reads_serverHello hs hsid
  record := recordBody_record (length_encode_serverHello hs hsid) _ _
  sent := ⟨hello, hsent, hlong, rfl⟩

end HonestServer

/-! ## The client reads the flight -/

/-- Messages taken up in order leave what the fold over them leaves, and the transcript
has taken them in. -/
theorem exec_takeMessages {h : HashAlg} {tr : Transcript} {seen seen' : Seen} {ms : List Message}
    (hms : ∀ m ∈ ms, m.body.length < 256 ^ 3) (htr : c.transcript = some tr)
    (hread : readMessages k h c.shts tr seen ms = .ok seen') :
    exec (takeMessages k h seen ms) c =
      (.ok seen', { c with transcript := some (tr.update (encodeAll ms)) }) := by
  induction ms generalizing c tr seen with
  | nil =>
    cases hread
    rw [encodeAll_nil, Transcript.update_nil, ← htr]
    rfl
  | cons m ms ih =>
    rw [List.forall_mem_cons] at hms
    rw [readMessages, Cursor.bind_eq_ok] at hread
    obtain ⟨seen₁, hm, hread⟩ := hread
    have hfront : frontMessage m.encode = some m := by
      simpa using frontMessage_encode hms.1 []
    have htake := (takeMessage_eq_ok (k := k) hfront).2 ⟨tr, htr, rfl, rfl⟩
    have hrest := ih (c := { c with transcript := some (tr.update m.encode) }) hms.2 rfl hread
    rw [Transcript.update_update] at hrest
    simp only [takeMessages, exec_bind, htake, exec_get, exec_lift, hm, hrest, encodeAll_cons]

theorem SignatureScheme.code_lt (scheme : SignatureScheme) : scheme.code < 256 ^ 2 := by
  rcases scheme with h | h <;> cases h <;> decide

/-- A CertificateVerify is read as it was made. -/
theorem readCertificateVerify_encode (scheme : SignatureScheme) {sig : Bytes}
    (hsig : sig.length < 256 ^ 2) (th : Bytes) :
    readCertificateVerify (toBE 2 scheme.code ++ toBE 2 sig.length ++ sig) th =
      .ok (scheme.code, sig, toBeSigned th) := by
  have hlen : (toBE 2 scheme.code ++ toBE 2 sig.length ++ sig).length = 4 + sig.length := by
    simp
    omega
  have hscheme : (slice (toBE 2 scheme.code ++ toBE 2 sig.length ++ sig) 0 2 :
      Except (Stop Tls13Error) Bytes) = .ok (toBE 2 scheme.code) := by
    rw [slice_eq_ok (by omega) (by omega), List.drop_zero, List.append_assoc]
    exact congrArg _ (List.take_left' (by simp))
  have hcount : (slice (toBE 2 scheme.code ++ toBE 2 sig.length ++ sig) 2 4 :
      Except (Stop Tls13Error) Bytes) = .ok (toBE 2 sig.length) := by
    rw [slice_eq_ok (by omega) (by omega), List.take_left' (by simp)]
    exact congrArg _ (List.drop_left' (by simp))
  have hbody : (slice (toBE 2 scheme.code ++ toBE 2 sig.length ++ sig) 4 (4 + sig.length) :
      Except (Stop Tls13Error) Bytes) = .ok sig := by
    rw [slice_eq_ok (by omega) (by omega), ← hlen, List.take_length]
    exact congrArg _ (List.drop_left' (by simp))
  rw [readCertificateVerify, if_neg (by omega)]
  simp only [hscheme, hcount, bind, Except.bind, ofBE_toBE_of_lt hsig,
    ofBE_toBE_of_lt scheme.code_lt]
  rw [if_neg (by omega)]
  simp only [hbody]

namespace HonestServer

variable (C k s heard)

/-- The transcript through the ServerHello. -/
def transcript : Transcript :=
  ⟨s.suite.hash, heard.message ++ (s.serverHello C heard).encode⟩

/-- The hash of the transcript behind these messages. -/
def transcriptHash (ms : List Message) : Bytes :=
  Rfc8446.transcriptHash k s.suite.hash (s.messages C heard ms)

theorem hashOf_update (ms : List Message) :
    ((s.transcript C heard).update (encodeAll ms)).hashOf k = s.transcriptHash C k heard ms := rfl

/-- The secrets and the Finished of the server are made as the client makes them. -/
theorem handshakeSecret_eq : s.handshakeSecret C k heard =
    hkdfExtract k s.suite.hash
      (deriveSecret k s.suite.hash (s.earlySecret k) "derived" (emptyHash k s.suite.hash))
      (s.sharedSecret C heard) := by
  rw [handshakeSecret, Rfc8446.deriveSecret_eq]
  rfl

theorem masterSecret_eq : s.masterSecret C k heard =
    hkdfExtract k s.suite.hash
      (deriveSecret k s.suite.hash (s.handshakeSecret C k heard) "derived"
        (emptyHash k s.suite.hash)) s.zeros := by
  rw [masterSecret, Rfc8446.deriveSecret_eq]
  rfl

theorem handshakeTraffic_eq (label : String) : s.handshakeTraffic C k heard label =
    deriveSecret k s.suite.hash (s.handshakeSecret C k heard) label
      (s.transcriptHash C k heard []) :=
  Rfc8446.deriveSecret_eq ..

theorem applicationTraffic_eq (label : String) : s.applicationTraffic C k heard label =
    deriveSecret k s.suite.hash (s.masterSecret C k heard) label
      (s.transcriptHash C k heard (s.flight C k heard)) :=
  Rfc8446.deriveSecret_eq ..

theorem finished_eq (secret : Bytes) (ms : List Message) : s.finished C k heard secret ms =
    ⟨HS_FINISHED, hmacHash k s.suite.hash (finishedKey k s.suite.hash secret)
      (s.transcriptHash C k heard ms)⟩ :=
  congrArg (Message.mk HS_FINISHED) (Rfc8446.verifyData_eq ..)

/-- What the flight leaves the client with. -/
def seen : Seen :=
  ⟨s.certificate.chain, some (s.scheme.code, s.signature C k heard,
    toBeSigned (s.transcriptHash C k heard s.signed)), true⟩

variable {C k s heard}

/-- **Message by message the client checks what the server made.** -/
theorem readMessages_flight (hs : s.Honest C k) :
    readMessages k s.suite.hash (some (s.serverHandshake C k heard)) (s.transcript C heard)
      ⟨[], none, false⟩ (s.flight C k heard) = .ok (s.seen C k heard) := by
  have hverify := readCertificateVerify_encode s.scheme
    (hs.signature (toBeSigned (s.transcriptHash C k heard s.signed)))
    (s.transcriptHash C k heard s.signed)
  have hsigned : readMessages k s.suite.hash (some (s.serverHandshake C k heard))
      (s.transcript C heard) ⟨[], none, false⟩ s.signed =
        .ok ⟨s.certificate.chain, none, false⟩ := by
    simp only [signed, readMessages, handleMessage, s.certificate.parse_encode, if_true, bind,
      Except.bind, if_neg (show HS_CERTIFICATE ≠ HS_ENCRYPTED_EXTENSIONS by decide)]
  have hauthenticated : readMessages k s.suite.hash (some (s.serverHandshake C k heard))
      (s.transcript C heard) ⟨[], none, false⟩ (s.authenticated C k heard) =
        .ok { s.seen C k heard with gotFinished := false } := by
    refine readMessages_append_eq_ok.2 ⟨_, hsigned, ?_⟩
    rw [readMessages, hashOf_update, handleMessage, certificateVerify,
      if_neg (show HS_CERTIFICATE_VERIFY ≠ HS_ENCRYPTED_EXTENSIONS by decide),
      if_neg (show HS_CERTIFICATE_VERIFY ≠ HS_CERTIFICATE by decide), if_pos rfl]
    refine Cursor.bind_eq_ok.2 ⟨_, Cursor.bind_eq_ok.2 ⟨_, hverify, rfl⟩, rfl⟩
  refine readMessages_append_eq_ok.2 ⟨_, hauthenticated, ?_⟩
  rw [readMessages, hashOf_update, handleMessage, finished_eq,
    if_neg (show HS_FINISHED ≠ HS_ENCRYPTED_EXTENSIONS by decide),
    if_neg (show HS_FINISHED ≠ HS_CERTIFICATE by decide),
    if_neg (show HS_FINISHED ≠ HS_CERTIFICATE_VERIFY by decide), if_pos rfl]
  refine Cursor.bind_eq_ok.2 ⟨_, Cursor.bind_eq_ok.2 ⟨_, rfl, ?_⟩, rfl⟩
  exact if_neg (not_not.2 rfl)

/-- The signature of an honest server verifies under its leaf. -/
theorem verifyCertificateVerify_signature (hs : s.Honest C k) :
    ∃ leaf, s.certificate.chain.head? = some leaf ∧
      ∀ msg, verifyCertificateVerify k .aarch64 s.scheme.code leaf (s.sign msg) msg = .ok () := by
  obtain ⟨leaf, key, hleaf, hkey, haccepts, hverifies⟩ := hs.key
  refine ⟨_, hleaf, fun msg => ?_⟩
  have hparsed := Certificate.parseLeafKey_encode hkey
  have hscheme : (okOr .badScheme
      (if s.scheme.code = 0x0804 then some (k.verifyPss .sha256 ⟨key.modulus, key.exponent⟩ msg
        (s.sign msg))
      else if s.scheme.code = 0x0805 then
        some (k.verifyPss .sha384 ⟨key.modulus, key.exponent⟩ msg (s.sign msg))
      else if s.scheme.code = 0x0806 then
        some (k.verifyPss .sha512 ⟨key.modulus, key.exponent⟩ msg (s.sign msg))
      else if s.scheme.code = 0x0401 then
        some (k.verifyPkcs1 .sha256 ⟨key.modulus, key.exponent⟩ msg (s.sign msg))
      else if s.scheme.code = 0x0501 then
        some (k.verifyPkcs1 .sha384 ⟨key.modulus, key.exponent⟩ msg (s.sign msg))
      else if s.scheme.code = 0x0601 then
        some (k.verifyPkcs1 .sha512 ⟨key.modulus, key.exponent⟩ msg (s.sign msg))
      else none) : Except (Stop Tls13Error) Bool) = .ok true := by
    have hmsg := hverifies msg
    rcases hcode : s.scheme with h | h <;> rw [hcode] at hmsg <;> cases h <;>
      simp only [SignatureScheme.verify] at hmsg <;> simp [SignatureScheme.code, okOr, hmsg]
  rw [verifyCertificateVerify, hparsed]
  refine Cursor.bind_eq_ok.2 ⟨_, rfl, ?_⟩
  dsimp only
  rw [if_neg (by simpa using haccepts)]
  exact Cursor.bind_eq_ok.2 ⟨_, hscheme, rfl⟩

end HonestServer

end ShadeVpn.Tls13
