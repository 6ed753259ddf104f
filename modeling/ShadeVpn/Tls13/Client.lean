import ShadeVpn.Lib.Fallible
import ShadeVpn.Tls13.Schedule

/-!
# The TLS 1.3 client

`Tls13Client` of `native/src/tls13.rs`.  A method is a `Fallible` computation on the
client, so that an error keeps what the method had done to it.  The order of the
effects is that of the source: a sequence number moves on before the record is
opened, the transcript is set before the key share is missed.
-/

namespace ShadeVpn.Tls13

open Octets Checked Reader

/-! ## Constants -/

def CONTENT_HANDSHAKE : UInt8 := 0x16
def CONTENT_APPDATA : UInt8 := 0x17
def CONTENT_CHANGE_CIPHER_SPEC : UInt8 := 0x14
def HS_SERVER_HELLO : UInt8 := 0x02
def HS_ENCRYPTED_EXTENSIONS : UInt8 := 0x08
def HS_CERTIFICATE : UInt8 := 0x0b
def HS_CERTIFICATE_VERIFY : UInt8 := 0x0f
def HS_FINISHED : UInt8 := 0x14
def EXT_KEY_SHARE : ℕ := 0x0033
def GROUP_X25519 : ℕ := 0x001d

/-! ## State -/

/-- `Tls13Client`. -/
structure Tls13Client where
  suite : Option CipherSuite
  transcript : Option Transcript
  clientHello : Option Bytes
  earlySecret : Option Bytes
  handshakeSecret : Option Bytes
  masterSecret : Option Bytes
  chts : Option Bytes
  shts : Option Bytes
  cets : Option Bytes
  sets : Option Bytes
  hsRead : Option Protection
  hsWrite : Option Protection
  appRead : Option Protection
  appWrite : Option Protection
  deriving DecidableEq

/-- `Tls13Client::new`. -/
def Tls13Client.new : Tls13Client :=
  ⟨none, none, none, none, none, none, none, none, none, none, none, none, none, none⟩

/-- `Tls13Outcome`. -/
structure Tls13Outcome where
  suite : CipherSuite
  serverChain : List Bytes
  serverAppSecret : Bytes
  clientAppSecret : Bytes
  deriving DecidableEq

/-- A method of the client. -/
abbrev Method := Fallible Tls13Client (Stop Tls13Error)

section Method

variable {α : Type}

/-- Return an error. -/
def fail (e : Tls13Error) : Method α := throw (.err e)

/-- A pure step. -/
def lift (x : Except (Stop Tls13Error) α) : Method α := liftM x

/-- `ok_or(e)?`. -/
def orFail (e : Tls13Error) (o : Option α) : Method α := lift (okOr e o)

/-- `unwrap`. -/
def orPanic (o : Option α) : Method α := lift (unwrap o)

variable {c c' : Tls13Client} {a : α}

@[simp] theorem exec_fail (e : Tls13Error) :
    Fallible.exec (fail e : Method α) c = (.error (.err e), c) := rfl

@[simp] theorem exec_lift (x : Except (Stop Tls13Error) α) :
    Fallible.exec (lift x) c = (x, c) := rfl

@[simp] theorem exec_orFail {e : Tls13Error} {o : Option α} :
    Fallible.exec (orFail e o) c = (.ok a, c') ↔ o = some a ∧ c = c' := by
  simp [orFail]

@[simp] theorem exec_orPanic {o : Option α} :
    Fallible.exec (orPanic o) c = (.ok a, c') ↔ o = some a ∧ c = c' := by
  simp [orPanic]

end Method

variable (k : Crates)

/-! ## ServerHello -/

/-- The body of a record behind its header, if the content type is the wanted one. -/
def recordBody (contentType : UInt8) (bad : Tls13Error) (wire : Bytes) :
    Except (Stop Tls13Error) Bytes :=
  if wire.length < 5 ∨ wire.head? ≠ some contentType then .error (.err bad)
  else do
    let hi ← index wire 3
    let lo ← index wire 4
    let recLen := ofBE [hi, lo]
    if wire.length < 5 + recLen then .error (.err .truncated)
    else slice wire 5 (5 + recLen)

/-- `try_into` an array of `n` bytes. -/
def tryInto (n : ℕ) (bs : Bytes) : Option (List.Vector UInt8 n) :=
  if h : bs.length = n then some ⟨bs, h⟩ else none

/-- The key_share arm of the ServerHello extension loop. -/
def readShareEntry (share : Option (List.Vector UInt8 32)) (data : Bytes) :
    Except (Stop Tls13Error) (Option (List.Vector UInt8 32)) := do
  let (group, ks) ← u16 data
  let (klen, ks) ← u16 ks
  let (key, _) ← take klen ks
  if group = GROUP_X25519 ∧ klen = 32 then
    let key ← unwrap (tryInto 32 key)
    .ok (some key)
  else .ok share

/-- The ServerHello extension loop. -/
def readShareExtensions (extTotal read : ℕ) (share : Option (List.Vector UInt8 32)) (sh : Bytes) :
    Except (Stop Tls13Error) (Option (List.Vector UInt8 32)) :=
  if read < extTotal then do
    let (t, sh) ← u16 sh
    let (l, sh) ← u16 sh
    let (data, sh) ← take l sh
    let share ← if t = EXT_KEY_SHARE then readShareEntry share data else .ok share
    readShareExtensions extTotal (read + (4 + l)) share sh
  else .ok share
termination_by extTotal - read

/-- The part of `process_server_hello` that reads the message. -/
def readServerHello (body : Bytes) :
    Except (Stop Tls13Error) (CipherSuite × Option (List.Vector UInt8 32)) := do
  let sh ← slice body 4 body.length
  let (_, sh) ← take 2 sh
  let (_, sh) ← take 32 sh
  let (sidLen, sh) ← u8 sh
  let (_, sh) ← take sidLen sh
  let (negotiated, sh) ← u16 sh
  let suite ← okOr .badCipherSuite (CipherSuite.fromU16 negotiated)
  let (_, sh) ← u8 sh
  let (extTotal, sh) ← u16 sh
  let share ← readShareExtensions extTotal 0 none sh
  .ok (suite, share)

/-- `set_client_hello`. -/
def setClientHello (record : Bytes) : Method Unit :=
  modify fun c => { c with clientHello := some record }

/-- `process_server_hello`. -/
def processServerHello (wire : Bytes) : Method (List.Vector UInt8 32) := do
  let body ← lift <| recordBody CONTENT_HANDSHAKE .badRecord wire
  if body.head? ≠ some HS_SERVER_HELLO then fail .badHandshake
  else do
    let (suite, share) ← lift <| readServerHello body
    let c ← get
    let hello ← orFail .badHandshake c.clientHello
    let helloHs ← orFail .badHandshake (if 5 ≤ hello.length then some (hello.drop 5) else none)
    let h := suite.hash
    modify fun c => { c with
      transcript := some (((Transcript.new suite).update helloHs).update body)
      suite := some suite
      earlySecret := some (hkdfExtract k h (List.replicate h.len 0) (List.replicate h.len 0)) }
    orFail .noKeyShare share

/-- `derive_handshake_keys`. -/
def deriveHandshakeKeys (sharedSecret : Bytes) : Method Unit := do
  let c ← get
  let suite ← orFail .badHandshake c.suite
  let h := suite.hash
  let early ← orPanic c.earlySecret
  let derived := deriveSecret k h early "derived" (emptyHash k h)
  let hs := hkdfExtract k h derived sharedSecret
  let derived2 := deriveSecret k h hs "derived" (emptyHash k h)
  modify fun c => { c with
    handshakeSecret := some hs
    masterSecret := some (hkdfExtract k h derived2 (List.replicate h.len 0)) }
  let transcript ← orPanic c.transcript
  let th := transcript.hashOf k
  let shts := deriveSecret k h hs "s hs traffic" th
  let chts := deriveSecret k h hs "c hs traffic" th
  modify fun c => { c with shts := some shts, chts := some chts }
  let read ← lift <| protectionOf k suite shts
  modify fun c => { c with hsRead := some read }
  let write ← lift <| protectionOf k suite chts
  modify fun c => { c with hsWrite := some write }

/-! ## Records -/

/-- Opening a record with the protection in one field of the client.  `bad` is the
error for another content type and for a field that is not set. -/
def openWith (bad : Tls13Error) (field : Tls13Client → Option Protection)
    (update : Protection → Tls13Client → Tls13Client) (wire : Bytes) : Method (UInt8 × Bytes) := do
  let inner ← lift <| recordBody CONTENT_APPDATA bad wire
  let aad ← lift <| slice wire 0 5
  let c ← get
  let p ← orFail bad (field c)
  let nonce ← lift <| recordNonce p.iv p.seq
  modify (update p.next)
  let plain ← lift <| p.cipher.open k nonce inner aad
  lift <| stripInnerPadding plain

/-- `open_hs_record`. -/
def openHsRecord : Bytes → Method (UInt8 × Bytes) :=
  openWith k .badRecord Tls13Client.hsRead fun p c => { c with hsRead := some p }

/-- `open_record`. -/
def openRecord : Bytes → Method (UInt8 × Bytes) :=
  openWith k .unexpectedRecord Tls13Client.appRead fun p c => { c with appRead := some p }

/-- `open_app_record`. -/
def openAppRecord (wire : Bytes) : Method Bytes := do
  let (ct, payload) ← openRecord k wire
  if ct ≠ CONTENT_APPDATA then fail .unexpectedRecord else pure payload

/-- Sealing a record with the protection in one field of the client. -/
def sealWith (missing : Tls13Error) (field : Tls13Client → Option Protection)
    (update : Protection → Tls13Client → Tls13Client) (contentType : UInt8) (data : Bytes) :
    Method Bytes := do
  let record := CONTENT_APPDATA :: 0x03 :: 0x03 :: toBE 2 (data.length + 1 + TAG_LEN)
  let c ← get
  let p ← orFail missing (field c)
  let nonce ← lift <| recordNonce p.iv p.seq
  modify (update p.next)
  let sealed ← lift <| p.cipher.seal k nonce (data ++ [contentType]) record
  pure (record ++ sealed)

/-- `seal_app_record`. -/
def sealAppRecord : Bytes → Method Bytes :=
  sealWith k .unexpectedRecord Tls13Client.appWrite (fun p c => { c with appWrite := some p })
    CONTENT_APPDATA

/-- `client_finished_record`. -/
def clientFinishedRecord : Method Bytes := do
  let c ← get
  let suite ← orFail .badHandshake c.suite
  let h := suite.hash
  let chts ← orFail .badHandshake c.chts
  let transcript ← orPanic c.transcript
  let verify := hmacHash k h (finishedKey k h chts) (transcript.hashOf k)
  let msg := HS_FINISHED :: 0 :: 0 :: UInt8.ofNat verify.length :: verify
  modify fun c => { c with transcript := some (transcript.update msg) }
  sealWith k .badHandshake Tls13Client.hsWrite (fun p c => { c with hsWrite := some p })
    CONTENT_HANDSHAKE msg

/-! ## The server flight -/

/-- A handshake message. -/
structure Message where
  type : UInt8
  body : Bytes
  deriving DecidableEq

/-- The message with its header. -/
def Message.encode (m : Message) : Bytes := m.type :: (toBE 3 m.body.length ++ m.body)

/-- The message at the front of a buffer, if all of it is there: the test that both
the flight loop and `take_message` make. -/
def frontMessage : Bytes → Option Message
  | type :: a :: b :: c :: rest =>
    if rest.length < ofBE [a, b, c] then none else some ⟨type, rest.take (ofBE [a, b, c])⟩
  | _ => none

/-- What is in front is a message and its header. -/
theorem frontMessage_eq_some {buf : Bytes} {m : Message} (h : frontMessage buf = some m) :
    buf = m.encode ++ buf.drop (4 + m.body.length) ∧ m.body.length < 256 ^ 3 := by
  match buf, h with
  | type :: a :: b :: c :: rest, h =>
    rw [frontMessage] at h
    split_ifs at h with hshort
    cases h
    have hlen : (rest.take (ofBE [a, b, c])).length = ofBE [a, b, c] := by
      rw [List.length_take]
      omega
    have hbe : toBE 3 (ofBE [a, b, c]) = [a, b, c] := toBE_ofBE [a, b, c]
    have hlt : ofBE [a, b, c] < 256 ^ 3 := ofBE_lt [a, b, c]
    refine ⟨?_, by dsimp only; omega⟩
    simp only [Message.encode, hlen, hbe, List.cons_append, List.nil_append]
    rw [Nat.add_comm]
    simp only [List.drop_succ_cons, List.take_append_drop]

@[simp] theorem Message.length_encode (m : Message) : m.encode.length = 4 + m.body.length := by
  simp [encode]
  omega

theorem le_length_of_frontMessage {buf : Bytes} {m : Message} (h : frontMessage buf = some m) :
    4 + m.body.length ≤ buf.length := by
  have := congrArg List.length (frontMessage_eq_some h).1
  rw [List.length_append, Message.length_encode] at this
  omega

/-- `take_message` for the message at the front of `buf`: the transcript takes it
in, and the hash before it is returned.  The caller drops it from the buffer. -/
def takeMessage (buf : Bytes) (m : Message) : Method Bytes := do
  let c ← get
  let transcript ← orPanic c.transcript
  modify fun c => { c with transcript := some (transcript.update (buf.take (4 + m.body.length))) }
  pure (transcript.hashOf k)

/-- What the flight loop remembers: `server_chain`, `cv` (scheme, signature and
to-be-signed bytes) and `got_finished`. -/
structure Seen where
  serverChain : List Bytes
  cv : Option (ℕ × Bytes × Bytes)
  gotFinished : Bool
  deriving DecidableEq

/-- What the server signs: 64 spaces, the context string, a zero byte and a
transcript hash. -/
def toBeSigned (transcriptHash : Bytes) : Bytes :=
  List.replicate 64 0x20 ++ utf8 "TLS 1.3, server CertificateVerify" ++ 0 :: transcriptHash

/-- The CertificateVerify arm. -/
def readCertificateVerify (body thBefore : Bytes) :
    Except (Stop Tls13Error) (ℕ × Bytes × Bytes) :=
  if body.length < 4 then .error (.err .badHandshake)
  else do
    let scheme ← slice body 0 2
    let sigLen ← slice body 2 4
    if body.length < 4 + ofBE sigLen then .error (.err .badHandshake)
    else
      let sig ← slice body 4 (4 + ofBE sigLen)
      .ok (ofBE scheme, sig, toBeSigned thBefore)

/-- The match on the message type. -/
def handleMessage (h : HashAlg) (shts : Option Bytes) (seen : Seen) (m : Message)
    (thBefore : Bytes) : Except (Stop Tls13Error) Seen :=
  if m.type = HS_ENCRYPTED_EXTENSIONS then .ok seen
  else if m.type = HS_CERTIFICATE then do
    let serverChain ← parseCertificateEntryBodies m.body
    .ok { seen with serverChain }
  else if m.type = HS_CERTIFICATE_VERIFY then do
    let cv ← readCertificateVerify m.body thBefore
    .ok { seen with cv := some cv }
  else if m.type = HS_FINISHED then do
    let shts ← okOr .badHandshake shts
    if m.body ≠ hmacHash k h (finishedKey k h shts) thBefore then
      .error (.err .finishedMismatch)
    else .ok { seen with gotFinished := true }
  else .ok seen

/-- The length a record header declares. -/
def recordLen (rest : Bytes) : ℕ := ofBE ((rest.drop 3).take 2)

/-- The loop of `process_server_flight`: a message is taken when one is there, else
the next record is opened. -/
def flightLoop (h : HashAlg) (pending rest : Bytes) (seen : Seen) : Method Seen :=
  if seen.gotFinished then pure seen
  else
    match _hfront : frontMessage pending with
    | some m => do
      let thBefore ← takeMessage k pending m
      let c ← get
      let seen ← lift <| handleMessage k h c.shts seen m thBefore
      flightLoop h (pending.drop (4 + m.body.length)) rest seen
    | none =>
      if rest.length < 5 then fail .truncated
      else if rest.length < 5 + recordLen rest then fail .truncated
      else if rest.head? = some CONTENT_CHANGE_CIPHER_SPEC then
        flightLoop h pending (rest.drop (5 + recordLen rest)) seen
      else do
        let (ct, payload) ← openHsRecord k (rest.take (5 + recordLen rest))
        if ct ≠ CONTENT_HANDSHAKE then fail .unexpectedRecord
        else flightLoop h (pending ++ payload) (rest.drop (5 + recordLen rest)) seen
termination_by (rest.length, pending.length)
decreasing_by
  · refine Prod.Lex.right _ ?_
    have := le_length_of_frontMessage _hfront
    rw [List.length_drop]
    omega
  · refine Prod.Lex.left _ _ ?_
    rw [List.length_drop]
    omega
  · refine Prod.Lex.left _ _ ?_
    rw [List.length_drop]
    omega

/-- `ok_or` on the result of a key parser. -/
def noneAs {α : Type} (e : Tls13Error) : Except (Stop Unit) α → Except (Stop Tls13Error) α
  | .ok a => .ok a
  | .error (.err ()) => .error (.err e)
  | .error .addOverflow => .error .addOverflow
  | .error .subOverflow => .error .subOverflow
  | .error .shlOverflow => .error .shlOverflow
  | .error .panic => .error .panic

/-- `verify_certificate_verify`. -/
def verifyCertificateVerify (t : Target) (scheme : ℕ) (leafDer sig tbs : Bytes) :
    Except (Stop Tls13Error) Unit := do
  let (n, e) ← noneAs .badScheme ((parseLeafKey leafDer).run (Der.tlv t))
  let key : RsaPublicKey := ⟨n, e⟩
  if !k.rsaAccepts key then .error (.err .badScheme)
  else
    let accepted ← okOr .badScheme
      (if scheme = 0x0804 then some (k.verifyPss .sha256 key tbs sig)
      else if scheme = 0x0805 then some (k.verifyPss .sha384 key tbs sig)
      else if scheme = 0x0806 then some (k.verifyPss .sha512 key tbs sig)
      else if scheme = 0x0401 then some (k.verifyPkcs1 .sha256 key tbs sig)
      else if scheme = 0x0501 then some (k.verifyPkcs1 .sha384 key tbs sig)
      else if scheme = 0x0601 then some (k.verifyPkcs1 .sha512 key tbs sig)
      else none)
    if accepted then .ok () else .error (.err .certVerifyRejected)

/-- The end of `process_server_flight`: the application traffic secrets, keyed off the
transcript through the server Finished. -/
def deriveAppKeys (suite : CipherSuite) (serverChain : List Bytes) : Method Tls13Outcome := do
  let c ← get
  let transcript ← orPanic c.transcript
  let th := transcript.hashOf k
  let master ← orFail .badHandshake c.masterSecret
  let cets := deriveSecret k suite.hash master "c ap traffic" th
  let sets := deriveSecret k suite.hash master "s ap traffic" th
  modify fun c => { c with cets := some cets, sets := some sets }
  let write ← lift <| protectionOf k suite cets
  modify fun c => { c with appWrite := some write }
  let read ← lift <| protectionOf k suite sets
  modify fun c => { c with appRead := some read }
  pure { suite, serverChain, serverAppSecret := sets, clientAppSecret := cets }

/-- `process_server_flight`. -/
def processServerFlight (t : Target) (records : Bytes) : Method Tls13Outcome := do
  let c ← get
  let suite ← orFail .badHandshake c.suite
  let seen ← flightLoop k suite.hash [] records ⟨[], none, false⟩
  let (scheme, sig, tbs) ← orFail .badHandshake seen.cv
  let leaf ← orFail .badHandshake seen.serverChain.head?
  lift <| verifyCertificateVerify k t scheme leaf sig tbs
  deriveAppKeys k suite seen.serverChain

end ShadeVpn.Tls13
