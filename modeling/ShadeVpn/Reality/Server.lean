import ShadeVpn.Reality.Handshake

/-!
# The honest server

The handshake and the record layer of `run_server` in
`native/src/test_server.rs`, the peer every client test runs against.  The
server sees the hello frame and its own secrets, nothing of the client's state.
The short id it allows and the secrets it draws are arguments.

What the two sides come to is the subject of `HonestRun`.
-/

namespace ShadeVpn.Handshake

open Octets Checked Tls Reality

/-- The `Err` strings of the server's handshake. -/
inductive ServerError where
  | badHello (e : TlsError)
  | noSni
  | sessionIdLength
  | sessionIdRejected (e : RealityError)
  | clientVersion
  | shortId
  | sealFailed
  deriving DecidableEq, Repr

def SERVER_CONFIRMATION : Bytes := utf8 "shadevpn-server-ok"

variable {κ σ : Type} [Alphabet σ] (C : Crypto κ σ)

/-- What the server knows of a hello it could unseal. -/
structure OpenedHello (σ : Type) where
  sni : String
  ephemeralPublic : List.Vector σ 32
  authKey : List.Vector σ 32
  sessionId : List.Vector σ 32
  plain : SessionIdPlain σ

/-- The keys of a server session. -/
structure ServerSession (σ : Type) where
  sni : String
  sessionId : List.Vector σ 32
  recvKey : List.Vector σ 32
  sendKey : List.Vector σ 32

/-- The server's reading of a hello frame, up to the unsealed session id. -/
def openHello (serverSecret : κ) (helloFrame : List σ) :
    Except (Stop ServerError) (OpenedHello σ) :=
  match parseClientHello helloFrame with
  | .error e => .error (.err (.badHello e))
  | .ok hello =>
    match hello.sni with
    | none => .error (.err .noSni)
    | some sni =>
      let shared := C.x25519 serverSecret hello.ephemeralPublic
      let authKey := Reality.authKey C shared hello.random
      -- the slice bound of the fill
      if helloFrame.length < SESSION_ID_OFFSET + 32 then .error .panic
      else
        let aad := patchSessionId helloFrame (Crypto.zeros 32 : List.Vector σ 32).toList
        if hello.sessionId.length ≠ 32 then .error (.err .sessionIdLength)
        else
          let sid := copyFrom 32 hello.sessionId
          match unsealSessionId C authKey hello.random aad sid with
          | .error e => .error (.err (.sessionIdRejected e))
          | .ok plain =>
            .ok { sni, ephemeralPublic := hello.ephemeralPublic, authKey, sessionId := sid, plain }

/-- The server's answer to a hello it let in, for the secrets of its certificate
and of its key share. -/
def answer (hello : OpenedHello σ) (signing ephemeral : κ) :
    Except (Stop ServerError) (List σ × ServerSession σ) :=
  let ecdhe := C.x25519 ephemeral hello.ephemeralPublic
  let keys := recordKeys C hello.sessionId ecdhe
  match C.aesEncrypt keys.recv
      (deriveNonce C hello.sessionId 0 .server NONCE_PURPOSE_RESPONSE) []
      (lits SERVER_CONFIRMATION) with
  | none => .error (.err .sealFailed)
  | some sealedConfirm =>
    .ok (temporaryCertificate C signing hello.authKey ++ (C.publicKey ephemeral).toList
        ++ sealedConfirm,
      { sni := hello.sni, sessionId := hello.sessionId, recvKey := keys.send,
        sendKey := keys.recv })

/-- The handshake part of `run_server`. -/
def serve [DecidableEq σ] (serverSecret : κ) (expectedShortId : List.Vector σ 8)
    (signing ephemeral : κ) (helloFrame : List σ) :
    Except (Stop ServerError) (List σ × ServerSession σ) :=
  match openHello C serverSecret helloFrame with
  | .error e => .error e
  | .ok hello =>
    if hello.plain.clientVersion ≠ CLIENT_VERSION.map Alphabet.byte then
      .error (.err .clientVersion)
    else if hello.plain.shortId ≠ expectedShortId then .error (.err .shortId)
    else answer C hello signing ephemeral

/-- A data record the server opens. -/
def ServerSession.openRecord (s : ServerSession σ) (seq : UInt64) (frame : List σ) :
    Option (List σ) :=
  C.aesDecrypt s.recvKey (deriveNonce C s.sessionId seq .client NONCE_PURPOSE_DATA) [] frame

/-- A data record the server seals. -/
def ServerSession.sealRecord (s : ServerSession σ) (seq : UInt64) (reply : List σ) :
    Option (List σ) :=
  C.aesEncrypt s.sendKey (deriveNonce C s.sessionId seq .server NONCE_PURPOSE_DATA) [] reply

end ShadeVpn.Handshake
