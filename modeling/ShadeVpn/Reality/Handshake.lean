import ShadeVpn.Reality.Material
import ShadeVpn.Tls.RoundTrip

/-!
# The client handshake

`HandshakeState` of `native/src/handshake.rs`: the hello a client sends, the
check of the server's answer, and the record layer that opens up behind it.
Randomness and the clock are arguments.  `complete` is translated as one step;
it keeps the order of the source, where the record keys are fixed before the
confirmation is checked.
-/

namespace ShadeVpn.Handshake

open Octets Checked Tls Reality

/-! ## Constants -/

def HKDF_SALT : Bytes := utf8 "shadevpn-reality-hkdf-salt-v1"
def KEY_INFO : Bytes := utf8 "shadevpn-record-keys-v1"
def HELLO_RANDOM_INFO : Bytes := utf8 "shadevpn-hello-random-v1"
def NONCE_DOMAIN_CLIENT : Bytes := utf8 "shadevpn-nonce-client-v1"
def NONCE_DOMAIN_SERVER : Bytes := utf8 "shadevpn-nonce-server-v1"
def NONCE_PURPOSE_RESPONSE : Bytes := utf8 "shadevpn-purpose-response-v1"
def NONCE_PURPOSE_DATA : Bytes := utf8 "shadevpn-purpose-data-v1"
def TAG_LEN : ℕ := 16

/-- `CLIENT_VERSION`: "SV" and protocol revision 1. -/
def CLIENT_VERSION : List.Vector UInt8 3 := ⟨[0x53, 0x56, 0x01], rfl⟩

def CERT_LEN : ℕ := 96
def SERVER_SHARE_LEN : ℕ := 32
def SERVER_RESPONSE_MIN : ℕ := CERT_LEN + SERVER_SHARE_LEN + TAG_LEN

/-- `HandshakeError`. -/
inductive HandshakeError where
  | badServerKey
  | badShortId
  | sessionAuthRejected
  | sealFailed
  | ephemeralKeyFailed
  deriving DecidableEq, Repr

/-- `HandshakeError::reason`. -/
def HandshakeError.reason : HandshakeError → String
  | .badServerKey => "server Reality public key is not a valid Curve25519 point"
  | .badShortId => "short ID must be 1-8 bytes"
  | .sessionAuthRejected => "session authentication rejected"
  | .sealFailed => "AEAD seal failed"
  | .ephemeralKeyFailed => "ephemeral key generation failed"

/-! ## State -/

/-- `RecordKeys`. -/
structure RecordKeys (σ : Type) where
  send : List.Vector σ 32
  recv : List.Vector σ 32
  deriving DecidableEq

/-- What `initiate` reads of `HandshakeParams`. -/
structure HandshakeParams (σ : Type) where
  sni : String
  serverPublicKey : List.Vector σ 32
  shortId : Bytes

/-- `HandshakeState`. -/
structure HandshakeState (κ σ : Type) where
  ephemeral : κ
  ephemeralPublic : List.Vector σ 32
  authKey : List.Vector σ 32
  wireHello : List σ
  sealedSessionId : List.Vector σ 32
  /-- The `OnceLock`: written at most once. -/
  recordKeys : Option (RecordKeys σ)
  completed : Bool

/-- `Direction`. -/
inductive Direction where
  | client
  | server
  deriving DecidableEq, Repr

variable {κ σ : Type} [Alphabet σ] (C : Crypto κ σ)

/-! ## Keys and nonces -/

/-- The hello random of a session, derived from the shared secret. -/
def helloRandom (shared : List.Vector σ 32) : List.Vector σ 32 :=
  C.hkdfSha256 (lits HKDF_SALT) shared.toList (lits HELLO_RANDOM_INFO) 32

/-- The 64 symbols of record key material for a session id and an ECDHE secret,
cut into the client's send key and its receive key. -/
def recordKeys (sessionId ecdhe : List.Vector σ 32) : RecordKeys σ :=
  let material := C.hkdfSha256 (lits HKDF_SALT) (sessionIdentity C sessionId ecdhe).toList
    (lits KEY_INFO) 64
  { send := copyFrom 32 material.toList, recv := copyFrom 32 (material.toList.drop 32) }

/-- `derive_nonce`. -/
def deriveNonce (sessionId : List.Vector σ 32) (seq : UInt64) (direction : Direction)
    (purpose : Bytes) : List.Vector σ 12 :=
  let domain := match direction with
    | .client => NONCE_DOMAIN_CLIENT
    | .server => NONCE_DOMAIN_SERVER
  copyFrom 12 (C.sha256 (lits domain ++ lits purpose ++ sessionId.toList
    ++ lits (toBE 8 seq.toNat))).toList

/-! ## The hello -/

/-- An error of one type where the source maps it to another; faults stay. -/
def stopAs {ε ε' α : Type} (e' : ε') : Stop ε → Except (Stop ε') α
  | .err _ => .error (.err e')
  | .addOverflow => .error .addOverflow
  | .subOverflow => .error .subOverflow
  | .shlOverflow => .error .shlOverflow
  | .panic => .error .panic

/-- `HandshakeState::initiate`, for the ephemeral secret it draws and the clock. -/
def initiate [DecidableEq σ] (params : HandshakeParams σ) (ephemeral : κ) (unixTime : UInt32) :
    Except (Stop HandshakeError) (HandshakeState κ σ) :=
  if params.shortId = [] ∨ params.shortId.length > SID_SHORT_ID_LEN then
    .error (.err .badShortId)
  else if params.serverPublicKey = Crypto.zeros 32 then .error (.err .badServerKey)
  else
    let ephemeralPublic := C.publicKey ephemeral
    let shared := C.x25519 ephemeral params.serverPublicKey
    if shared = Crypto.zeros 32 then .error (.err .ephemeralKeyFailed)
    else
      let random := helloRandom C shared
      let authKey := Reality.authKey C shared random
      match buildClientHello (some params.sni) ephemeralPublic random
        (Crypto.zeros 32 : List.Vector σ 32).toList with
      | .error e => stopAs .sealFailed e
      | .ok helloZeroed =>
        match sealSessionId C authKey random helloZeroed CLIENT_VERSION unixTime params.shortId with
        | .error e => stopAs .sealFailed e
        | .ok sealedSessionId =>
          .ok { ephemeral, ephemeralPublic, authKey,
                wireHello := patchSessionId helloZeroed sealedSessionId.toList,
                sealedSessionId, recordKeys := none, completed := false }

/-! ## The server's answer -/

/-- The ECDHE secret a server response leads to. -/
def responseSecret (ephemeral : κ) (serverResponse : List σ) : List.Vector σ 32 :=
  C.x25519 ephemeral (copyFrom 32 (serverResponse.drop CERT_LEN))

namespace HandshakeState

/-- `HandshakeState::complete`. -/
def complete [DecidableEq σ] (st : HandshakeState κ σ) (serverResponse : List σ) :
    Except HandshakeError Unit × HandshakeState κ σ :=
  -- the compare-exchange on `completed`
  if st.completed then (.error .sessionAuthRejected, st)
  else
    let reject : HandshakeState κ σ → Except HandshakeError Unit × HandshakeState κ σ :=
      fun st => (.error .sessionAuthRejected, { st with completed := false })
    let st := { st with completed := true }
    if serverResponse.length < SERVER_RESPONSE_MIN then reject st
    else
      match verifyTemporaryCertificate C st.authKey (serverResponse.take CERT_LEN) with
      | .error _ => reject st
      | .ok () =>
        let ecdhe := responseSecret C st.ephemeral serverResponse
        if ecdhe = Crypto.zeros 32 then reject st
        else
          let keys := Handshake.recordKeys C st.sealedSessionId ecdhe
          -- `OnceLock::set`
          if st.recordKeys.isSome then reject st
          else
            let st := { st with recordKeys := some keys }
            let nonce := deriveNonce C st.sealedSessionId 0 .server NONCE_PURPOSE_RESPONSE
            match C.aesDecrypt keys.recv nonce []
              (serverResponse.drop (CERT_LEN + SERVER_SHARE_LEN)) with
            | none => reject st
            | some _ => (.ok (), st)

/-! ## Records -/

/-- `HandshakeState::seal_record`. -/
def sealRecord (st : HandshakeState κ σ) (seq : UInt64) (plaintext : List σ) :
    Except HandshakeError (List σ) :=
  match st.recordKeys with
  | none => .error .sessionAuthRejected
  | some keys =>
    match C.aesEncrypt keys.send
      (deriveNonce C st.sealedSessionId seq .client NONCE_PURPOSE_DATA) [] plaintext with
    | none => .error .sealFailed
    | some ct => .ok ct

/-- `HandshakeState::open_record`. -/
def openRecord (st : HandshakeState κ σ) (seq : UInt64) (ciphertext : List σ) :
    Except HandshakeError (List σ) :=
  match st.recordKeys with
  | none => .error .sessionAuthRejected
  | some keys =>
    match C.aesDecrypt keys.recv
      (deriveNonce C st.sealedSessionId seq .server NONCE_PURPOSE_DATA) [] ciphertext with
    | none => .error .sessionAuthRejected
    | some pt => .ok pt

end HandshakeState

/-! ## What the client accepts -/

/-- The checks `complete` makes on a response. -/
structure Acceptable [DecidableEq σ] (st : HandshakeState κ σ) (r : List σ) : Prop where
  length : SERVER_RESPONSE_MIN ≤ r.length
  certificate : verifyTemporaryCertificate C st.authKey (r.take CERT_LEN) = .ok ()
  secret : responseSecret C st.ephemeral r ≠ Crypto.zeros 32
  confirmation : (C.aesDecrypt
    (recordKeys C st.sealedSessionId (responseSecret C st.ephemeral r)).recv
    (deriveNonce C st.sealedSessionId 0 .server NONCE_PURPOSE_RESPONSE) []
    (r.drop (CERT_LEN + SERVER_SHARE_LEN))).isSome

/-- What an accepted response makes of the state. -/
def HandshakeState.keyed (st : HandshakeState κ σ) (r : List σ) : HandshakeState κ σ :=
  { st with
    completed := true
    recordKeys := some
      (Handshake.recordKeys C st.sealedSessionId (responseSecret C st.ephemeral r)) }

variable {C}

/-- An acceptable response is accepted in a state that is neither completed nor keyed. -/
theorem complete_of_acceptable [DecidableEq σ] {st : HandshakeState κ σ} {r : List σ}
    (hfresh : st.completed = false) (hkeys : st.recordKeys = none) (h : Acceptable C st r) :
    st.complete C r = (.ok (), st.keyed C r) := by
  obtain ⟨pt, hpt⟩ := Option.isSome_iff_exists.1 h.confirmation
  have hlen : ¬ r.length < SERVER_RESPONSE_MIN := not_lt.2 h.length
  rw [HandshakeState.complete, hfresh, if_neg Bool.false_ne_true]
  dsimp only
  rw [if_neg hlen, h.certificate]
  dsimp only
  rw [if_neg h.secret, hkeys, if_neg (by simp), hpt]
  rfl

/-- Nothing else is accepted. -/
theorem acceptable_of_complete [DecidableEq σ] {st st' : HandshakeState κ σ} {r : List σ}
    (h : st.complete C r = (.ok (), st')) :
    st.completed = false ∧ st.recordKeys = none ∧ Acceptable C st r ∧ st' = st.keyed C r := by
  rw [HandshakeState.complete] at h
  dsimp only at h
  rcases hcert : verifyTemporaryCertificate C st.authKey (r.take CERT_LEN) with e | ⟨⟩
  · rw [hcert] at h
    split_ifs at h <;> cases h
  · rw [hcert] at h
    dsimp only at h
    split_ifs at h with hdone hlen hsecret hkeys
    · cases h
    · cases h
    · cases h
    · cases h
    · split at h
      · cases h
      · next pt hpt =>
        refine ⟨by simpa using hdone, by simpa using hkeys,
          ⟨not_lt.1 hlen, hcert, hsecret, Option.isSome_iff_exists.2 ⟨pt, hpt⟩⟩, ?_⟩
        exact ((Prod.ext_iff.1 h).2).symm

end ShadeVpn.Handshake
