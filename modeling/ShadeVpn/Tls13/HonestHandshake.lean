import ShadeVpn.Tls13.HonestServer

/-!
# The handshake with an honest server

The whole of the TLS 1.3 client of `native/src/tls13.rs` against the server of
`HonestServer`, in the order of the interoperability test: ClientHello, ServerHello,
X25519, the flight, the client's Finished, and then records both ways.

* `exists_division` — what the server sends is a division of its messages;
* `handshake_agrees` — the client accepts the flight however it is divided, both ends hold
  the same secrets, the server takes the Finished, and each reads what the other sends.
-/

namespace ShadeVpn.Tls13

open Octets Checked Fallible

variable {κ : Type} {C : Crypto κ UInt8} {k : Crates} {s : HonestServer κ} {heard : Heard}
  {c : Tls13Client}

/-! ## The records of the flight -/

/-- What a server puts on the wire: a ChangeCipherSpec, or a fragment of its messages with
zeros behind it. -/
inductive Piece where
  | changeCipherSpec
  | fragment (bytes : Bytes) (zeros : ℕ)

/-- The part of the messages in a piece. -/
def Piece.bytes : Piece → Bytes
  | changeCipherSpec => []
  | fragment bytes _ => bytes

theorem handshake_typed : CONTENT_HANDSHAKE ≠ 0 := by decide

/-- The records of a server that is at record `n`. -/
def sendPieces (k : Crates) (keys : TrafficKeys) : ℕ → List Piece → Option (List Bytes)
  | _, [] => some []
  | n, .changeCipherSpec :: pieces =>
    (sendPieces k keys n pieces).map ([CONTENT_CHANGE_CIPHER_SPEC, 3, 3, 0, 1, 1] :: ·)
  | n, .fragment bytes zeros :: pieces => do
    let record ← Peer.protect k keys n ⟨bytes, CONTENT_HANDSHAKE, zeros, handshake_typed⟩
    let records ← sendPieces k keys (n + 1) pieces
    some (record :: records)

/-- A record that the server protects opens to its fragment. -/
theorem opens_protected (hk : AeadCorrect k) {keys : TrafficKeys} {n : ℕ} {bytes record : Bytes}
    {zeros : ℕ} (hrecord : Peer.protect k keys n
      ⟨bytes, CONTENT_HANDSHAKE, zeros, handshake_typed⟩ = some record) :
    ∃ body, body.length < 2 ^ 16 ∧
      record = (FlightRecord.encrypted (3, 3) body bytes zeros).wire ∧
      (FlightRecord.encrypted (3, 3) body bytes zeros).Opens k (some (keys.at n)) := by
  set m : Peer.Plaintext := ⟨bytes, CONTENT_HANDSHAKE, zeros, handshake_typed⟩ with hm
  simp only [Peer.protect] at hrecord
  split_ifs at hrecord with hsmall
  obtain ⟨sealed, hsealed, rfl⟩ := Option.map_eq_some_iff.1 hrecord
  have hlen : sealed.length = m.encode.length + 16 := hk.overhead hsealed
  have hheader : (FlightRecord.encrypted (3, 3) sealed bytes zeros).header =
      Peer.header (m.encode.length + 16) := by
    rw [← hlen]
    rfl
  refine ⟨sealed, by rw [hlen]; exact hsmall, by rw [← hheader]; rfl, ?_⟩
  refine Cursor.bind_eq_ok.2 ⟨keys.at n, rfl, ?_⟩
  refine Cursor.bind_eq_ok.2 ⟨_, keys.recordNonce_at n, ?_⟩
  rw [RecordCipher.open_of_length k _ (length_nonce keys.length_iv n), hheader]
  exact okOr_eq_ok.2 (hk.opens hsealed)

/-- A piece that a record may hold. -/
def Piece.Fits : Piece → Prop
  | changeCipherSpec => True
  | fragment bytes zeros => bytes.length + zeros ≤ 2 ^ 14

/-- Pieces that fit are sent. -/
theorem exists_sendPieces (hk : AeadCorrect k) (keys : TrafficKeys) (n : ℕ) {pieces : List Piece}
    (hfits : ∀ piece ∈ pieces, piece.Fits) :
    ∃ records, sendPieces k keys n pieces = some records := by
  induction pieces generalizing n with
  | nil => exact ⟨[], rfl⟩
  | cons piece pieces ih =>
    rw [List.forall_mem_cons] at hfits
    cases piece with
    | changeCipherSpec =>
      obtain ⟨records, hsent⟩ := ih n hfits.2
      exact ⟨_, by rw [sendPieces, hsent]; rfl⟩
    | fragment bytes zeros =>
      obtain ⟨records, hsent⟩ := ih (n + 1) hfits.2
      have hfit : bytes.length + zeros ≤ 2 ^ 14 := hfits.1
      set m : Peer.Plaintext := ⟨bytes, CONTENT_HANDSHAKE, zeros, handshake_typed⟩ with hm
      have hlen : m.encode.length = bytes.length + (1 + zeros) := by
        simp [hm, Peer.Plaintext.encode]
        omega
      have htakes : (k.encrypt keys.suite keys.key (Peer.nonce keys.iv n) m.encode
          (Peer.header (m.encode.length + 16))).isSome :=
        hk.takes keys.length_key (length_nonce keys.length_iv n) (Peer.length_header _) (by omega)
      obtain ⟨sealed, hsealed⟩ := Option.isSome_iff_exists.1 htakes
      obtain ⟨record, hrecord⟩ : ∃ record, Peer.protect k keys n m = some record := by
        simp only [Peer.protect]
        rw [if_pos (by omega), hsealed]
        exact ⟨_, rfl⟩
      refine ⟨record :: records, ?_⟩
      simp only [sendPieces, ← hm, hrecord, hsent, Option.bind_eq_bind, Option.bind_some]

/-- **What the server sends is a division** of the bytes of its pieces. -/
theorem exists_division (hk : AeadCorrect k) {keys : TrafficKeys} {n : ℕ} {pieces : List Piece}
    {records : List Bytes} {ms : List Message} (hbytes : pieces.flatMap Piece.bytes = encodeAll ms)
    (hsent : sendPieces k keys n pieces = some records) :
    ∃ f : Division k (some (keys.at n)) ms, f.wire = records.flatten := by
  suffices h : ∃ rs : List FlightRecord, (∀ r ∈ rs, r.body.length < 2 ^ 16) ∧
      rs.flatMap FlightRecord.fragment = pieces.flatMap Piece.bytes ∧
      Opens k (some (keys.at n)) rs ∧ rs.flatMap FlightRecord.wire = records.flatten by
    obtain ⟨rs, hsized, hfragments, hopens, hwire⟩ := h
    exact ⟨⟨rs, hsized, hfragments.trans hbytes, hopens⟩, hwire⟩
  clear hbytes
  induction pieces generalizing n records with
  | nil =>
    cases hsent
    exact ⟨[], by simp, rfl, trivial, rfl⟩
  | cons piece pieces ih =>
    cases piece with
    | changeCipherSpec =>
      obtain ⟨records', hrest, rfl⟩ := Option.map_eq_some_iff.1 hsent
      obtain ⟨rs, hsized, hfragments, hopens, hwire⟩ := ih hrest
      refine ⟨.changeCipherSpec (3, 3) [1] :: rs, ?_, ?_, ⟨trivial, hopens⟩, ?_⟩
      · exact List.forall_mem_cons.2 ⟨by simp [FlightRecord.body], hsized⟩
      · rw [List.flatMap_cons, hfragments]
        rfl
      · rw [List.flatMap_cons, hwire]
        rfl
    | fragment bytes zeros =>
      simp only [sendPieces, Option.bind_eq_bind, Option.bind_eq_some_iff] at hsent
      obtain ⟨record, hrecord, records', hsent, heq⟩ := hsent
      cases heq
      obtain ⟨body, hbody, rfl, hopen⟩ := opens_protected hk hrecord
      obtain ⟨rs, hsized, hfragments, hopens, hwire⟩ := ih hsent
      refine ⟨.encrypted (3, 3) body bytes zeros :: rs, ?_, ?_, ⟨hopen, ?_⟩, ?_⟩
      · exact List.forall_mem_cons.2 ⟨hbody, hsized⟩
      · rw [List.flatMap_cons, hfragments]
        rfl
      · rw [← keys.next_at] at hopens
        exact hopens
      · rw [List.flatMap_cons, hwire]
        rfl

/-! ## The methods, one after the other -/

/-- The client's handshake keys. -/
theorem exec_deriveHandshakeKeys {suite : CipherSuite} {tr : Transcript} {early : Bytes}
    (hsuite : c.suite = some suite) (htr : c.transcript = some tr)
    (hearly : c.earlySecret = some early) (sharedSecret : Bytes) :
    let derived := deriveSecret k suite.hash early "derived" (emptyHash k suite.hash)
    let hs := hkdfExtract k suite.hash derived sharedSecret
    let derived2 := deriveSecret k suite.hash hs "derived" (emptyHash k suite.hash)
    let shts := deriveSecret k suite.hash hs "s hs traffic" (tr.hashOf k)
    let chts := deriveSecret k suite.hash hs "c hs traffic" (tr.hashOf k)
    exec (deriveHandshakeKeys k sharedSecret) c = (.ok (), { c with
      handshakeSecret := some hs
      masterSecret := some (hkdfExtract k suite.hash derived2 (List.replicate suite.hash.len 0))
      shts := some shts
      chts := some chts
      hsRead := some ((trafficKeys k suite shts).at 0)
      hsWrite := some ((trafficKeys k suite chts).at 0) }) := by
  simp only [deriveHandshakeKeys, exec_bind, exec_get, orFail, orPanic, exec_lift, exec_modify,
    hsuite, htr, hearly, okOr, unwrap, protectionOf_eq]

/-- The client's application keys. -/
theorem exec_deriveAppKeys {tr : Transcript} {master : Bytes} (htr : c.transcript = some tr)
    (hmaster : c.masterSecret = some master) (suite : CipherSuite) (serverChain : List Bytes) :
    let cets := deriveSecret k suite.hash master "c ap traffic" (tr.hashOf k)
    let sets := deriveSecret k suite.hash master "s ap traffic" (tr.hashOf k)
    exec (deriveAppKeys k suite serverChain) c = (.ok ⟨suite, serverChain, sets, cets⟩, { c with
      cets := some cets
      sets := some sets
      appWrite := some ((trafficKeys k suite cets).at 0)
      appRead := some ((trafficKeys k suite sets).at 0) }) := by
  simp only [deriveAppKeys, exec_bind, exec_get, orFail, orPanic, exec_lift, exec_modify, exec_pure,
    htr, hmaster, okOr, unwrap, protectionOf_eq]

/-- The bytes of a message as short as a Finished. -/
theorem encode_short {body : Bytes} (hbody : body.length < 256) (type : UInt8) :
    (Message.mk type body).encode = type :: 0 :: 0 :: UInt8.ofNat body.length :: body := by
  have hbytes : toBE 3 body.length = [0, 0, UInt8.ofNat body.length] := by
    have hhigh : body.length / 256 = 0 := Nat.div_eq_of_lt hbody
    have hhigher : body.length / 65536 = 0 := Nat.div_eq_of_lt (by omega)
    simp [toBE, hhigh, hhigher]
  rw [Message.encode, hbytes]
  rfl

/-- **The peer reads the client's Finished.** -/
theorem exec_clientFinishedRecord (hk : AeadCorrect k) {suite : CipherSuite} {tr : Transcript}
    {chts : Bytes} {keys : TrafficKeys} (hsuite : c.suite = some suite)
    (hchts : c.chts = some chts) (htr : c.transcript = some tr)
    (hwrite : c.hsWrite = some (keys.at 0)) :
    let fin : Message := ⟨HS_FINISHED, hmacHash k suite.hash (finishedKey k suite.hash chts)
      (tr.hashOf k)⟩
    ∃ record, exec (clientFinishedRecord k) c = (.ok record, { c with
        transcript := some (tr.update fin.encode)
        hsWrite := some (keys.at 1) }) ∧
      Peer.unprotect k keys 0 record = some (CONTENT_HANDSHAKE, fin.encode) := by
  intro fin
  have hlen : fin.body.length ≤ 48 := by
    rw [length_hmacHash]
    cases suite <;> decide
  have hmsg : HS_FINISHED :: 0 :: 0 :: UInt8.ofNat (hmacHash k suite.hash
      (finishedKey k suite.hash chts) (tr.hashOf k)).length ::
        hmacHash k suite.hash (finishedKey k suite.hash chts) (tr.hashOf k) = fin.encode :=
    (encode_short (show fin.body.length < 256 by omega) HS_FINISHED).symm
  have hsized : fin.encode.length ≤ 65518 := by
    rw [Message.length_encode]
    omega
  obtain ⟨record, hseal, hread⟩ := @unprotect_sealWith k keys
    { c with transcript := some (tr.update fin.encode) } 0 hk .badHandshake
    Tls13Client.hsWrite (fun p c => { c with hsWrite := some p }) hwrite CONTENT_HANDSHAKE
    handshake_typed fin.encode hsized
  refine ⟨record, ?_, hread⟩
  simp only [clientFinishedRecord, exec_bind, exec_get, orFail, orPanic, exec_lift, exec_modify,
    hsuite, hchts, htr, okOr, unwrap, hmsg]
  simp only [hsuite, hchts] at hseal
  exact hseal

/-! ## The flight of the server -/

namespace HonestServer

theorem endsInFinished_flight : EndsInFinished (s.flight C k heard) := by
  have hee : HS_ENCRYPTED_EXTENSIONS ≠ HS_FINISHED := by decide
  have hcert : HS_CERTIFICATE ≠ HS_FINISHED := by decide
  have hcv : HS_CERTIFICATE_VERIFY ≠ HS_FINISHED := by decide
  simp only [flight, authenticated, signed, List.cons_append, List.nil_append, EndsInFinished,
    certificateVerify, finished, if_neg hee, if_neg hcert, if_neg hcv, if_true]

theorem length_finished (secret : Bytes) (ms : List Message) :
    (s.finished C k heard secret ms).body.length ≤ 48 := by
  rw [finished_eq, length_hmacHash]
  cases s.suite <;> decide

theorem length_flight (hs : s.Honest C k) :
    ∀ m ∈ s.flight C k heard, m.body.length < 256 ^ 3 := by
  have hsig := hs.signature
    (Rfc8446.signatureContent k s.suite.hash (s.messages C heard s.signed))
  have hverify : (s.certificateVerify C k heard).body.length < 256 ^ 3 := by
    simp only [certificateVerify, List.length_append, length_toBE, signature]
    omega
  have hfin (ms : List Message) :
      (s.finished C k heard (s.serverHandshake C k heard) ms).body.length < 256 ^ 3 :=
    lt_of_le_of_lt (length_finished _ ms) (by norm_num)
  rw [flight, authenticated, signed]
  simp only [List.cons_append, List.nil_append, List.forall_mem_cons]
  exact ⟨hs.encryptedExtensions, hs.certificate, hverify, hfin _, by simp⟩

theorem hashOf_transcript : (s.transcript C heard).hashOf k = s.transcriptHash C k heard [] := by
  rw [← hashOf_update, encodeAll_nil, Transcript.update_nil]

section Established

variable (C k s heard)

/-- What the client is to return. -/
def outcome : Tls13Outcome :=
  ⟨s.suite, s.certificate.chain, s.serverApplication C k heard, s.clientApplication C k heard⟩

/-- What the key exchange is to make of the client. -/
def keyed (c : Tls13Client) : Tls13Client :=
  { c.greeted k s.suite heard.message (s.serverHello C heard).encode with
    handshakeSecret := some (s.handshakeSecret C k heard)
    masterSecret := some (s.masterSecret C k heard)
    shts := some (s.serverHandshake C k heard)
    chts := some (s.clientHandshake C k heard)
    hsRead := some ((trafficKeys k s.suite (s.serverHandshake C k heard)).at 0)
    hsWrite := some ((trafficKeys k s.suite (s.clientHandshake C k heard)).at 0) }

/-- What the flight is to make of the client. -/
def established (c : Tls13Client) : Tls13Client :=
  { c with
    transcript := some ((s.transcript C heard).update (encodeAll (s.flight C k heard)))
    cets := some (s.clientApplication C k heard)
    sets := some (s.serverApplication C k heard)
    appWrite := some ((trafficKeys k s.suite (s.clientApplication C k heard)).at 0)
    appRead := some ((trafficKeys k s.suite (s.serverApplication C k heard)).at 0) }

end Established

/-- **The client accepts the flight**, however it is divided into records. -/
theorem exec_processServerFlight_flight (hs : s.Honest C k) (hsuite : c.suite = some s.suite)
    (htr : c.transcript = some (s.transcript C heard))
    (hshts : c.shts = some (s.serverHandshake C k heard))
    (hmaster : c.masterSecret = some (s.masterSecret C k heard)) {p : Option Protection}
    (hp : c.hsRead = p) (f : Division k p (s.flight C k heard)) :
    ∃ hsRead, exec (processServerFlight k .aarch64 f.wire) c =
      (.ok (s.outcome C k heard), { s.established C k heard c with hsRead }) := by
  subst hp
  obtain ⟨leaf, hleaf, hverify⟩ := verifyCertificateVerify_signature hs
  have hread := @readMessages_flight _ C k s heard hs
  rw [← hshts] at hread
  have htake := exec_takeMessages (length_flight hs) htr hread
  let taken : Tls13Client := { c with
    transcript := some ((s.transcript C heard).update (encodeAll (s.flight C k heard))) }
  have hkeys : exec (deriveAppKeys k s.suite s.certificate.chain) taken =
      (.ok (s.outcome C k heard), s.established C k heard c) := by
    have hderive := exec_deriveAppKeys (k := k) (c := taken) rfl hmaster s.suite s.certificate.chain
    simp only [hashOf_update, ← applicationTraffic_eq] at hderive
    exact hderive
  have hmessages : exec (processMessages k .aarch64 (s.flight C k heard)) c =
      (.ok (s.outcome C k heard), s.established C k heard c) := by
    simp only [processMessages, exec_bind_ok, exec_get, exec_orFail, exec_lift, Prod.mk.injEq,
      Except.ok.injEq]
    exact ⟨_, _, ⟨rfl, rfl⟩, s.suite, _, ⟨hsuite, rfl⟩, s.seen C k heard, taken, htake, _, _,
      ⟨rfl, rfl⟩, leaf, _, ⟨hleaf, rfl⟩, (), _, ⟨hverify _, rfl⟩, hkeys⟩
  obtain ⟨hval, q, hstate⟩ := agree_processServerFlight (length_flight hs) endsInFinished_flight
    .aarch64 f
  rw [hmessages] at hval hstate
  rcases hrun : exec (processServerFlight k .aarch64 f.wire) c with ⟨r, c'⟩
  rw [hrun] at hval hstate
  obtain rfl : r = _ := hval
  have hc' : c' = { s.established C k heard c with hsRead := c'.hsRead } := by
    rw [show s.established C k heard c = _ from hstate]
  exact ⟨c'.hsRead, congrArg _ hc'⟩

end HonestServer

/-! ## The handshake -/

/-- The calls of a handshake, with the records of the server: a caller computes the shared
secret between the methods. -/
def handshake (C : Crypto κ UInt8) (k : Crates) (secret : κ)
    (hello serverHello flight : Bytes) : Method (Tls13Outcome × Bytes) := do
  setClientHello hello
  let share ← processServerHello k serverHello
  deriveHandshakeKeys k (C.x25519 secret share).toList
  let outcome ← processServerFlight k .aarch64 flight
  let finished ← clientFinishedRecord k
  pure (outcome, finished)

/-- A ClientHello of `build_client_hello` is heard. -/
theorem hear_buildClientHello {sni : Option String} {pub random : List.Vector UInt8 32}
    {sid hello : Bytes} (hhello : Tls.buildClientHello sni pub random sid = .ok hello)
    (hlen : hello.length < 5 + 65536) : hear hello = some ⟨hello.drop 5, sid, pub⟩ := by
  rw [hear, Tls.parse_build hhello hlen]
  rfl

/-- **Client and server agree.**  A client that sent a ClientHello of
`build_client_hello` and an honest server: however the server divides its flight, the
client accepts it with the server's chain and both application secrets as the server has
them, and the server takes the client's Finished.  Behind it each side reads what the
other sends. -/
theorem handshake_agrees (hC : C.Lawful) (hk : AeadCorrect k) (hs : s.Honest C k) (secret : κ)
    {sni : Option String} {random : List.Vector UInt8 32} {sid hello : Bytes}
    (hhello : Tls.buildClientHello sni (C.publicKey secret) random sid = .ok hello)
    (hlen : hello.length < 5 + 65536) :
    ∃ heard, hear hello = some heard ∧ ∀ pieces : List Piece, (∀ piece ∈ pieces, piece.Fits) →
      pieces.flatMap Piece.bytes = encodeAll (s.flight C k heard) →
      ∃ flight finished c,
        sendPieces k (trafficKeys k s.suite (s.serverHandshake C k heard)) 0 pieces = some flight ∧
        exec (handshake C k secret hello (s.helloRecord C heard) flight.flatten) .new =
          (.ok (s.outcome C k heard, finished), c) ∧
        s.Takes C k heard finished ∧
        (∀ payloads : List Bytes, (∀ data ∈ payloads, data.length ≤ 65518) →
          ∃ records c', exec (payloads.mapM (sealAppRecord k)) c = (.ok records, c') ∧
            Peer.receive k (trafficKeys k s.suite (s.clientApplication C k heard)) 0 records =
              some (payloads.map (CONTENT_APPDATA, ·))) ∧
        ∀ (messages : List Peer.Plaintext) (records : List Bytes),
          Peer.send k (trafficKeys k s.suite (s.serverApplication C k heard)) 0 messages =
            some records →
          ∃ c', exec (records.mapM (openRecord k)) c =
            (.ok (messages.map fun m => (m.type, m.content)), c') := by
  obtain ⟨hsid, paddingLen, -, -, hrecord⟩ := Tls.buildClientHello_eq_ok hhello
  have hlong : 5 ≤ hello.length := by
    rw [hrecord, Tls.length_helloRecord]
    omega
  set heard : Heard := ⟨hello.drop 5, sid, C.publicKey secret⟩ with hheard
  refine ⟨heard, hear_buildClientHello hhello hlen, fun pieces hfits hbytes => ?_⟩
  obtain ⟨flight, hsent⟩ := exists_sendPieces hk
    (trafficKeys k s.suite (s.serverHandshake C k heard)) 0 hfits
  obtain ⟨f, hwire⟩ := exists_division hk hbytes hsent
  -- the client behind the ServerHello and with its handshake keys
  let greeting : Tls13Client := { Tls13Client.new with clientHello := some hello }
  have hgreets : Greets greeting (s.helloRecord C heard) (s.serverHello C heard) (hello.drop 5) :=
    HonestServer.greets_helloRecord hs hsid rfl hlong
  have hserverHello := exec_processServerHello_of_read (k := k) hgreets
    (HonestServer.readServerHello_serverHello hs hsid)
  have hshared : (C.x25519 secret (C.publicKey s.secret)).toList = s.sharedSecret C heard := by
    rw [hC.dh_comm]
    rfl
  let greeted := greeting.greeted k s.suite (hello.drop 5) (s.serverHello C heard).encode
  have hkeys : exec (deriveHandshakeKeys k (s.sharedSecret C heard)) greeted =
      (.ok (), s.keyed C k heard greeting) := by
    have htr : greeted.transcript = some (s.transcript C heard) := rfl
    have hderive := exec_deriveHandshakeKeys (k := k) (c := greeted) rfl htr rfl
      (s.sharedSecret C heard)
    simp only [HonestServer.hashOf_transcript] at hderive
    rw [HonestServer.keyed, HonestServer.masterSecret_eq, HonestServer.serverHandshake,
      HonestServer.clientHandshake, HonestServer.handshakeTraffic_eq,
      HonestServer.handshakeTraffic_eq, HonestServer.handshakeSecret_eq]
    exact hderive
  -- the flight, and the Finished of the client
  have hread : (s.keyed C k heard greeting).hsRead =
      some ((trafficKeys k s.suite (s.serverHandshake C k heard)).at 0) := rfl
  obtain ⟨hsRead, hflight⟩ := HonestServer.exec_processServerFlight_flight
    (c := s.keyed C k heard greeting) hs rfl rfl rfl rfl hread f
  rw [hwire] at hflight
  obtain ⟨finished, hfinished, htakes⟩ := exec_clientFinishedRecord
    (c := { s.established C k heard (s.keyed C k heard greeting) with hsRead }) hk rfl rfl rfl rfl
  simp only [HonestServer.hashOf_update, ← HonestServer.finished_eq] at htakes
  rw [← hshared] at hkeys
  obtain ⟨c, hrun, happWrite, happRead⟩ : ∃ c,
      exec (handshake C k secret hello (s.helloRecord C heard) flight.flatten) .new =
        (.ok (s.outcome C k heard, finished), c) ∧
      c.appWrite = some ((trafficKeys k s.suite (s.clientApplication C k heard)).at 0) ∧
      c.appRead = some ((trafficKeys k s.suite (s.serverApplication C k heard)).at 0) :=
    ⟨_, exec_bind_ok.2 ⟨(), greeting, rfl, exec_bind_ok.2 ⟨_, _, hserverHello,
      exec_bind_ok.2 ⟨(), _, hkeys, exec_bind_ok.2 ⟨_, _, hflight,
        exec_bind_ok.2 ⟨_, _, hfinished, rfl⟩⟩⟩⟩⟩, rfl, rfl⟩
  exact ⟨flight, finished, c, hsent, hrun, htakes,
    fun _ hsized => receive_sealed hk happWrite hsized,
    fun _ _ hsent => open_sent hk happRead hsent⟩

/-! ## A small server -/

/-- The Certificate message with the sample leaf. -/
def sampleChain : CertificateMessage where
  context := []
  entries := [⟨sampleCertificateDer.encode, [], by decide +kernel, by decide +kernel⟩]
  context_lt := by decide
  entries_lt := by decide +kernel

/-- A server with the sample leaf, which signs with the private exponent 7. -/
def sampleServer : HonestServer UInt8 where
  secret := 5
  suite := .aes128GcmSha256
  random := .replicate 32 1
  before := [(0x002b, [3, 4])]
  after := []
  encryptedExtensions := [0, 0]
  certificate := sampleChain
  scheme := .rsaPss .sha256
  sign msg := [UInt8.ofNat (((checksum msg).toNat % 33) ^ 7 % 33)]

theorem honest_sampleServer : sampleServer.Honest Crypto.toy sampleCrates where
  extensions := by
    have hversions : Tls.Extension.Fits (0x002b, ([3, 4] : Bytes)) := ⟨by decide, by decide⟩
    exact List.forall_mem_singleton.2 ⟨hversions, by decide⟩
  block := by decide +kernel
  encryptedExtensions := by decide
  certificate := by decide +kernel
  signature := fun _ => by
    show 1 < 256 ^ 2
    norm_num
  key := by
    refine ⟨sampleCertificateDer, sampleKey, rfl, rfl, by decide +kernel, fun msg => ?_⟩
    have hroots : ∀ x < 33, (x ^ 7 % 33) ^ 3 % 33 = x := by decide
    have hroot := hroots _ (Nat.mod_lt (checksum msg).toNat (by norm_num : 33 > 0))
    have hsmall : ((checksum msg).toNat % 33) ^ 7 % 33 < 256 :=
      (Nat.mod_lt _ (by norm_num)).trans (by norm_num)
    have hvalue : ofBE (sampleServer.sign msg) = ((checksum msg).toNat % 33) ^ 7 % 33 := by
      simp [sampleServer, ofBE, Nat.mod_eq_of_lt hsmall]
    show decide (ofBE (sampleServer.sign msg) ^ 3 % 33 = (checksum msg).toNat % 33) = true
    rw [hvalue, hroot, decide_eq_true_iff]

theorem handshake_agrees_sample : ∃ hello heard flight finished c,
    Tls.buildClientHello (some "a.example") (Crypto.toy.publicKey 3) (.replicate 32 4)
      (List.replicate 32 6) = .ok hello ∧ hear hello = some heard ∧
    exec (handshake Crypto.toy sampleCrates 3 hello
        (sampleServer.helloRecord Crypto.toy heard) flight) .new =
      (.ok (sampleServer.outcome Crypto.toy sampleCrates heard, finished), c) ∧
    sampleServer.Takes Crypto.toy sampleCrates heard finished := by
  have hhost : (utf8 "a.example").length = 9 := by rw [length_utf8]; rfl
  have hshort : (utf8 "a.example").length < 64000 := by omega
  have hfault : (utf8 "a.example").length ≠ 141 := by omega
  have hsid : (List.replicate 32 (6 : UInt8)).length ≤ 32 := by simp
  obtain ⟨hello, hbuild, hlen⟩ := Tls.buildClientHello_ok (Crypto.toy.publicKey 3)
    (List.Vector.replicate 32 4) hshort hfault hsid
  obtain ⟨heard, hheard, hall⟩ := handshake_agrees Crypto.toy_lawful aeadCorrect_sampleCrates
    honest_sampleServer 3 hbuild hlen
  have hsmall :
      (encodeAll (sampleServer.flight Crypto.toy sampleCrates heard)).length ≤ 2 ^ 14 := by
    have hcert : sampleChain.encode.length = 50 := by decide +kernel
    simp [HonestServer.flight, HonestServer.authenticated, HonestServer.signed, encodeAll,
      HonestServer.certificateVerify, HonestServer.finished_eq, HonestServer.signature,
        sampleServer, hcert, HashAlg.len, CipherSuite.hash]
  let pieces : List Piece := [.changeCipherSpec,
    .fragment (encodeAll (sampleServer.flight Crypto.toy sampleCrates heard)) 0]
  have hfits : ∀ piece ∈ pieces, piece.Fits := by
    simpa [pieces, Piece.Fits] using hsmall
  obtain ⟨flight, finished, c, -, hrun, htakes, -⟩ :=
    hall pieces hfits (by simp [pieces, Piece.bytes])
  exact ⟨hello, heard, flight.flatten, finished, c, hbuild, hheard, hrun, htakes⟩

end ShadeVpn.Tls13
