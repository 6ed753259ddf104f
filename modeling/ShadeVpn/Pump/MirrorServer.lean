import ShadeVpn.Lib.Relay
import ShadeVpn.Pump.Inbound

/-!
# The record loop of the honest server

`run_server` of `native/src/test_server.rs` from its record loop on: open a data
record, answer it, seal the answer.  Without VLESS the answer is the record itself;
with VLESS the server takes the Vision stream off, reads the request header from
the first content, answers with the response header, and echoes the payloads.

* `Hears` — how a server reads a client's frame: a packet, behind the request header
  if that is still to come.
* `Told` — how a client reads a server's frame.
* `turn_hears` — a turn of the loop on such a frame sends the packet back.
-/

namespace ShadeVpn.Pump

open Octets Checked Transduce Handshake Transport Vless

/-! ## State -/

/-- `VlessRequestObserved`. -/
structure VlessRequestObserved where
  uuid : Uuid
  flow : Option String
  command : UInt8
  address : Address
  port : UInt16
  payloadBytes : UInt64
  deriving DecidableEq

/-- The `Err` strings of the record loop. -/
inductive LoopError where
  | recordFailedToOpen
  | visionUnpad (e : VlessError)
  | requestHeader (e : VlessError)
  | uuidMismatch
  | resealFailed
  | writeRecord (e : FrameError)
  | recordLoop (e : FrameError)
  deriving DecidableEq, Repr

/-- The locals of the record loop, what it has put on the socket, and how it ended
if it did: with the observation, or with an error. -/
structure RecordLoop where
  seqIn : UInt64
  seqOut : UInt64
  vlessReader : Option VisionReader
  vlessWriter : Option VisionWriter
  vlessRequest : Option VlessRequestObserved
  payloadBytes : UInt64
  wire : Bytes
  ended : Option (Except (Stop LoopError) Unit)
  deriving DecidableEq

/-- `ServerObservation`. -/
structure ServerObservation where
  sni : String
  sessionAuthenticated : Bool
  recordsMirrored : UInt64
  vlessRequest : Option VlessRequestObserved
  deriving DecidableEq

/-- The loop in the mode of `expect_vless_uuid`, when its counters stand at `seqIn`
and `seqOut`; `run_server` enters it at zero. -/
def RecordLoop.start (expectVlessUuid : Option Uuid) (seqIn seqOut : UInt64) : RecordLoop where
  seqIn := seqIn
  seqOut := seqOut
  vlessReader := expectVlessUuid.map .new
  vlessWriter := expectVlessUuid.map .new
  vlessRequest := none
  payloadBytes := 0
  wire := []
  ended := none

/-- What `run_server` returns after a clean close. -/
def RecordLoop.observation (s : RecordLoop) (session : ServerSession UInt8) :
    ServerObservation where
  sni := session.sni
  sessionAuthenticated := true
  recordsMirrored := s.seqOut
  vlessRequest := s.vlessRequest

/-! ## One record -/

/-- `a + b` on `u64`. -/
def addU64 (a b : UInt64) : Except (Stop LoopError) UInt64 :=
  if a.toNat + b.toNat < 2 ^ 64 then .ok (a + b) else .error .addOverflow

/-- `map_err` on an error of the VLESS code. -/
def mapErr (f : VlessError → LoopError) : Stop VlessError → Stop LoopError
  | .err e => .err (f e)
  | .addOverflow => .addOverflow
  | .subOverflow => .subOverflow
  | .shlOverflow => .shlOverflow
  | .panic => .panic

variable {κ : Type} (C : Crypto κ UInt8) (session : ServerSession UInt8) (t : Target)
  (expectVlessUuid : Option Uuid)

/-- The first content: the request header is read off it, and the response header
goes in front of what is behind it. -/
def RecordLoop.request (s : RecordLoop) (unpadded : Bytes) :
    Except (Stop LoopError) (Bytes × RecordLoop) := do
  let hlen ← (requestHeaderLen t unpadded).mapError (mapErr .requestHeader)
  let header ← slice unpadded 0 hlen
  let req ← (parseRequestHeader t header).mapError (mapErr .requestHeader)
  let expected ← Checked.unwrap expectVlessUuid
  if req.uuid ≠ expected then .error (.err .uuidMismatch)
  else
    let payloadBytes ← addU64 s.payloadBytes (UInt64.ofNat (unpadded.length - hlen))
    .ok (buildResponseHeader ++ unpadded.drop hlen,
      { s with
        payloadBytes
        vlessRequest := some {
          uuid := req.uuid
          flow := req.flow
          command := req.command
          address := req.address
          port := req.port
          payloadBytes } })

/-- Later contents are counted and echoed. -/
def RecordLoop.payload (s : RecordLoop) (v : VlessRequestObserved) (unpadded : Bytes) :
    Except (Stop LoopError) (Bytes × RecordLoop) := do
  let payloadBytes ← addU64 s.payloadBytes (UInt64.ofNat unpadded.length)
  .ok (unpadded, { s with payloadBytes, vlessRequest := some { v with payloadBytes } })

/-- `let payload = if vless_request.is_none() { .. } else { .. }`. -/
def RecordLoop.content (s : RecordLoop) (unpadded : Bytes) :
    Except (Stop LoopError) (Bytes × RecordLoop) :=
  match s.vlessRequest with
  | none => s.request t expectVlessUuid unpadded
  | some v => s.payload v unpadded

/-- `let reply = match (&mut vless_reader, &mut vless_writer) { .. }`. -/
def RecordLoop.reply (s : RecordLoop) (opened : Bytes) (draw : ℕ → ℕ) :
    Except (Stop LoopError) (Bytes × RecordLoop) :=
  match s.vlessReader, s.vlessWriter with
  | some reader, some writer => do
    let (unpadded, reader) ← match reader.unpad opened with
      | (.error e, _) => .error (mapErr .visionUnpad e)
      | (.ok unpadded, reader) => .ok (unpadded, reader)
    let s := { s with vlessReader := some reader }
    let (payload, s) ← s.content t expectVlessUuid unpadded
    let (out, writer) ← (writer.pad draw payload false true).mapError (mapErr .visionUnpad)
    .ok (out, { s with vlessWriter := some writer })
  | _, _ => .ok (opened, s)

section Loop

-- the loop looks at the symbols of a frame only to open it, and seals what it makes of it
variable {σ : Type} (opens : UInt64 → List σ → Option Bytes)
  (seals : UInt64 → Bytes → Option Bytes)

/-- The loop body on a frame, up to the sealed answer. -/
def RecordLoop.answerOf (s : RecordLoop) (frame : List σ) (draw : ℕ → ℕ) :
    Except (Stop LoopError) (Bytes × RecordLoop) := do
  let opened ← okOr .recordFailedToOpen (opens s.seqIn frame)
  let seqIn ← addU64 s.seqIn 1
  let (reply, s) ← RecordLoop.reply t expectVlessUuid { s with seqIn } opened draw
  let resealed ← okOr .resealFailed (seals s.seqOut reply)
  let seqOut ← addU64 s.seqOut 1
  .ok (resealed, { s with seqOut })

/-- The loop body on a frame.  `io` is the outcome of the socket write. -/
def RecordLoop.frameOf (s : RecordLoop) (frame : List σ) (draw : ℕ → ℕ) (io : Option ℕ) :
    RecordLoop :=
  if frame = [] then s
  else
    match s.answerOf t expectVlessUuid opens seals frame draw with
    | .error e => { s with ended := some (.error e) }
    | .ok (resealed, s) =>
      match writeFrame resealed io with
      | (.ok (), bytes) => { s with wire := s.wire ++ bytes }
      | (.error e, bytes) =>
        { s with wire := s.wire ++ bytes, ended := some (.error (.err (.writeRecord e))) }

end Loop

def RecordLoop.answer (s : RecordLoop) (frame : Bytes) (draw : ℕ → ℕ) :
    Except (Stop LoopError) (Bytes × RecordLoop) :=
  s.answerOf t expectVlessUuid (session.openRecord C) (session.sealRecord C) frame draw

def RecordLoop.frame (s : RecordLoop) (frame : Bytes) (draw : ℕ → ℕ) (io : Option ℕ) :
    RecordLoop :=
  s.frameOf t expectVlessUuid (session.openRecord C) (session.sealRecord C) frame draw io

theorem RecordLoop.frame_eq (s : RecordLoop) (frame : Bytes) (draw : ℕ → ℕ) (io : Option ℕ) :
    s.frame C session t expectVlessUuid frame draw io =
      if frame = [] then s
      else
        match s.answer C session t expectVlessUuid frame draw with
        | .error e => { s with ended := some (.error e) }
        | .ok (resealed, s) =>
          match writeFrame resealed io with
          | (.ok (), bytes) => { s with wire := s.wire ++ bytes }
          | (.error e, bytes) =>
            { s with wire := s.wire ++ bytes, ended := some (.error (.err (.writeRecord e))) } :=
  rfl

/-! ## Reading the client -/

/-- How far a server is in what a client sends: its sequence number, its reader, and
whether the request header is still to come. -/
structure Hearing where
  seq : UInt64
  reader : Option VisionReader
  requestAhead : Bool

/-- How far the loop is. -/
def RecordLoop.hearing (s : RecordLoop) : Hearing :=
  ⟨s.seqIn, s.vlessReader, s.vlessReader.isSome && s.vlessRequest.isNone⟩

/-- A server reads a frame of the client as a packet, behind the request header if
that is still to come. -/
structure Hears (config : PumpConfig) (r : Hearing) (frame packet : Bytes) (r' : Hearing) :
    Prop where
  fits : frame.length ≤ MAX_FRAME_LEN
  nonempty : frame ≠ []
  small : packet.length ≤ READ_BUF
  content : ∃ plaintext, session.openRecord C r.seq frame = some plaintext ∧
    unwrapRecord r.reader plaintext
      = some ((if r.requestAhead then pending config.vlessOut else []) ++ packet, r'.reader)
  seq : r'.seq = r.seq + 1
  requestAhead : r'.requestAhead = false

/-! ## Reading the server -/

/-- How far a client is in what a server sends. -/
structure Listening where
  seq : UInt64
  vlessIn : Option VlessIn

/-- How far the inbound half is. -/
def Inbound.listening (s : Inbound) : Listening := ⟨s.seqIn, s.vlessIn⟩

/-- A client reads a frame of the server as a packet. -/
structure Told (st : HandshakeState κ UInt8) (r : Listening) (frame packet : Bytes)
    (r' : Listening) : Prop where
  fits : frame.length ≤ MAX_FRAME_LEN
  nonempty : frame ≠ []
  content : ∃ plaintext, st.openRecord C r.seq frame = .ok plaintext ∧
    unwrap r.vlessIn plaintext = (.ok packet, r'.vlessIn)
  seq : r'.seq = r.seq + 1

/-- The client's stream is in step with the server's: it has seen the response header
exactly if the server has sent it. -/
def Answers : RecordLoop → Option VlessIn → Prop
  | s, none => s.vlessWriter = none
  | s, some v => ∃ w, s.vlessWriter = some w ∧ InStep w v.reader ∧
      v.responseSeen = s.vlessRequest.isSome

/-- The identity a server in the mode of this configuration expects. -/
def PumpConfig.expects (config : PumpConfig) : Option Uuid := config.vless.map (·.uuid)

/-- What the server has observed of a request. -/
def VlessParams.observed (p : VlessParams) (payloadBytes : UInt64) : VlessRequestObserved where
  uuid := p.request.uuid
  flow := p.request.flow
  command := p.request.command
  address := p.request.address
  port := p.request.port
  payloadBytes := payloadBytes

/-- What the loop has of the request is what the client asked for. -/
structure RecordLoop.Serves (s : RecordLoop) (config : PumpConfig) : Prop where
  reader : s.vlessReader.isSome = config.vless.isSome
  writer : s.vlessWriter.isSome = config.vless.isSome
  request : ∀ v, s.vlessRequest = some v → ∃ p, config.vless = some p ∧
    v = p.observed s.payloadBytes

/-- The bytes of a packet as the loop counts them: only with VLESS. -/
def PumpConfig.counted (config : PumpConfig) (packet : Bytes) : UInt64 :=
  if config.vless.isSome then UInt64.ofNat packet.length else 0

/-- The loop behind a packet, with its streams behind it. -/
def RecordLoop.heard (s : RecordLoop) (config : PumpConfig) (packet : Bytes)
    (vlessReader : Option VisionReader) (vlessWriter : Option VisionWriter) : RecordLoop :=
  { s with
    vlessReader, vlessWriter
    payloadBytes := s.payloadBytes + config.counted packet
    vlessRequest := config.vless.map fun p =>
      p.observed (s.payloadBytes + config.counted packet) }

/-! ## One turn -/

variable {C session t}

theorem addU64_eq_ok {a b : UInt64} (h : a.toNat + b.toNat < 2 ^ 64) : addU64 a b = .ok (a + b) :=
  if_pos h

/-- The response header in front of the first payload is what a client expects. -/
theorem parseResponseHeader_built (payload : Bytes) :
    parseResponseHeader (buildResponseHeader ++ payload) VERSION = .ok () := by
  rw [parseResponseHeader, if_neg]
  simp [buildResponseHeader, VERSION]

/-- **The request.**  Behind a header the client built the server finds the packet,
and it observes what the client asked for. -/
theorem request_built {p : VlessParams} {config : PumpConfig} (hp : config.vless = some p)
    (hconfig : config.Fits) {s : RecordLoop} {packet : Bytes}
    (hfit : s.payloadBytes.toNat + packet.length < 2 ^ 64) :
    s.request t (some p.uuid) (pending config.vlessOut ++ packet)
      = .ok (buildResponseHeader ++ packet,
          { s with
            payloadBytes := s.payloadBytes + UInt64.ofNat packet.length
            vlessRequest := some (p.observed (s.payloadBytes + UInt64.ofNat packet.length)) }) := by
  obtain ⟨hflow, haddr⟩ := hconfig p hp
  have hheader : pending config.vlessOut
      = requestHeader p.uuid p.flow p.command p.address p.port := by rw [pending_start, hp]
  have hlen := requestHeaderLen_requestHeader t p.uuid p.command p.port packet hflow haddr
  have hparse := parseRequestHeader_requestHeader t p.uuid p.command p.port [] hflow haddr
  rw [List.append_nil] at hparse
  have hpacket : (UInt64.ofNat packet.length).toNat = packet.length := by
    rw [UInt64.toNat_ofNat']
    exact Nat.mod_eq_of_lt (by omega)
  have hadd : addU64 s.payloadBytes (UInt64.ofNat packet.length)
      = .ok (s.payloadBytes + UInt64.ofNat packet.length) := addU64_eq_ok (by rwa [hpacket])
  rw [hheader, RecordLoop.request, hlen]
  simp only [Except.mapError, bind, Except.bind]
  rw [slice_eq_ok (Nat.zero_le _) (by simp)]
  simp only [List.take_left', List.drop_zero, hparse, Checked.unwrap, readBack, ne_eq,
    not_true_eq_false, if_false, List.length_append, Nat.add_sub_cancel_left, hadd,
    List.drop_left']
  rfl

/-- An answer of a VLESS server is read by a client in step with it. -/
theorem pad_answered {w : VisionWriter} {v : VlessIn} (hstep : InStep w v.reader) (draw : ℕ → ℕ)
    {packet : Bytes} (hsmall : packet.length ≤ READ_BUF) :
    ∃ out w' reader, w.pad draw ((if v.responseSeen then [] else buildResponseHeader) ++ packet)
        false true = .ok (out, w') ∧ out.length ≤ 4080 ∧
      v.unwrap out = (.ok packet, ⟨true, reader⟩) ∧ InStep w' reader := by
  obtain ⟨out, w', reader, hpad, hunpad, hstep'⟩ :=
    hstep.pad draw ((if v.responseSeen then [] else buildResponseHeader) ++ packet) false true
  have hread : READ_BUF = 1500 := rfl
  have hle := VisionWriter.length_pad_le hpad
  have hcontent : ((if v.responseSeen then [] else buildResponseHeader) ++ packet).length
      ≤ 1504 := by
    rw [List.length_append]
    split
    · simp only [List.length_nil]
      omega
    · simp only [buildResponseHeader, List.length_cons, List.length_nil]
      omega
  refine ⟨out, w', reader, hpad, ?_, ?_, hstep'⟩
  · have hframes : ((if v.responseSeen then [] else buildResponseHeader) ++ packet).length
        / MAX_FRAME_BODY = 0 := Nat.div_eq_of_lt (by rw [MAX_FRAME_BODY_eq]; omega)
    rw [hframes, MAX_FRAME_BODY_eq] at hle
    omega
  · rw [VlessIn.unwrap, hunpad]
    cases hseen : v.responseSeen with
    | true => simp [← hseen]
    | false =>
      have hparse := parseResponseHeader_built packet
      simp only [Bool.false_eq_true, if_false, hparse]
      rfl

/-- Behind the header the server expects, or without one, the content is the packet; it
goes on behind the response header that is due. -/
theorem content_built {p : VlessParams} {config : PumpConfig} (hp : config.vless = some p)
    (hconfig : config.Fits) {s : RecordLoop} (hserves : s.Serves config) {packet : Bytes}
    (hfit : s.payloadBytes.toNat + packet.length < 2 ^ 64) :
    s.content t config.expects
        ((if s.vlessRequest.isNone then pending config.vlessOut else []) ++ packet)
      = .ok ((if s.vlessRequest.isSome then [] else buildResponseHeader) ++ packet,
          s.heard config packet s.vlessReader s.vlessWriter) := by
  have hpacket : (UInt64.ofNat packet.length).toNat = packet.length := by
    rw [UInt64.toNat_ofNat']
    exact Nat.mod_eq_of_lt (by omega)
  rw [RecordLoop.content, RecordLoop.heard, PumpConfig.counted, PumpConfig.expects, hp]
  cases hq : s.vlessRequest with
  | none => exact request_built hp hconfig hfit
  | some q =>
    obtain ⟨p', hp', rfl⟩ := hserves.request q hq
    rw [hp, Option.some.injEq] at hp'
    subst hp'
    dsimp only
    rw [RecordLoop.payload, Option.isNone_some, if_neg (by simp), List.nil_append,
      addU64_eq_ok (by rwa [hpacket])]
    rfl

/-- **The reply.**  To a plaintext that carries a packet the loop replies with a
plaintext in which a client in step with it finds the packet. -/
theorem reply_heard {config : PumpConfig} (hconfig : config.Fits) {s : RecordLoop}
    {v : Option VlessIn} (hserves : s.Serves config) (hanswers : Answers s v)
    {plaintext packet : Bytes} {reader : Option VisionReader}
    (hunwrap : unwrapRecord s.vlessReader plaintext
      = some ((if s.hearing.requestAhead then pending config.vlessOut else []) ++ packet, reader))
    (hsmall : packet.length ≤ READ_BUF)
    (hfit : s.payloadBytes.toNat + packet.length < 2 ^ 64) (draw : ℕ → ℕ) :
    ∃ reply writer v', s.reply t config.expects plaintext draw
        = .ok (reply, s.heard config packet reader writer) ∧ reply.length ≤ 4080 ∧
      unwrap v reply = (.ok packet, v') ∧
      Answers (s.heard config packet reader writer) v' ∧
      reader.isSome = config.vless.isSome ∧ writer.isSome = config.vless.isSome := by
  have hread : READ_BUF = 1500 := rfl
  have hreader := hserves.reader
  have hwriter := hserves.writer
  cases hvless : config.vless with
  | none =>
    -- mirror mode: the record goes back as it is
    rw [hvless] at hreader hwriter
    have hr : s.vlessReader = none := by simpa using hreader
    have hw : s.vlessWriter = none := by simpa using hwriter
    have hv : v = none := by
      cases v with
      | none => rfl
      | some v =>
        obtain ⟨w, hw', -⟩ := hanswers
        rw [hw] at hw'
        cases hw'
    have hplain : plaintext = packet ∧ reader = none := by
      simpa [RecordLoop.hearing, hr, unwrapRecord, eq_comm] using hunwrap
    obtain ⟨rfl, rfl⟩ := hplain
    subst hv
    have hrequest : s.vlessRequest = none := by
      cases hq : s.vlessRequest with
      | none => rfl
      | some q =>
        obtain ⟨p, hp, -⟩ := hserves.request q hq
        rw [hvless] at hp
        cases hp
    have hheard : s.heard config plaintext none none = s := by
      rw [← hr, ← hw, RecordLoop.heard, hvless, PumpConfig.counted, hvless]
      simp [← hrequest]
    refine ⟨plaintext, none, none, ?_, by omega, rfl, by rw [hheard]; exact hw, rfl, rfl⟩
    rw [hheard, RecordLoop.reply, hr]
  | some p =>
    rw [hvless] at hreader hwriter
    obtain ⟨r, hr⟩ := Option.isSome_iff_exists.1 hreader
    obtain ⟨w, hw⟩ := Option.isSome_iff_exists.1 hwriter
    cases v with
    | none =>
      rw [Answers, hw] at hanswers
      cases hanswers
    | some v =>
      obtain ⟨w', hw', hstep, hseen⟩ := hanswers
      rw [hw, Option.some.injEq] at hw'
      subst hw'
      obtain ⟨out, w', reader', hpad, hlen, hback, hstep'⟩ := pad_answered hstep draw hsmall
      obtain ⟨r', hunpad, hrest⟩ : ∃ r', r.unpad plaintext = (.ok ((if s.hearing.requestAhead
          then pending config.vlessOut else []) ++ packet), r') ∧ reader = some r' := by
        rw [hr, unwrapRecord] at hunwrap
        split at hunwrap
        · next content r' hunpad =>
          simp only [Option.some.injEq, Prod.mk.injEq] at hunwrap
          exact ⟨r', by rw [hunpad, hunwrap.1], hunwrap.2.symm⟩
        · cases hunwrap
      subst hrest
      refine ⟨out, some w', some ⟨true, reader'⟩, ?_, hlen, ?_, ⟨w', rfl, hstep', ?_⟩, rfl, rfl⟩
      · have hserves' : ({ s with vlessReader := some r' } : RecordLoop).Serves config :=
          ⟨by rw [hvless]; rfl, hserves.writer, hserves.request⟩
        have hbuilt := content_built (t := t) hvless hconfig hserves' hfit
        have hahead : s.hearing.requestAhead = s.vlessRequest.isNone := by
          simp [RecordLoop.hearing, hr]
        rw [hseen] at hpad
        rw [hw] at hbuilt
        rw [RecordLoop.reply, hr, hw]
        simp only [hunpad, bind, Except.bind, hahead, hbuilt, hpad, Except.mapError]
        rfl
      · simp [unwrap, hback]
      · simp [RecordLoop.heard, hvless]

/-- The counters leave room for one more packet. -/
structure RecordLoop.Room (s : RecordLoop) (packet : Bytes) : Prop where
  seqIn : s.seqIn.toNat + 1 < 2 ^ 64
  seqOut : s.seqOut.toNat + 1 < 2 ^ 64
  payloadBytes : s.payloadBytes.toNat + packet.length < 2 ^ 64

/-- The loop behind a packet it has answered. -/
def RecordLoop.answered (s : RecordLoop) (config : PumpConfig) (packet : Bytes)
    (vlessReader : Option VisionReader) (vlessWriter : Option VisionWriter) : RecordLoop :=
  { s.heard config packet vlessReader vlessWriter with
    seqIn := s.seqIn + 1
    seqOut := s.seqOut + 1 }

section Turn

variable {st : HandshakeState κ UInt8} {config : PumpConfig} {s : RecordLoop} {v : Option VlessIn}
  {frame packet : Bytes} {r' : Hearing}

/-- What the loop has of the request stays what the client asked for. -/
theorem serves_answered (vlessReader : Option VisionReader) (vlessWriter : Option VisionWriter)
    (hreader : vlessReader.isSome = config.vless.isSome)
    (hwriter : vlessWriter.isSome = config.vless.isSome) :
    (s.answered config packet vlessReader vlessWriter).Serves config := by
  refine ⟨hreader, hwriter, ?_⟩
  intro q hq
  obtain ⟨p, hp, rfl⟩ := Option.map_eq_some_iff.1 hq
  exact ⟨p, hp, rfl⟩

/-- **The answer** to a frame that carries a packet is a record the client reads as
that packet. -/
theorem answer_heard (hC : C.Lawful) (hpeer : PeeredWith st session) (hconfig : config.Fits)
    (hserves : s.Serves config) (hanswers : Answers s v)
    (h : Hears C session config s.hearing frame packet r') (hroom : s.Room packet)
    (draw : ℕ → ℕ) :
    ∃ resealed writer v', s.answer C session t config.expects frame draw
        = .ok (resealed, s.answered config packet r'.reader writer) ∧
      Told C st ⟨s.seqOut, v⟩ resealed packet ⟨s.seqOut + 1, v'⟩ ∧
      Answers (s.answered config packet r'.reader writer) v' ∧
      (s.answered config packet r'.reader writer).Serves config ∧
      (s.answered config packet r'.reader writer).hearing = r' := by
  obtain ⟨plaintext, hopen, hunwrap⟩ := h.content
  have hopen' : session.openRecord C s.seqIn frame = some plaintext := hopen
  have hserves' : ({ s with seqIn := s.seqIn + 1 } : RecordLoop).Serves config :=
    ⟨hserves.reader, hserves.writer, hserves.request⟩
  obtain ⟨reply, writer, v', hreply, hlen, hback, hanswers', hreader, hwriter⟩ :=
    reply_heard (t := t) hconfig (v := v) hserves' (by cases v <;> exact hanswers) hunwrap h.small
      hroom.payloadBytes draw
  have hmax : MAX_FRAME_LEN = 70000 := rfl
  obtain ⟨resealed, hseal⟩ := hC.encrypt_ok session.sendKey
    (deriveNonce C session.sessionId s.seqOut .server NONCE_PURPOSE_DATA) [] reply (by simp)
    (hlen.trans (by decide))
  have hresealed : resealed.length = reply.length + 16 := hC.encrypt_length hseal
  have hsealed : session.sealRecord C s.seqOut reply = some resealed := hseal
  refine ⟨resealed, writer, v', ?_,
    ⟨by omega, ?_, ⟨reply, hpeer.open_sealed hC hsealed, hback⟩, rfl⟩, ?_,
    serves_answered _ _ hreader hwriter, ?_⟩
  · rw [RecordLoop.answer, RecordLoop.answerOf, hopen', addU64_eq_ok hroom.seqIn]
    have hseal' : session.sealRecord C (RecordLoop.heard { s with seqIn := s.seqIn + 1 } config
        packet r'.reader writer).seqOut reply = some resealed := hsealed
    have hadd : addU64 (RecordLoop.heard { s with seqIn := s.seqIn + 1 } config packet r'.reader
        writer).seqOut 1 = .ok (s.seqOut + 1) := addU64_eq_ok hroom.seqOut
    simp only [okOr, bind, Except.bind, hreply, hseal', hadd]
    rfl
  · rintro rfl
    simp at hresealed
  · cases v' <;> exact hanswers'
  · obtain ⟨seq, reader, ahead⟩ := r'
    obtain ⟨-, -, -, -, rfl, rfl⟩ := h
    have hnone : (reader.isSome && (config.vless.map fun p =>
        p.observed (s.payloadBytes + config.counted packet)).isNone) = false := by
      rw [show reader.isSome = config.vless.isSome from hreader]
      cases config.vless <;> rfl
    simp only [RecordLoop.hearing, RecordLoop.answered, RecordLoop.heard, hnone]

/-- **A turn of the loop** on a frame that carries a packet puts one record on the
socket that the client reads as that packet, or the front of one if the socket fails. -/
theorem frame_heard (hC : C.Lawful) (hpeer : PeeredWith st session) (hconfig : config.Fits)
    (hserves : s.Serves config) (hanswers : Answers s v)
    (h : Hears C session config s.hearing frame packet r') (hroom : s.Room packet)
    (draw : ℕ → ℕ) :
    ∃ resealed writer v', Told C st ⟨s.seqOut, v⟩ resealed packet ⟨s.seqOut + 1, v'⟩ ∧
      Answers (s.answered config packet r'.reader writer) v' ∧
      (s.answered config packet r'.reader writer).Serves config ∧
      (s.answered config packet r'.reader writer).hearing = r' ∧
      s.frame C session t config.expects frame draw none
        = { s.answered config packet r'.reader writer with
            wire := s.wire ++ frameBytes resealed } ∧
      ∀ n, s.frame C session t config.expects frame draw (some n)
        = { s.answered config packet r'.reader writer with
            wire := s.wire ++ (frameBytes resealed).dropLast.take n
            ended := some (.error (.err (.writeRecord .io))) } := by
  obtain ⟨resealed, writer, v', hanswer, htold, hanswers', hserves', hhearing⟩ :=
    answer_heard (t := t) hC hpeer hconfig hserves hanswers h hroom draw
  refine ⟨resealed, writer, v', htold, hanswers', hserves', hhearing, ?_, fun n => ?_⟩
  · simp only [RecordLoop.frame_eq, if_neg h.nonempty, hanswer, writeFrame_ok htold.fits]
    rfl
  · simp only [RecordLoop.frame_eq, if_neg h.nonempty, hanswer, writeFrame_fail htold.fits]
    rfl

end Turn

end ShadeVpn.Pump
