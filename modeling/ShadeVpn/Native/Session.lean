import ShadeVpn.Pump.Inbound

/-!
# The native session

The statics and the operations of `native/src/lib.rs`, with the shared state of
`TunnelPump` behind them: connect, complete, probe, start and stop of the pump,
disconnect, and the turns of the two pump threads in between.  An operation
holds the session lock, so it is one step; a turn of a pump thread is one step
too.  Every outcome of the socket, of the TUN and of the calls that duplicate a
handle is an argument of the step it decides.

An `Arc<HandshakeState>` is modelled by the state itself with the number of the
connect that made it: a completed state never changes, and only completed states
are handed on.  A step reports the records it seals and opens (`Effect`); `World`
keeps the log of them.
-/

namespace ShadeVpn.Native

open Octets Checked Handshake Transport Vless Pump

/-! ## State -/

/-- The `HandshakeState` of one connect: which one it is, and the session's
`next_out_seq` when it was installed, neither of which the code keeps. -/
structure Handle (κ : Type) where
  id : ℕ
  base : UInt64
  state : HandshakeState κ UInt8

/-- What the two threads of one pump start own: the handshake, the configuration,
the VLESS streams, what went to the socket and to the TUN, and how the loops
ended.  `number` counts the starts. -/
structure PumpThreads (κ : Type) where
  handle : Handle κ
  config : PumpConfig
  number : ℕ
  vlessOut : Option VlessOut
  wire : Bytes
  outExit : Option Exit
  vlessIn : Option VlessIn
  delivered : List Bytes
  inExit : Option Exit

/-- `TunnelInner`, with the threads of the last start.  `halt` says whether the
halt handle is there. -/
structure TunnelPump (κ : Type) where
  running : Bool
  stop : Bool
  alive : ℕ
  stats : PumpStats
  seqOut : UInt64
  seqIn : UInt64
  halt : Bool
  starts : ℕ
  threads : Option (PumpThreads κ)

/-- `Session` and `VLESS_TUNNEL`.  `created` counts the handshake states made. -/
structure Session (κ : Type) where
  handshake : Option (Handle κ)
  pump : TunnelPump κ
  nextOutSeq : UInt64
  nextInSeq : UInt64
  socket : Bool
  vlessTunnel : Option VlessParams
  created : ℕ

variable {κ : Type}

/-- `TunnelPump::new`. -/
def TunnelPump.new : TunnelPump κ where
  running := false
  stop := false
  alive := 0
  stats := .zero
  seqOut := 0
  seqIn := 0
  halt := false
  starts := 0
  threads := none

/-- The session `with_session` makes on the first call. -/
def Session.new : Session κ where
  handshake := none
  pump := .new
  nextOutSeq := 0
  nextInSeq := 0
  socket := false
  vlessTunnel := none
  created := 0

/-! ## Results and effects -/

/-- The `reason` of a refused operation.  What the operating system says is an
argument. -/
inductive SessionError where
  | handshakeNotCompleted
  | socketNotEstablished
  | socketClone (os : String)
  | alreadyRunning
  | handshake (e : HandshakeError)
  | probeSend (e : FrameError)
  | probeRead (e : FrameError)
  | probeClosed
  | probeMismatch
  | notBase64
  | noHandshake
  | unreached (reason : String)
  deriving DecidableEq, Repr

/-- Who sealed a record: a probe, whose socket write succeeded or not, or the pump. -/
inductive Origin where
  | probe (written : Bool)
  | packet
  deriving DecidableEq, Repr

/-- A successful `seal_record`: the handshake state, the sequence number, who
sealed it after how many pump starts, and what. -/
structure Sealed where
  handle : ℕ
  seq : UInt64
  origin : Origin
  start : ℕ
  plaintext : Bytes
  deriving DecidableEq

/-- What a step does with records. -/
inductive Effect where
  | sealed (record : Sealed)
  | opened (handle : ℕ) (plaintext : Bytes)
  deriving DecidableEq

/-- The outcome of a step: the session, what happened to records, the result. -/
structure Outcome (κ : Type) where
  session : Session κ
  effects : List Effect
  result : Except SessionError Unit

variable (C : Crypto κ UInt8)

/-! ## Connect, complete, disconnect -/

/-- What `run_connect` reads of a profile, with the secret and the time it draws. -/
structure ConnectRequest (κ : Type) where
  params : HandshakeParams UInt8
  serverPort : UInt16
  uuid : Uuid
  ephemeral : κ
  unixTime : UInt32

/-- The VLESS identity `run_connect` captures for the pump. -/
def ConnectRequest.vlessParams (r : ConnectRequest κ) : VlessParams where
  uuid := r.uuid
  flow := some "xtls-rprx-vision"
  command := CMD_TCP
  address := .domain r.params.sni
  port := r.serverPort

/-- `run_connect`.  `io` is `some reason` when the profile, the connection or the
exchange of the hello for a response fails. -/
def Session.connect (s : Session κ) (r : ConnectRequest κ) (io : Option String) : Outcome κ :=
  match io with
  | some reason => ⟨s, [], .error (.unreached reason)⟩
  | none =>
    match initiate C r.params r.ephemeral r.unixTime with
    | .error (.err e) => ⟨s, [], .error (.handshake e)⟩
    | .error _ => ⟨s, [], .error (.unreached "panic")⟩
    | .ok state =>
      ⟨{ s with
          handshake := some ⟨s.created, s.nextOutSeq, state⟩
          socket := true
          vlessTunnel := some r.vlessParams
          created := s.created + 1 }, [], .ok ()⟩

/-- `TunnelPump::stop`. -/
def TunnelPump.halted (p : TunnelPump κ) : TunnelPump κ := { p with stop := true, halt := false }

/-- `teardown_session`. -/
def Session.teardown (s : Session κ) : Session κ :=
  { s with
    pump := s.pump.halted
    handshake := none
    socket := false
    nextOutSeq := 0
    nextInSeq := 0
    vlessTunnel := none }

/-- `nativeCompleteHandshake`, for the decoded response if it was base64. -/
def Session.complete (s : Session κ) (response : Option Bytes) : Outcome κ :=
  match response, s.handshake with
  | some bytes, some h =>
    match h.state.complete C bytes with
    | (.ok (), state) => ⟨{ s with handshake := some { h with state } }, [], .ok ()⟩
    | (.error e, _) => ⟨s.teardown, [], .error (.handshake e)⟩
  | none, _ => ⟨s, [], .error .notBase64⟩
  | some _, none => ⟨s, [], .error .noHandshake⟩

/-! ## The data-plane probe -/

def PROBE : Bytes := utf8 "shadevpn-dataplane-probe"

/-- The outcomes of the calls a probe makes: the clone of the socket, the write
(as in `writeFrame`), and the frame read back. -/
structure ProbeIo where
  clone : Option String
  write : Option ℕ
  read : Except FrameError (Option Bytes)

/-- `nativeProbeDataPlane`. -/
def Session.probe (s : Session κ) (io : ProbeIo) : Outcome κ :=
  match s.handshake with
  | none => ⟨s, [], .error .handshakeNotCompleted⟩
  | some h =>
    if !h.state.completed then ⟨s, [], .error .handshakeNotCompleted⟩
    else if !s.socket then ⟨s, [], .error .socketNotEstablished⟩
    else
      match io.clone with
      | some os => ⟨s, [], .error (.socketClone os)⟩
      | none =>
        let seq := s.nextOutSeq
        match h.state.sealRecord C seq PROBE with
        | .error e => ⟨s, [], .error (.handshake e)⟩
        | .ok sealed =>
          match (writeFrame sealed io.write).1 with
          | .error e =>
            ⟨s, [.sealed ⟨h.id, seq, .probe false, s.pump.starts, PROBE⟩], .error (.probeSend e)⟩
          | .ok () =>
            let s := { s with nextOutSeq := s.nextOutSeq + 1 }
            let sent := Effect.sealed ⟨h.id, seq, .probe true, s.pump.starts, PROBE⟩
            match io.read with
            | .error e => ⟨s, [sent], .error (.probeRead e)⟩
            | .ok none => ⟨s, [sent], .error .probeClosed⟩
            | .ok (some echoed) =>
              match h.state.openRecord C s.nextInSeq echoed with
              | .error e => ⟨s, [sent], .error (.handshake e)⟩
              | .ok opened =>
                if opened ≠ PROBE then
                  ⟨s, [sent, .opened h.id opened], .error .probeMismatch⟩
                else
                  ⟨{ s with nextInSeq := s.nextInSeq + 1 }, [sent, .opened h.id opened], .ok ()⟩

/-! ## The pump -/

/-- The outcomes of the three clones of the socket at a pump start: the session's,
the outbound half's, and the halt handle's. -/
structure StartIo where
  sessionClone : Option String
  outClone : Option String
  haltClone : Bool

/-- `TunnelPump::start`. -/
def TunnelPump.start (p : TunnelPump κ) (handle : Handle κ) (config : PumpConfig)
    (nextOutSeq nextInSeq : UInt64) (io : StartIo) : Except SessionError Unit × TunnelPump κ :=
  if p.running then (.error .alreadyRunning, p)
  else
    let p := { p with running := true, stop := false, seqOut := nextOutSeq, seqIn := nextInSeq }
    match io.outClone with
    | some os => (.error (.socketClone os), p)
    | none =>
      (.ok (), { p with
        halt := io.haltClone
        alive := 2
        starts := p.starts + 1
        threads := some {
          handle, config
          number := p.starts + 1
          vlessOut := config.vlessOut
          wire := []
          outExit := none
          vlessIn := config.vless.map fun v => .new v.uuid
          delivered := []
          inExit := none } })

/-- `nativeStartTunnelPump`. -/
def Session.startPump (s : Session κ) (blockIpv6 : Bool) (io : StartIo) : Outcome κ :=
  match s.handshake with
  | none => ⟨s, [], .error .handshakeNotCompleted⟩
  | some h =>
    if !h.state.completed then ⟨s, [], .error .handshakeNotCompleted⟩
    else if !s.socket then ⟨s, [], .error .socketNotEstablished⟩
    else
      match io.sessionClone with
      | some os => ⟨s, [], .error (.socketClone os)⟩
      | none =>
        let (result, pump) :=
          s.pump.start h ⟨blockIpv6, s.vlessTunnel⟩ s.nextOutSeq s.nextInSeq io
        ⟨{ s with pump }, [], result⟩

/-- `thread_finished`, for a half that left its loop; a half that panicked does
not come here. -/
def TunnelPump.finish (p : TunnelPump κ) (why : Exit) : TunnelPump κ :=
  if why = .panicked then p
  else if p.alive = 1 then { p with alive := 0, running := false, halt := false }
  else { p with alive := p.alive - 1 }

/-- A half that has just left its loop signs off.  It halts the socket itself when
it leaves because of `halts`. -/
def TunnelPump.signOff (p : TunnelPump κ) (before after : Option Exit) (halts : Exit) :
    TunnelPump κ :=
  match before, after with
  | none, some why => (if why = halts then { p with halt := false } else p).finish why
  | _, _ => p

/-- A turn of the outbound thread.  It may see the stop flag only once it is set;
a turn that passed the check before goes on. -/
def Session.outboundTurn (s : Session κ) (e : TunRead) : Outcome κ :=
  match s.pump.threads with
  | none => ⟨s, [], .ok ()⟩
  | some t =>
    if (match e with | .stopped => !s.pump.stop | _ => false) then ⟨s, [], .ok ()⟩
    else
      let (out, record) := (Outbound.mk s.pump.seqOut t.vlessOut s.pump.stats t.wire t.outExit).turn
        C t.handle.state t.config e
      let pump := { s.pump with
        seqOut := out.seqOut
        stats := out.stats
        threads := some { t with
          vlessOut := out.vlessOut
          wire := out.wire
          outExit := out.exit } }
      let effects := record.toList.map fun r =>
        Effect.sealed ⟨t.handle.id, r.seq, .packet, t.number, r.plaintext⟩
      ⟨{ s with pump := pump.signOff t.outExit out.exit .socketFailed }, effects, .ok ()⟩

/-- A turn of the inbound thread. -/
def Session.inboundTurn (s : Session κ) (e : SocketRead) : Outcome κ :=
  match s.pump.threads with
  | none => ⟨s, [], .ok ()⟩
  | some t =>
    if (match e with | .stopped => !s.pump.stop | _ => false) then ⟨s, [], .ok ()⟩
    else
      let (inb, plaintext) :=
        (Inbound.mk s.pump.seqIn t.vlessIn s.pump.stats t.delivered t.inExit).turn
          C t.handle.state e
      let pump := { s.pump with
        seqIn := inb.seqIn
        stats := inb.stats
        threads := some { t with
          vlessIn := inb.vlessIn
          delivered := inb.delivered
          inExit := inb.exit } }
      let effects := plaintext.toList.map (Effect.opened t.handle.id)
      ⟨{ s with pump := pump.signOff t.inExit inb.exit .tunFailed }, effects, .ok ()⟩

/-! ## Runs -/

/-- The native operations and the turns of the pump threads. -/
inductive Op (κ : Type) where
  | connect (r : ConnectRequest κ) (io : Option String)
  | complete (response : Option Bytes)
  | probe (io : ProbeIo)
  | startPump (blockIpv6 : Bool) (io : StartIo)
  | stopPump
  | disconnect
  | outbound (e : TunRead)
  | inbound (e : SocketRead)

/-- One step of the session. -/
def Session.step (s : Session κ) : Op κ → Outcome κ
  | .connect r io => s.connect C r io
  | .complete response => s.complete C response
  | .probe io => s.probe C io
  | .startPump blockIpv6 io => s.startPump blockIpv6 io
  | .stopPump => ⟨{ s with pump := s.pump.halted }, [], .ok ()⟩
  | .disconnect => ⟨s.teardown, [], .ok ()⟩
  | .outbound e => s.outboundTurn C e
  | .inbound e => s.inboundTurn C e

/-- The session and the log of what it sealed and opened. -/
structure World (κ : Type) where
  session : Session κ
  log : List Effect

/-- The world before the first call. -/
def World.new : World κ := ⟨.new, []⟩

/-- The world after an outcome. -/
def World.after (w : World κ) (o : Outcome κ) : World κ := ⟨o.session, w.log ++ o.effects⟩

/-- One step of the world. -/
def World.step (w : World κ) (op : Op κ) : World κ := w.after (w.session.step C op)

/-- The record of a seal. -/
def Effect.record? : Effect → Option Sealed
  | .sealed r => some r
  | .opened _ _ => none

@[simp] theorem Effect.record?_sealed (r : Sealed) : (Effect.sealed r).record? = some r := rfl

@[simp] theorem Effect.record?_opened (handle : ℕ) (pt : Bytes) :
    (Effect.opened handle pt).record? = none := rfl

/-- The records sealed so far. -/
def World.sealed (w : World κ) : List Sealed := w.log.filterMap Effect.record?

/-! ## A sample connect -/

/-- A connect to the server with secret 3. -/
def sampleRequest : ConnectRequest UInt8 where
  params := ⟨"example.com", Crypto.toy.publicKey 3, [1, 2]⟩
  serverPort := 443
  uuid := List.Vector.replicate 16 7
  ephemeral := 5
  unixTime := 1700000000

/-- The server's answer to it. -/
def sampleResponse : Bytes :=
  match initiate Crypto.toy sampleRequest.params sampleRequest.ephemeral sampleRequest.unixTime with
  | .error _ => []
  | .ok st =>
    match serve Crypto.toy 3 (copyFrom 8 (Reality.padShortId [1, 2])) 7 9 st.wireHello with
    | .error _ => []
    | .ok (response, _) => response

end ShadeVpn.Native
