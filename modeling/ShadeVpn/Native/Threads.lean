import ShadeVpn.Native.Steps
import ShadeVpn.Reality.Completion

/-!
# Native calls at once

The operations of the session on threads of their own.  A call is cut where other
threads can come in between: at every lock it takes, and at every access to the
flag and the keys of a handshake, which no lock protects.

The session lock is explicit.  `nativeProbeDataPlane`, `nativeStartTunnelPump` and
`teardown_session` hold it over several steps; `nativeCompleteHandshake` takes it
twice, with the whole of `complete` in between; `run_connect` stores the session
under it and the VLESS parameters under another.

`Shared.step_moves` says what one step of a thread can do.
-/

namespace ShadeVpn.Native

open Octets Checked Handshake Transport Vless Pump

variable {κ : Type} (C : Crypto κ UInt8)

/-! ## Operations in parts -/

/-- What a probe and a pump start check first. -/
def Session.gate (s : Session κ) (clone : Option String) : Except SessionError (Handle κ) :=
  match s.handshake with
  | none => .error .handshakeNotCompleted
  | some h =>
    if !h.state.completed then .error .handshakeNotCompleted
    else if !s.socket then .error .socketNotEstablished
    else
      match clone with
      | some os => .error (.socketClone os)
      | none => .ok h

/-- A probe behind its checks. -/
def Session.probeOn (s : Session κ) (h : Handle κ) (io : ProbeIo) : Outcome κ :=
  let seq := s.nextOutSeq
  match h.state.sealRecord C seq PROBE with
  | .error e => ⟨s, [], .error (.handshake e)⟩
  | .ok sealed =>
    match (writeFrame sealed io.write).1 with
    | .error e =>
      ⟨s, [.sealed ⟨h.id, seq, .probe false, s.pump.starts, PROBE⟩], .error (.probeSend e)⟩
    | .ok () =>
      let s := { s with nextOutSeq := s.nextOutSeq + 1 }
      let sent := Effect.sealed ⟨h.id, seq, .probe true, s.pump.starts, PROBE⟩
      match io.read with
      | .error e => ⟨s, [sent], .error (.probeRead e)⟩
      | .ok none => ⟨s, [sent], .error .probeClosed⟩
      | .ok (some echoed) =>
        match h.state.openRecord C s.nextInSeq echoed with
        | .error e => ⟨s, [sent], .error (.handshake e)⟩
        | .ok opened =>
          if opened ≠ PROBE then ⟨s, [sent, .opened h.id opened], .error .probeMismatch⟩
          else ⟨{ s with nextInSeq := s.nextInSeq + 1 }, [sent, .opened h.id opened], .ok ()⟩

/-- A pump start behind its checks. -/
def Session.startPumpOn (s : Session κ) (h : Handle κ) (blockIpv6 : Bool) (io : StartIo) :
    Outcome κ :=
  let (result, pump) := s.pump.start h ⟨blockIpv6, s.vlessTunnel⟩ s.nextOutSeq s.nextInSeq io
  ⟨{ s with pump }, [], result⟩

/-- The first store of `run_connect`. -/
def Session.install (s : Session κ) (state : HandshakeState κ UInt8) : Session κ :=
  { s with
    handshake := some ⟨s.created, s.nextOutSeq, state⟩
    socket := true
    created := s.created + 1 }

/-- `teardown_session` before it clears the VLESS parameters. -/
def Session.drop (s : Session κ) : Session κ := { s.teardown with vlessTunnel := s.vlessTunnel }

/-! ## Threads -/

/-- Where a thread stands in a native call. -/
inductive ThreadState (κ : Type) where
  | returned (result : Except SessionError Unit)
  | connecting (r : ConnectRequest κ) (io : Option String)
  /-- It has stored the session; the VLESS parameters are next. -/
  | installed (id : ℕ) (vless : VlessParams)
  | cloning (response : Option Bytes)
  /-- It works on the clone it took when `created` connects had stored a session. -/
  | completing (h : Handle κ) (bytes : Bytes) (created : ℕ) (stage : CallStage)
  /-- Its response was rejected; the teardown is next. -/
  | rejected (id : ℕ) (created : ℕ) (e : HandshakeError)
  | disconnecting
  /-- In `teardown_session`: the VLESS parameters are next. -/
  | clearing (result : Except SessionError Unit)
  | probing (io : ProbeIo)
  /-- Behind the checks of a probe. -/
  | sealing (h : Handle κ) (io : ProbeIo)
  | starting (blockIpv6 : Bool) (io : StartIo)
  /-- Behind the checks of a pump start. -/
  | reading (h : Handle κ) (blockIpv6 : Bool) (io : StartIo)
  | stopping
  /-- A thread of the pump at a turn of its loop. -/
  | turning (e : TunRead ⊕ SocketRead)

/-- Where a call starts. -/
def Op.entry : Op κ → ThreadState κ
  | .connect r io => .connecting r io
  | .complete response => .cloning response
  | .probe io => .probing io
  | .startPump blockIpv6 io => .starting blockIpv6 io
  | .stopPump => .stopping
  | .disconnect => .disconnecting
  | .outbound e => .turning (.inl e)
  | .inbound e => .turning (.inr e)

/-- A pump start that succeeded: the connects that made its handshake, its socket and its VLESS
parameters. -/
structure Started where
  handshake : ℕ
  socket : Option ℕ
  vless : Option ℕ
  deriving DecidableEq, Repr

/-- What has happened, which the code does not keep. -/
structure History where
  log : List Effect
  /-- The handshakes for which a `complete` has returned `Ok`. -/
  confirmed : List ℕ
  /-- The connects that stored the socket and the VLESS parameters that are there. -/
  socketOf : Option ℕ
  vlessOf : Option ℕ
  started : List Started
  /-- The handshake of each rejection, and the one that was torn down for it. -/
  torn : List (ℕ × Option ℕ)

/-- The session, what has become of each handshake state, who holds the session
lock, and the threads. -/
structure Shared (ι κ : Type) where
  session : Session κ
  cells : ℕ → Option (HandshakeState κ UInt8)
  lock : Option ι
  thread : ι → ThreadState κ
  past : History

variable {ι : Type} [DecidableEq ι]

/-- The handshake as it is now. -/
def Handle.now (h : Handle κ) (cells : ℕ → Option (HandshakeState κ UInt8)) : Handle κ :=
  { h with state := (cells h.id).getD h.state }

/-- A pump with its handshake as it is now. -/
def TunnelPump.now (p : TunnelPump κ) (cells : ℕ → Option (HandshakeState κ UInt8)) :
    TunnelPump κ :=
  { p with threads := p.threads.map fun t => { t with handle := t.handle.now cells } }

/-- The session with its handshakes as they are now. -/
def Session.now (s : Session κ) (cells : ℕ → Option (HandshakeState κ UInt8)) : Session κ :=
  { s with handshake := s.handshake.map (·.now cells), pump := s.pump.now cells }

def Shared.current (s : Shared ι κ) : Session κ := s.session.now s.cells

/-- Thread `i` goes on at `t`. -/
def Shared.goto (s : Shared ι κ) (i : ι) (t : ThreadState κ) : Shared ι κ :=
  { s with thread := Function.update s.thread i t }

@[simp] theorem Shared.goto_thread (s : Shared ι κ) (i : ι) (t : ThreadState κ) :
    (s.goto i t).thread i = t := Function.update_self _ _ _

/-- The store of the session. -/
def Shared.install (s : Shared ι κ) (state : HandshakeState κ UInt8) : Shared ι κ :=
  { s with
    session := s.session.install state
    cells := Function.update s.cells s.session.created (some state)
    past := { s.past with socketOf := some s.session.created } }

/-- The store of the VLESS parameters. -/
def Shared.storeVless (s : Shared ι κ) (vless : Option VlessParams) (id : Option ℕ) : Shared ι κ :=
  { s with
    session := { s.session with vlessTunnel := vless }
    past := { s.past with vlessOf := id } }

/-- `complete` on one handshake comes to `stage`. -/
def Shared.advance (s : Shared ι κ) (id : ℕ) (state : HandshakeState κ UInt8) (stage : CallStage) :
    Shared ι κ :=
  { s with
    cells := Function.update s.cells id (some state)
    past := { s.past with
      confirmed := match stage with
        | .returned (.ok ()) => id :: s.past.confirmed
        | _ => s.past.confirmed } }

/-- The first part of a teardown, under the lock from here on. -/
def Shared.drop (s : Shared ι κ) (i : ι) : Shared ι κ :=
  { s with
    session := s.session.drop
    lock := some i
    past := { s.past with socketOf := none } }

/-- The first part of the teardown for a rejection of handshake `id`. -/
def Shared.dropRejected (s : Shared ι κ) (i : ι) (id : ℕ) : Shared ι κ :=
  { s.drop i with past := { (s.drop i).past with
      torn := s.past.torn ++ [(id, s.session.handshake.map Handle.id)] } }

/-- The session after an operation. -/
def Shared.after (s : Shared ι κ) (o : Outcome κ) : Shared ι κ :=
  { s with session := o.session, past := { s.past with log := s.past.log ++ o.effects } }

/-- The session after a pump start on `h`. -/
def Shared.afterStart (s : Shared ι κ) (h : Handle κ) (o : Outcome κ) : Shared ι κ :=
  { s.after o with past := { (s.after o).past with
      started := match o.result with
        | .ok () => s.past.started ++ [⟨h.id, s.past.socketOf, s.past.vlessOf⟩]
        | .error _ => s.past.started } }

/-- One step of thread `i`.  A thread that needs the session lock waits until it is free. -/
def Shared.step (s : Shared ι κ) (i : ι) : Shared ι κ :=
  match s.thread i with
  | .returned _ => s
  | .connecting _ (some text) => s.goto i (.returned (.error (.unreached text)))
  | .connecting r none =>
    match initiate C r.params r.ephemeral r.unixTime with
    | .error (.err e) => s.goto i (.returned (.error (.handshake e)))
    | .error _ => s.goto i (.returned (.error (.unreached "panic")))
    | .ok state =>
      if s.lock.isSome then s
      else (s.install state).goto i (.installed s.session.created r.vlessParams)
  | .installed id vless => (s.storeVless (some vless) (some id)).goto i (.returned (.ok ()))
  | .cloning response =>
    if s.lock.isSome then s
    else
      match response, s.session.handshake with
      | some bytes, some h => s.goto i (.completing h bytes s.session.created .entered)
      | none, _ => s.goto i (.returned (.error .notBase64))
      | some _, none => s.goto i (.returned (.error .noHandshake))
  | .completing _ _ _ (.returned (.ok ())) => s.goto i (.returned (.ok ()))
  | .completing h _ created (.returned (.error e)) => s.goto i (.rejected h.id created e)
  | .completing h bytes created stage =>
    let (state, stage) := stage.advance C (h.now s.cells).state bytes
    (s.advance h.id state stage).goto i (.completing h bytes created stage)
  | .rejected id _ e =>
    if s.lock.isSome then s
    else
      (s.dropRejected i id).goto i (.clearing (.error (.handshake e)))
  | .disconnecting => if s.lock.isSome then s else (s.drop i).goto i (.clearing (.ok ()))
  | .clearing result => { s.storeVless none none with lock := none }.goto i (.returned result)
  | .probing io =>
    if s.lock.isSome then s
    else
      match s.current.gate io.clone with
      | .error e => s.goto i (.returned (.error e))
      | .ok h => { s with lock := some i }.goto i (.sealing h io)
  | .sealing h io =>
    let o := s.session.probeOn C (h.now s.cells) io
    { s.after o with lock := none }.goto i (.returned o.result)
  | .starting blockIpv6 io =>
    if s.lock.isSome then s
    else
      match s.current.gate io.sessionClone with
      | .error e => s.goto i (.returned (.error e))
      | .ok h => { s with lock := some i }.goto i (.reading h blockIpv6 io)
  | .reading h blockIpv6 io =>
    let o := s.session.startPumpOn (h.now s.cells) blockIpv6 io
    { s.afterStart h o with lock := none }.goto i (.returned o.result)
  | .stopping =>
    if s.lock.isSome then s
    else
      { s with session := { s.session with pump := s.session.pump.halted } }.goto i
        (.returned (.ok ()))
  | .turning (.inl e) =>
    let o := s.current.outboundTurn C e
    (s.after o).goto i (.returned o.result)
  | .turning (.inr e) =>
    let o := s.current.inboundTurn C e
    (s.after o).goto i (.returned o.result)

/-- A thread calls, or takes a step. -/
inductive Act (ι κ : Type) where
  | call (i : ι) (op : Op κ)
  | step (i : ι)

/-- Thread `i` takes `n` steps. -/
def Act.steps (i : ι) (n : ℕ) : List (Act ι κ) := List.replicate n (.step i)

/-- Thread `i` calls and takes `n` steps. -/
def Act.calls (i : ι) (op : Op κ) (n : ℕ) : List (Act ι κ) := .call i op :: Act.steps i n

/-- A thread calls only when its last call has returned. -/
def Shared.act (s : Shared ι κ) : Act ι κ → Shared ι κ
  | .call i op =>
    match s.thread i with
    | .returned _ => s.goto i op.entry
    | _ => s
  | .step i => s.step C i

/-- Before the first call. -/
def Shared.new : Shared ι κ where
  session := .new
  cells := fun _ => none
  lock := none
  thread := fun _ => .returned (.ok ())
  past := ⟨[], [], none, none, [], []⟩

/-! ## What a step can do -/

variable {C}

/-- Behind the checks: a completed handshake and a socket. -/
theorem gate_ok {s : Session κ} {clone : Option String} {h : Handle κ}
    (hgate : s.gate clone = .ok h) :
    s.handshake = some h ∧ h.state.completed = true ∧ s.socket = true := by
  unfold Session.gate at hgate
  split at hgate
  · cases hgate
  · next hd hhd =>
    split_ifs at hgate with hdone hsocket
    split at hgate
    · cases hgate
    · cases hgate
      exact ⟨hhd, by simpa using hdone, by simpa using hsocket⟩

/-- A probe moves only the counters, and what it seals it seals under its handshake. -/
theorem probeOn_keeps (s : Session κ) (h : Handle κ) (io : ProbeIo) :
    (∃ nextOut nextIn, (s.probeOn C h io).session
        = { s with nextOutSeq := nextOut, nextInSeq := nextIn }) ∧
      ∀ r, Effect.sealed r ∈ (s.probeOn C h io).effects → r.handle = h.id := by
  unfold Session.probeOn
  dsimp only
  rcases h.state.sealRecord C s.nextOutSeq PROBE with e | sealed
  · exact ⟨⟨_, _, rfl⟩, by simp⟩
  · dsimp only
    rcases (writeFrame sealed io.write).1 with e | ⟨⟩
    · exact ⟨⟨_, _, rfl⟩, by simp⟩
    · dsimp only
      rcases io.read with e | _ | echoed
      · exact ⟨⟨_, _, rfl⟩, by simp⟩
      · exact ⟨⟨_, _, rfl⟩, by simp⟩
      · dsimp only
        rcases h.state.openRecord C s.nextInSeq echoed with e | opened
        · exact ⟨⟨_, _, rfl⟩, by simp⟩
        · dsimp only
          split_ifs
          · exact ⟨⟨_, _, rfl⟩, by simp⟩
          · exact ⟨⟨_, _, rfl⟩, by simp⟩

/-- A pump start changes only the pump, whose threads get its handshake. -/
theorem startPumpOn_keeps (s : Session κ) (h : Handle κ) (blockIpv6 : Bool) (io : StartIo) :
    (∃ pump, (s.startPumpOn h blockIpv6 io).session = { s with pump }) ∧
      (s.startPumpOn h blockIpv6 io).effects = [] ∧
      ∀ t ∈ (s.startPumpOn h blockIpv6 io).session.pump.threads,
        t ∈ s.pump.threads ∨ t.handle = h := by
  refine ⟨⟨_, rfl⟩, rfl, ?_⟩
  unfold Session.startPumpOn TunnelPump.start
  split_ifs
  · exact fun t ht => Or.inl ht
  · rcases io.outClone with _ | os
    · rintro t ⟨⟩
      exact Or.inr rfl
    · exact fun t ht => Or.inl ht

/-- A pump that starts was not running. -/
theorem startPumpOn_ok {s : Session κ} {h : Handle κ} {blockIpv6 : Bool} {io : StartIo}
    (hok : (s.startPumpOn h blockIpv6 io).result = .ok ()) :
    s.pump.running = false ∧ io.outClone = none := by
  unfold Session.startPumpOn TunnelPump.start at hok
  split_ifs at hok with hrunning
  rcases hclone : io.outClone with _ | os
  · exact ⟨by simpa using hrunning, rfl⟩
  · rw [hclone] at hok
    cases hok

/-- The steps of thread `i`, each with where it starts and what it needs. -/
inductive Shared.Moves (C : Crypto κ UInt8) (s : Shared ι κ) (i : ι) : Shared ι κ → Prop
  /-- The thread has returned or waits for the lock. -/
  | idle : Moves C s i s
  /-- A connect that fails before it stores anything. -/
  | unreached {r : ConnectRequest κ} {io : Option String} (here : s.thread i = .connecting r io)
    (e : SessionError) : Moves C s i (s.goto i (.returned (.error e)))
  | install {r : ConnectRequest κ} (here : s.thread i = .connecting r none)
    {state : HandshakeState κ UInt8}
    (hinit : initiate C r.params r.ephemeral r.unixTime = .ok state) (free : s.lock = none) :
    Moves C s i ((s.install state).goto i (.installed s.session.created r.vlessParams))
  | storeVless {id : ℕ} {vless : VlessParams} (here : s.thread i = .installed id vless) :
    Moves C s i ((s.storeVless (some vless) (some id)).goto i (.returned (.ok ())))
  | noClone {response : Option Bytes} (here : s.thread i = .cloning response) (e : SessionError) :
    Moves C s i (s.goto i (.returned (.error e)))
  | clone {bytes : Bytes} (here : s.thread i = .cloning (some bytes)) {h : Handle κ}
    (hh : s.session.handshake = some h) (free : s.lock = none) :
    Moves C s i (s.goto i (.completing h bytes s.session.created .entered))
  | accepted {h : Handle κ} {bytes : Bytes} {created : ℕ}
    (here : s.thread i = .completing h bytes created (.returned (.ok ()))) :
    Moves C s i (s.goto i (.returned (.ok ())))
  | refused {h : Handle κ} {bytes : Bytes} {created : ℕ} {e : HandshakeError}
    (here : s.thread i = .completing h bytes created (.returned (.error e))) :
    Moves C s i (s.goto i (.rejected h.id created e))
  | advance {h : Handle κ} {bytes : Bytes} {created : ℕ} {stage : CallStage}
    (here : s.thread i = .completing h bytes created stage)
    {state : HandshakeState κ UInt8} {stage' : CallStage}
    (hmove : CallStage.Moves (h.now s.cells).state stage state stage')
    (hgoing : ∀ result, stage ≠ .returned result) :
    Moves C s i ((s.advance h.id state stage').goto i (.completing h bytes created stage'))
  | dropRejected {id created : ℕ} {e : HandshakeError} (here : s.thread i = .rejected id created e)
    (free : s.lock = none) :
    Moves C s i ((s.dropRejected i id).goto i (.clearing (.error (.handshake e))))
  | drop (here : s.thread i = .disconnecting) (free : s.lock = none) :
    Moves C s i ((s.drop i).goto i (.clearing (.ok ())))
  | clear {result : Except SessionError Unit} (here : s.thread i = .clearing result) :
    Moves C s i ({ s.storeVless none none with lock := none }.goto i (.returned result))
  | noProbe {io : ProbeIo} (here : s.thread i = .probing io) (e : SessionError) :
    Moves C s i (s.goto i (.returned (.error e)))
  | probe {io : ProbeIo} (here : s.thread i = .probing io) (free : s.lock = none) {h : Handle κ}
    (hgate : s.current.gate io.clone = .ok h) :
    Moves C s i ({ s with lock := some i }.goto i (.sealing h io))
  | sealed {h : Handle κ} {io : ProbeIo} (here : s.thread i = .sealing h io) :
    Moves C s i ({ s.after (s.session.probeOn C (h.now s.cells) io) with lock := none }.goto i
      (.returned (s.session.probeOn C (h.now s.cells) io).result))
  | noStart {blockIpv6 : Bool} {io : StartIo} (here : s.thread i = .starting blockIpv6 io)
    (e : SessionError) : Moves C s i (s.goto i (.returned (.error e)))
  | start {blockIpv6 : Bool} {io : StartIo} (here : s.thread i = .starting blockIpv6 io)
    (free : s.lock = none) {h : Handle κ} (hgate : s.current.gate io.sessionClone = .ok h) :
    Moves C s i ({ s with lock := some i }.goto i (.reading h blockIpv6 io))
  | read {h : Handle κ} {blockIpv6 : Bool} {io : StartIo}
    (here : s.thread i = .reading h blockIpv6 io) :
    Moves C s i
      ({ s.afterStart h (s.session.startPumpOn (h.now s.cells) blockIpv6 io) with lock := none }.goto i
        (.returned (s.session.startPumpOn (h.now s.cells) blockIpv6 io).result))
  | stop (here : s.thread i = .stopping) (free : s.lock = none) :
    Moves C s i ({ s with session := { s.session with pump := s.session.pump.halted } }.goto i
      (.returned (.ok ())))
  | outbound {e : TunRead} (here : s.thread i = .turning (.inl e)) :
    Moves C s i ((s.after (s.current.outboundTurn C e)).goto i
      (.returned (s.current.outboundTurn C e).result))
  | inbound {e : SocketRead} (here : s.thread i = .turning (.inr e)) :
    Moves C s i ((s.after (s.current.inboundTurn C e)).goto i
      (.returned (s.current.inboundTurn C e).result))

omit [DecidableEq ι] in
theorem Shared.free {s : Shared ι κ} (h : ¬ s.lock.isSome = true) : s.lock = none := by
  simpa using h

theorem Shared.step_moves (s : Shared ι κ) (i : ι) : Shared.Moves C s i (s.step C i) := by
  unfold Shared.step
  cases hat : s.thread i with
  | returned result => exact .idle
  | connecting r io =>
    cases io with
    | some text => exact .unreached hat _
    | none =>
      dsimp only
      split
      · exact .unreached hat _
      · exact .unreached hat _
      · next state hinit =>
        split_ifs with hlock
        · exact .idle
        · exact .install hat hinit (Shared.free hlock)
  | installed id vless => exact .storeVless hat
  | cloning response =>
    dsimp only
    split_ifs with hlock
    · exact .idle
    · split
      · next bytes h hh => exact .clone hat hh (Shared.free hlock)
      · exact .noClone hat _
      · exact .noClone hat _
  | completing h bytes created stage =>
    have hadvance := CallStage.advance_moves (C := C) (h.now s.cells).state bytes stage
    cases stage with
    | returned result =>
      cases result with
      | ok => exact .accepted hat
      | error e => exact .refused hat
    | entered => exact .advance hat hadvance (by simp)
    | holding => exact .advance hat hadvance (by simp)
    | confirming => exact .advance hat hadvance (by simp)
    | rejecting => exact .advance hat hadvance (by simp)
  | rejected id created e =>
    dsimp only
    split_ifs with hlock
    · exact .idle
    · exact .dropRejected hat (Shared.free hlock)
  | disconnecting =>
    dsimp only
    split_ifs with hlock
    · exact .idle
    · exact .drop hat (Shared.free hlock)
  | clearing result => exact .clear hat
  | probing io =>
    dsimp only
    split_ifs with hlock
    · exact .idle
    · split
      · exact .noProbe hat _
      · next h hgate => exact .probe hat (Shared.free hlock) hgate
  | sealing h io => exact .sealed hat
  | starting blockIpv6 io =>
    dsimp only
    split_ifs with hlock
    · exact .idle
    · split
      · exact .noStart hat _
      · next h hgate => exact .start hat (Shared.free hlock) hgate
  | reading h blockIpv6 io => exact .read hat
  | stopping =>
    dsimp only
    split_ifs with hlock
    · exact .idle
    · exact .stop hat (Shared.free hlock)
  | turning e =>
    cases e with
    | inl e => exact .outbound hat
    | inr e => exact .inbound hat

/-- A step of thread `i` is its own: it moves no other thread. -/
theorem Shared.Moves.thread {s s' : Shared ι κ} {i : ι} (hmove : Shared.Moves C s i s') :
    s'.thread = Function.update s.thread i (s'.thread i) := by
  have hgoto : ∀ t : ThreadState κ, Function.update s.thread i t
      = Function.update s.thread i (Function.update s.thread i t i) := by
    intro t
    rw [Function.update_self]
  cases hmove with
  | idle => exact (Function.update_eq_self i s.thread).symm
  | _ => exact hgoto _

/-! ## Who holds the session lock -/

/-- A thread that holds the session lock. -/
def ThreadState.Holds : ThreadState κ → Prop
  | .sealing _ _ => True
  | .reading _ _ _ => True
  | .clearing _ => True
  | _ => False

/-- The handshake of a pump start behind its checks. -/
def ThreadState.reads : ThreadState κ → Option ℕ
  | .reading h _ _ => some h.id
  | _ => none

/-- Only a thread that holds the lock reads. -/
theorem ThreadState.reads_none {t : ThreadState κ} (h : ¬ t.Holds) : t.reads = none := by
  cases t with
  | reading hd blockIpv6 io => exact absurd trivial h
  | _ => rfl

/-- A thread that holds the session lock is the one it is held by. -/
def Shared.Locked (s : Shared ι κ) : Prop := ∀ i, (s.thread i).Holds → s.lock = some i

theorem Shared.Locked.kept {s s' : Shared ι κ} (h : s.Locked) {i : ι} {t : ThreadState κ}
    (ht : ¬ t.Holds) (hthread : s'.thread = Function.update s.thread i t)
    (hlock : s'.lock = s.lock) : s'.Locked := by
  unfold Shared.Locked
  rw [hthread, hlock]
  exact (Function.forall_update_iff s.thread (fun j u => u.Holds → s.lock = some j)).2
    ⟨fun hholds => absurd hholds ht, fun j _ => h j⟩

omit [DecidableEq ι] in
/-- Nobody holds a free lock, and nobody but its holder one that is held. -/
theorem Shared.Locked.not_holds {s : Shared ι κ} (h : s.Locked) {i : ι}
    (hlock : s.lock = none ∨ s.lock = some i) {j : ι} (hij : j ≠ i) : ¬ (s.thread j).Holds := by
  intro hj
  have := h j hj
  rcases hlock with hlock | hlock
  · rw [hlock] at this
    cases this
  · rw [hlock] at this
    exact hij (Option.some.inj this).symm

/-- A thread takes a free lock. -/
theorem Shared.Locked.taken {s s' : Shared ι κ} (h : s.Locked) {i : ι} {t : ThreadState κ}
    (free : s.lock = none) (hthread : s'.thread = Function.update s.thread i t)
    (hlock : s'.lock = some i) : s'.Locked := by
  intro j hj
  rw [hthread] at hj
  by_cases hij : j = i
  · rw [hlock, hij]
  · rw [Function.update_of_ne hij] at hj
    exact absurd hj (h.not_holds (i := i) (Or.inl free) hij)

/-- The thread that holds the lock gives it back. -/
theorem Shared.Locked.released {s s' : Shared ι κ} (h : s.Locked) {i : ι} {t : ThreadState κ}
    (hi : (s.thread i).Holds) (ht : ¬ t.Holds)
    (hthread : s'.thread = Function.update s.thread i t) :
    s'.Locked := by
  intro j hj
  rw [hthread] at hj
  by_cases hij : j = i
  · subst hij
    rw [Function.update_self] at hj
    exact absurd hj ht
  · rw [Function.update_of_ne hij] at hj
    exact absurd hj (h.not_holds (Or.inr (h i hi)) hij)

/-- **A step keeps the lock with its holder.** -/
theorem Shared.Locked.step {s s' : Shared ι κ} (h : s.Locked) {i : ι}
    (hmove : Shared.Moves C s i s') : s'.Locked := by
  cases hmove with
  | idle => exact h
  | unreached here e => exact h.kept id rfl rfl
  | install here hinit free => exact h.kept id rfl rfl
  | storeVless here => exact h.kept id rfl rfl
  | noClone here e => exact h.kept id rfl rfl
  | clone here hh free => exact h.kept id rfl rfl
  | accepted here => exact h.kept id rfl rfl
  | refused here => exact h.kept id rfl rfl
  | advance here hmove hgoing => exact h.kept id rfl rfl
  | dropRejected here free => exact h.taken free rfl rfl
  | drop here free => exact h.taken free rfl rfl
  | clear here => exact h.released (by rw [here]; trivial) id rfl
  | noProbe here e => exact h.kept id rfl rfl
  | probe here free hgate => exact h.taken free rfl rfl
  | sealed here => exact h.released (by rw [here]; trivial) id rfl
  | noStart here e => exact h.kept id rfl rfl
  | start here free hgate => exact h.taken free rfl rfl
  | read here => exact h.released (by rw [here]; trivial) id rfl
  | stop here free => exact h.kept id rfl rfl
  | outbound here => exact h.kept id rfl rfl
  | inbound here => exact h.kept id rfl rfl

end ShadeVpn.Native
