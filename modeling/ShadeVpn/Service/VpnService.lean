import ShadeVpn.Native.Threads
import ShadeVpn.Service.Orchestrator

/-!
# The service and its threads

`ShadeVpnService.kt`: a START spawns a connect thread, a STOP a disconnect thread,
and both work on the native session, on the orchestrator and on the TUN at once.

A step of a thread is one access to something shared: one step of a native call
(`Native.Shared.step`), one update of the snapshot or of the pending response, one
look at the generation, one access to `tunInterface`.  What the libraries and the
platform answer comes with the step (`Env`).  The native library is loaded, so that
a `disconnect` reaches it; `onRevoke` and `onDestroy` do what a STOP does.

`connectGeneration` counts the commands; the code compares it as an `Int`.
-/

namespace ShadeVpn.Service

open Octets Checked Handshake Transport Pump Native

/-! ## Backoff -/

/-- `BackoffPolicy`. -/
structure BackoffPolicy where
  baseMs : Int64 := 500
  maxDelayMs : Int64 := 15000
  maxAttempts : Int32 := 5
  attempt : Int32 := 0

/-- `nextDelayMs`; `draw` is what the generator makes of a bound. -/
def BackoffPolicy.nextDelayMs (b : BackoffPolicy) (draw : Int64 → Int64) :
    Option (Int64 × BackoffPolicy) :=
  if b.maxAttempts ≤ b.attempt then none
  else
    let exp := b.baseMs * ((1 : Int64) <<< (min b.attempt 30).toInt64)
    let capped := max (min exp b.maxDelayMs) 0
    some (if capped ≤ 0 then 0 else draw capped, { b with attempt := b.attempt + 1 })

/-! ## Threads -/

/-- A write to a field of the orchestrator. -/
inductive Action where
  | setPending (responseB64 : Option String)
  | mutate (block : ConnectionSnapshot → ConnectionSnapshot)

/-- Where a connect thread stands in `startTunnel` and `attemptConnect`. -/
inductive Stage where
  | entered (rawProfile : Option String)
  | loading (rawProfile : String)
  | excluding
  | establishing
  /-- It reads `tunInterface`. -/
  | fetching
  /-- It reads the descriptor of that TUN. -/
  | fetched (tun : Option ℕ)
  | established
  | looping
  | buildRealityLane
  | probeControlPlane
  | connectTunnel
  /-- In `nativeConnectTunnel`, with the server's answer to come. -/
  | connectReturned (answer : Except String Bytes)
  | connectFailed (message : String)
  /-- In `nativeDisconnectTunnel` of `onFailure`. -/
  | connectDropped (message : String)
  | completeHandshake
  | completeReturned
  | runDataPlaneProbe
  | probeReturned
  /-- The last look at the generation. -/
  | recheck
  | startPump
  | startReturned
  | retry
  | sleeping
  | waking
  | quit
  /-- In `nativeDisconnectTunnel` of `nativeDisconnectQuietly`. -/
  | quitReturned
  | ended

/-- The parts of a connect thread: before it has a descriptor, with one to look at, in
an attempt without a session of its own, in the connect, with its session, and on
the way out. -/
inductive Part where
  | early
  | established
  | attempt
  | connecting
  | session
  | leaving
  deriving DecidableEq, Repr

def Stage.part : Stage → Part
  | .entered _ | .loading _ | .excluding | .establishing | .fetching | .fetched _ => .early
  | .established => .established
  | .looping | .buildRealityLane | .probeControlPlane | .connectTunnel | .connectFailed _
  | .connectDropped _ | .retry | .sleeping | .waking => .attempt
  | .connectReturned _ => .connecting
  | .completeHandshake | .completeReturned | .runDataPlaneProbe | .probeReturned | .recheck
  | .startPump | .startReturned => .session
  | .quit | .quitReturned | .ended => .leaving

/-- The native calls of the service. -/
inductive Call where
  | connect
  | complete
  | probe
  | startPump
  | disconnect
  deriving DecidableEq, Repr

/-- The native call a connect thread is in. -/
def Stage.call : Stage → Option Call
  | .connectReturned _ => some .connect
  | .completeReturned => some .complete
  | .probeReturned => some .probe
  | .startReturned => some .startPump
  | .connectDropped _ | .quitReturned => some .disconnect
  | _ => none

/-- Where a disconnect thread stands in `stopTunnel`. -/
inductive StopStage where
  | disconnect
  /-- In `nativeDisconnectTunnel`. -/
  | disconnected
  /-- It reads `tunInterface`. -/
  | reading
  | closing (tun : Option ℕ)
  | clearing
  | ended

def StopStage.call : StopStage → Option Call
  | .disconnected => some .disconnect
  | _ => none

/-- A connect thread: the command it came with, what it keeps, what it writes next
and where it goes from there. -/
structure ConnectThread where
  generation : ℕ
  blockIpv6 : Bool
  fd : Int32
  backoff : BackoffPolicy
  acts : List Action
  stage : Stage

structure DisconnectThread where
  generation : ℕ
  acts : List Action
  stage : StopStage

inductive ServiceThread where
  | finished
  | connect (t : ConnectThread)
  | disconnect (t : DisconnectThread)

def ServiceThread.done : ServiceThread → Bool
  | .finished => true
  | _ => false

/-- The command a thread came with. -/
def ServiceThread.generation : ServiceThread → Option ℕ
  | .finished => none
  | .connect t => some t.generation
  | .disconnect t => some t.generation

/-! ## The service -/

/-- A TUN: its descriptor, the command whose connect thread established it, and
whether the service has not closed it. -/
structure Tun where
  fd : Int32
  generation : ℕ
  isOpen : Bool
  deriving DecidableEq, Repr

/-- A pump start that succeeded: the commands of the open TUNs with the descriptor it
was given, and the command whose connect had stored the session. -/
structure PumpStart where
  tuns : List ℕ
  session : Option ℕ
  deriving DecidableEq, Repr

/-- The service, the orchestrator and the native layer.  The code keeps neither the
TUNs it has let go of nor what follows them: the command whose connect stored the
last session, the pump starts, and the disconnect thread of the last command if
that was a STOP. -/
structure ShadeVpnService (ι κ : Type) where
  native : Shared ι κ
  pendingServerResponseB64 : Option String
  snapshot : ConnectionSnapshot
  connectGeneration : ℕ
  tunInterface : Option ℕ
  thread : ι → ServiceThread
  tuns : List Tun
  sessionOf : Option ℕ
  starts : List PumpStart
  stopping : Option ι

/-- What a step of a connect thread meets; it uses the part it needs. -/
structure Env (κ : Type) where
  parsed : Except String VlessProfile := .error ""
  excluded : Bool := true
  established : Option Int32 := none
  lane : NativeCall String := .runs ""
  reachable : NativeCall Bool := .runs true
  connect : NativeCall (ConnectCall κ) := .throws none
  complete : NativeCall Unit := .runs ()
  probe : NativeCall ProbeIo := .throws none
  start : NativeCall StartIo := .throws none
  draw : Int64 → Int64 := fun _ => 0
  slept : Bool := true

variable {ι κ : Type} [DecidableEq ι]

/-- `generation != connectGeneration`, two `Int`s. -/
def ShadeVpnService.superseded (s : ShadeVpnService ι κ) (generation : ℕ) : Bool :=
  Int32.ofNat generation != Int32.ofNat s.connectGeneration

/-- Thread `i` goes on as `t`. -/
def ShadeVpnService.goto (s : ShadeVpnService ι κ) (i : ι) (t : ServiceThread) :
    ShadeVpnService ι κ :=
  { s with thread := Function.update s.thread i t }

/-- Thread `i` calls into the native layer. -/
def ShadeVpnService.call (s : ShadeVpnService ι κ) (i : ι) (op : Op κ) : ShadeVpnService ι κ :=
  { s with native := s.native.goto i op.entry }

def ShadeVpnService.perform (s : ShadeVpnService ι κ) : Action → ShadeVpnService ι κ
  | .setPending responseB64 => { s with pendingServerResponseB64 := responseB64 }
  | .mutate block => { s with snapshot := block s.snapshot }

/-- The commands of the open TUNs with this descriptor. -/
def ShadeVpnService.tunsOf (s : ShadeVpnService ι κ) (fd : Int32) : List ℕ :=
  (s.tuns.filter fun tun => tun.isOpen && tun.fd == fd).map Tun.generation

/-- `ParcelFileDescriptor.close`. -/
def ShadeVpnService.close (s : ShadeVpnService ι κ) (tun : ℕ) : ShadeVpnService ι κ :=
  { s with tuns := s.tuns.modify tun fun t => { t with isOpen := false } }

/-- The descriptor a connect thread gives to a pump start. -/
def ServiceThread.fd : ServiceThread → Int32
  | .connect t => t.fd
  | _ => -1

variable (C : Crypto κ UInt8) (os : Platform)

/-- A step of the native call that thread `i` is in. -/
def ShadeVpnService.nativeStep (s : ShadeVpnService ι κ) (i : ι) : ShadeVpnService ι κ :=
  let native := s.native.step C i
  { s with
    native
    sessionOf :=
      if native.session.created = s.native.session.created then s.sessionOf
      else (s.thread i).generation
    starts :=
      if native.past.started.length = s.native.past.started.length then s.starts
      else s.starts ++ [⟨s.tunsOf (s.thread i).fd, s.sessionOf⟩] }

/-- A step of a connect thread outside the native layer, whose last call there came to
`result`. -/
def ShadeVpnService.connectStep (s : ShadeVpnService ι κ) (i : ι) (t : ConnectThread) (env : Env κ)
    (result : Except SessionError Unit) : ShadeVpnService ι κ :=
  let go (acts : List Action) (stage : Stage) : ShadeVpnService ι κ :=
    s.goto i (.connect { t with acts, stage })
  match t.stage with
  | .entered none =>
    go [.mutate (.fail .invalidProfile "No profile supplied to service")] .ended
  | .entered (some rawProfile) =>
    if isBlank rawProfile then
      go [.mutate (.fail .invalidProfile "No profile supplied to service")] .ended
    else go [.mutate (.onPermissionResult true)] (.loading rawProfile)
  | .loading _ =>
    match env.parsed with
    | .ok profile => go [.mutate (.profileLoaded profile)] .excluding
    | .error message => go [.mutate (.profileRejected message)] .ended
  | .excluding =>
    if env.excluded then go [] .establishing
    else go [.mutate (.fail .tunSetupFailed "Could not exclude own UID from TUN")] .ended
  | .establishing =>
    match env.established with
    | none => { go [] .fetching with tunInterface := none }
    | some fd =>
      { go [] .fetching with
        tuns := s.tuns ++ [⟨fd, t.generation, true⟩]
        tunInterface := some s.tuns.length }
  | .fetching => go [] (.fetched s.tunInterface)
  | .fetched none =>
    s.goto i (.connect { t with fd := -1, acts := [.mutate (.establishTun (-1))], stage := .established })
  | .fetched (some tun) =>
    match s.tuns[tun]? with
    | some ⟨fd, _, true⟩ =>
      s.goto i (.connect { t with fd, acts := [.mutate (.establishTun fd)], stage := .established })
    -- `getFd` throws
    | _ => go [] .ended
  | .established => if t.fd < 0 then go [] .ended else go [] .looping
  | .looping => if s.snapshot.tunEstablished then go [] .buildRealityLane else go [] .ended
  | .buildRealityLane =>
    match s.snapshot.selectedProfile, env.lane with
    | some _, .runs _ => go [] .probeControlPlane
    | none, _ => go [.mutate (.fail .jniError "Failed to build Reality lane")] .quit
    | some _, .throws _ =>
      go [.mutate .laneFailed, .mutate (.fail .jniError "Failed to build Reality lane")] .quit
  | .probeControlPlane =>
    match s.snapshot.selectedProfile, env.reachable with
    | some _, .runs reachable => go [.mutate (.controlPlaneProbed reachable)] .connectTunnel
    | none, _ => go [] .retry
    | some _, .throws _ => go [] .retry
  | .connectTunnel =>
    match s.snapshot.selectedProfile, env.connect with
    | none, _ => go [] .retry
    | some _, .throws message => go [] (.connectFailed (message.getD ""))
    | some _, .runs ⟨request, .ok response⟩ =>
      (go [] (.connectReturned (.ok response))).call i (.connect request none)
    | some _, .runs ⟨request, .error text⟩ =>
      (go [] (.connectReturned (.error text))).call i (.connect request (some text))
  | .connectReturned answer =>
    match result, answer with
    | .error e, _ => go [] (.connectFailed (reason os.debug e))
    | .ok (), .error text => go [] (.connectFailed text)
    | .ok (), .ok response =>
      if isBlank (os.encode response) then
        go [] (.connectFailed "server response missing from tunnel payload")
      else
        go [.setPending (some (os.encode response)), .mutate .tunnelConnected] .completeHandshake
  | .connectFailed message => (go [] (.connectDropped message)).call i .disconnect
  | .connectDropped message => go [.setPending none, .mutate (.tunnelFailed message)] .retry
  | .completeHandshake =>
    match s.pendingServerResponseB64 with
    | none => go [] .retry
    | some text =>
      if isBlank text then go [] .retry
      else
        match env.complete with
        | .throws message =>
          go [.setPending none, .mutate (.handshakeRejected (message.getD ""))] .retry
        | .runs () => (go [] .completeReturned).call i (.complete (os.decode text))
  | .completeReturned =>
    match result with
    | .ok () => go [.setPending none, .mutate .handshakeAccepted] .runDataPlaneProbe
    | .error e => go [.setPending none, .mutate (.handshakeRejected (reason os.debug e))] .retry
  | .runDataPlaneProbe =>
    match env.probe with
    | .throws message => go [.mutate (.probeFailed (message.getD ""))] .retry
    | .runs io => (go [] .probeReturned).call i (.probe io)
  | .probeReturned =>
    match result with
    | .ok () => go [.mutate .probePassed] .recheck
    | .error e => go [.mutate (.probeFailed (reason os.debug e))] .retry
  | .recheck => if s.superseded t.generation then go [] .ended else go [] .startPump
  | .startPump =>
    match env.start with
    | .throws message => go [.mutate (.pumpRefused (message.getD ""))] .ended
    | .runs io => (go [] .startReturned).call i (.startPump t.blockIpv6 io)
  | .startReturned =>
    match result with
    | .ok () => go [.mutate (.pumpStarted t.blockIpv6)] .ended
    | .error e => go [.mutate (.pumpRefused (reason os.debug e))] .ended
  | .retry =>
    if s.superseded t.generation then go [] .ended
    else
      match t.backoff.nextDelayMs env.draw with
      | none => go [.mutate .reportRetryExhausted] .ended
      | some (delay, backoff) =>
        s.goto i (.connect { t with
          backoff
          acts := [.mutate (.reportRetryDelay backoff.attempt delay)]
          stage := .sleeping })
  | .sleeping =>
    if env.slept then go [] .waking
    else if s.superseded t.generation then go [] .ended
    else s
  | .waking =>
    if s.superseded t.generation then go [] .ended
    else go [.setPending none, .mutate (.beginRetry (t.backoff.attempt + 1))] .looping
  | .quit => (go [] .quitReturned).call i .disconnect
  | .quitReturned => go [.setPending none, .mutate .disconnected] .ended
  | .ended => s.goto i .finished

/-- A step of a disconnect thread outside the native layer. -/
def ShadeVpnService.disconnectStep (s : ShadeVpnService ι κ) (i : ι) (t : DisconnectThread) :
    ShadeVpnService ι κ :=
  let go (acts : List Action) (stage : StopStage) : ShadeVpnService ι κ :=
    s.goto i (.disconnect { t with acts, stage })
  match t.stage with
  | .disconnect => (go [] .disconnected).call i .disconnect
  | .disconnected => go [.setPending none, .mutate .disconnected] .reading
  | .reading => go [] (.closing s.tunInterface)
  | .closing none => go [] .clearing
  | .closing (some tun) => (s.close tun).goto i (.disconnect { t with acts := [], stage := .clearing })
  | .clearing => { go [] .ended with tunInterface := none }
  | .ended => s.goto i .finished

/-- A step of thread `i`: of the native call it is in, else of the service. -/
def ShadeVpnService.threadStep (s : ShadeVpnService ι κ) (i : ι) (env : Env κ) :
    ShadeVpnService ι κ :=
  match s.native.thread i with
  | .returned result =>
    match s.thread i with
    | .finished => s
    | .connect ⟨generation, blockIpv6, fd, backoff, act :: acts, stage⟩ =>
      (s.perform act).goto i (.connect ⟨generation, blockIpv6, fd, backoff, acts, stage⟩)
    | .connect t => s.connectStep os i t env result
    | .disconnect ⟨generation, act :: acts, stage⟩ =>
      (s.perform act).goto i (.disconnect ⟨generation, acts, stage⟩)
    | .disconnect t => s.disconnectStep i t
  | _ => s.nativeStep C i

/-- A turn of a pump thread. -/
def ShadeVpnService.turn (s : ShadeVpnService ι κ) (e : TunRead ⊕ SocketRead) :
    ShadeVpnService ι κ :=
  let o := e.elim (s.native.current.outboundTurn C ·) (s.native.current.inboundTurn C ·)
  { s with native := s.native.after o }

/-- A command that spawns thread `i`, a step of a thread, or a turn of a pump thread. -/
inductive Event (ι κ : Type) where
  | start (i : ι) (rawProfile : Option String) (blockIpv6 : Bool)
  | stop (i : ι)
  | step (i : ι) (env : Env κ)
  | turn (e : TunRead ⊕ SocketRead)

/-- Thread `i` takes `n` steps. -/
def Event.steps (i : ι) (env : Env κ) (n : ℕ) : List (Event ι κ) := List.replicate n (.step i env)

/-- `onStartCommand`, and what goes on behind it. -/
def ShadeVpnService.step (s : ShadeVpnService ι κ) : Event ι κ → ShadeVpnService ι κ
  | .start i rawProfile blockIpv6 =>
    if (s.thread i).done then
      { (s.goto i (.connect ⟨s.connectGeneration + 1, blockIpv6, -1, {}, [], .entered rawProfile⟩)) with
        connectGeneration := s.connectGeneration + 1
        stopping := none }
    else s
  | .stop i =>
    if (s.thread i).done then
      { (s.goto i (.disconnect ⟨s.connectGeneration + 1, [], .disconnect⟩)) with
        connectGeneration := s.connectGeneration + 1
        stopping := some i }
    else s
  | .step i env => s.threadStep C os i env
  | .turn e => s.turn C e

/-- A new service in a new process. -/
def ShadeVpnService.new (nativeVersion : String) : ShadeVpnService ι κ where
  native := .new
  pendingServerResponseB64 := none
  snapshot := { nativeVersion }
  connectGeneration := 0
  tunInterface := none
  thread := fun _ => .finished
  tuns := []
  sessionOf := none
  starts := []
  stopping := none

/-- The next step of thread `i` stores a session. -/
def ShadeVpnService.stores (s : ShadeVpnService ι κ) (i : ι) : Bool :=
  match s.native.thread i with
  | .connecting r none =>
    s.native.lock.isNone && (initiate C r.params r.ephemeral r.unixTime).toBool
  | _ => false

/-- What a connect thread meets that connects at once and starts its pump. -/
def sampleEnv : Env UInt8 where
  parsed := .ok sampleProfile
  established := some 7
  connect := .runs ⟨sampleRequest, .ok sampleResponse⟩
  probe := .runs ⟨none, none, .ok (some sampleEcho)⟩
  start := .runs ⟨none, none, true⟩

/-! ## What a step of a connect thread can do -/

/-- The call an operation is. -/
def opCall : Op κ → Option Call
  | .connect _ _ => some .connect
  | .complete _ => some .complete
  | .probe _ => some .probe
  | .startPump _ _ => some .startPump
  | .disconnect => some .disconnect
  | _ => none

/-- The steps of connect thread `t` outside the native layer, by the part they lead to. -/
inductive ShadeVpnService.Continues (s : ShadeVpnService ι κ) (i : ι) (t : ConnectThread)
    (result : Except SessionError Unit) : ShadeVpnService ι κ → Prop
  /-- It sleeps on. -/
  | wait : Continues s i t result s
  | finish (here : t.stage = .ended) : Continues s i t result (s.goto i .finished)
  | early (acts : List Action) (stage : Stage) (hpart : stage.part = .early) (hcall : stage.call = none) :
    Continues s i t result (s.goto i (.connect { t with acts, stage }))
  | establish (tuns : List Tun) (htuns : ∀ tun ∈ tuns, tun.generation = t.generation)
    (tunInterface : Option ℕ) :
    Continues s i t result { s.goto i (.connect { t with acts := [], stage := .fetching }) with
      tuns := s.tuns ++ tuns
      tunInterface }
  /-- It has the descriptor of a TUN that is open, or none. -/
  | fetch (tun : Option ℕ) (here : t.stage = .fetched tun) (fd : Int32) (acts : List Action)
    (hfd : fd < 0 ∨ ∃ k generation, tun = some k ∧ s.tuns[k]? = some ⟨fd, generation, true⟩) :
    Continues s i t result (s.goto i (.connect { t with fd, acts, stage := .established }))
  | attempt (backoff : BackoffPolicy) (acts : List Action) (stage : Stage)
    (hfrom : t.stage.part ∈ [.attempt, .connecting, .session] ∨
      t.stage.part = .established ∧ ¬ t.fd < 0)
    (hpart : stage.part = .attempt) (hcall : stage.call = none) :
    Continues s i t result (s.goto i (.connect { t with backoff, acts, stage }))
  | connect (request : ConnectRequest κ) (io : Option String) (answer : Except String Bytes)
    (hfrom : t.stage.part = .attempt) :
    Continues s i t result
      ((s.goto i (.connect { t with acts := [], stage := .connectReturned answer })).call i
        (.connect request io))
  | connected (answer : Except String Bytes) (here : t.stage = .connectReturned answer)
    (hok : result = .ok ()) (acts : List Action) :
    Continues s i t result (s.goto i (.connect { t with acts, stage := .completeHandshake }))
  | session (acts : List Action) (stage : Stage) (hfrom : t.stage.part = .session)
    (hpart : stage.part = .session) (hcall : stage.call = none) :
    Continues s i t result (s.goto i (.connect { t with acts, stage }))
  | sessionCall (stage : Stage) (op : Op κ) {call : Call} (hfrom : t.stage.part = .session)
    (hpart : stage.part = .session) (hop : opCall op = some call) (hcall : stage.call = some call) :
    Continues s i t result ((s.goto i (.connect { t with acts := [], stage })).call i op)
  /-- The disconnect of `onFailure` or of `nativeDisconnectQuietly`. -/
  | drop (stage : Stage) (hfrom : t.stage.part = stage.part)
    (hpart : stage.part = .attempt ∨ stage.part = .leaving)
    (hcall : stage.call = some .disconnect) :
    Continues s i t result ((s.goto i (.connect { t with acts := [], stage })).call i .disconnect)
  | leave (acts : List Action) (stage : Stage) (hpart : stage.part = .leaving)
    (hcall : stage.call = none) :
    Continues s i t result (s.goto i (.connect { t with acts, stage }))

variable {os}

theorem ShadeVpnService.connectStep_continues (s : ShadeVpnService ι κ) (i : ι) (t : ConnectThread)
    (env : Env κ) (result : Except SessionError Unit) :
    s.Continues i t result (s.connectStep os i t env result) := by
  have hattempt : ∀ stage, t.stage = stage → stage.part ∈ [.attempt, .connecting, .session] →
      t.stage.part ∈ [.attempt, .connecting, .session] ∨ t.stage.part = .established ∧
        ¬ t.fd < 0 := by
    rintro stage rfl hpart
    exact Or.inl hpart
  unfold ShadeVpnService.connectStep
  dsimp only
  cases hat : t.stage with
  | entered rawProfile =>
    cases rawProfile with
    | none => exact .leave _ _ rfl rfl
    | some rawProfile =>
      dsimp only
      split_ifs
      · exact .leave _ _ rfl rfl
      · exact .early _ _ rfl rfl
  | loading rawProfile =>
    dsimp only
    split
    · exact .early _ _ rfl rfl
    · exact .leave _ _ rfl rfl
  | excluding =>
    dsimp only
    split_ifs
    · exact .early _ _ rfl rfl
    · exact .leave _ _ rfl rfl
  | establishing =>
    dsimp only
    split
    · have hempty : s.Continues i t result
          { s.goto i (.connect { t with acts := [], stage := .fetching }) with
            tuns := s.tuns ++ []
            tunInterface := none } := .establish [] (by simp) none
      rwa [List.append_nil] at hempty
    · exact .establish _ (by simp) _
  | fetching => exact .early _ _ rfl rfl
  | fetched tun =>
    cases tun with
    | none => exact .fetch none hat (-1) _ (Or.inl (by decide))
    | some tun =>
      dsimp only
      split
      · next fd generation htun => exact .fetch (some tun) hat fd _ (Or.inr ⟨tun, generation, rfl, htun⟩)
      · exact .leave _ _ rfl rfl
  | established =>
    dsimp only
    split_ifs with hfd
    · exact .leave _ _ rfl rfl
    · exact .attempt t.backoff _ _ (Or.inr ⟨by rw [hat]; rfl, hfd⟩) rfl rfl
  | looping =>
    dsimp only
    split_ifs
    · exact .attempt t.backoff _ _ (hattempt _ hat (by decide)) rfl rfl
    · exact .leave _ _ rfl rfl
  | buildRealityLane =>
    dsimp only
    split
    · exact .attempt t.backoff _ _ (hattempt _ hat (by decide)) rfl rfl
    · exact .leave _ _ rfl rfl
    · exact .leave _ _ rfl rfl
  | probeControlPlane =>
    dsimp only
    split
    · exact .attempt t.backoff _ _ (hattempt _ hat (by decide)) rfl rfl
    · exact .attempt t.backoff _ _ (hattempt _ hat (by decide)) rfl rfl
    · exact .attempt t.backoff _ _ (hattempt _ hat (by decide)) rfl rfl
  | connectTunnel =>
    dsimp only
    split
    · exact .attempt t.backoff _ _ (hattempt _ hat (by decide)) rfl rfl
    · exact .attempt t.backoff _ _ (hattempt _ hat (by decide)) rfl rfl
    · exact .connect _ _ _ (by rw [hat]; rfl)
    · exact .connect _ _ _ (by rw [hat]; rfl)
  | connectReturned answer =>
    have hfrom := hattempt _ hat (by simp [Stage.part])
    dsimp only
    split
    · exact .attempt t.backoff _ _ hfrom rfl rfl
    · exact .attempt t.backoff _ _ hfrom rfl rfl
    · split_ifs
      · exact .attempt t.backoff _ _ hfrom rfl rfl
      · exact .connected _ hat rfl _
  | connectFailed message => exact .drop _ (by rw [hat]; rfl) (Or.inl rfl) rfl
  | connectDropped message =>
    exact .attempt t.backoff _ _ (hattempt _ hat (by simp [Stage.part])) rfl rfl
  | completeHandshake =>
    have hfrom := hattempt _ hat (by decide)
    dsimp only
    split
    · exact .attempt t.backoff _ _ hfrom rfl rfl
    · split_ifs
      · exact .attempt t.backoff _ _ hfrom rfl rfl
      · split
        · exact .attempt t.backoff _ _ hfrom rfl rfl
        · exact .sessionCall _ _ (by rw [hat]; rfl) rfl rfl rfl
  | completeReturned =>
    dsimp only
    split
    · exact .session _ _ (by rw [hat]; rfl) rfl rfl
    · exact .attempt t.backoff _ _ (hattempt _ hat (by decide)) rfl rfl
  | runDataPlaneProbe =>
    dsimp only
    split
    · exact .attempt t.backoff _ _ (hattempt _ hat (by decide)) rfl rfl
    · exact .sessionCall _ _ (by rw [hat]; rfl) rfl rfl rfl
  | probeReturned =>
    dsimp only
    split
    · exact .session _ _ (by rw [hat]; rfl) rfl rfl
    · exact .attempt t.backoff _ _ (hattempt _ hat (by decide)) rfl rfl
  | recheck =>
    dsimp only
    split_ifs
    · exact .leave _ _ rfl rfl
    · exact .session _ _ (by rw [hat]; rfl) rfl rfl
  | startPump =>
    dsimp only
    split
    · exact .leave _ _ rfl rfl
    · exact .sessionCall _ _ (by rw [hat]; rfl) rfl rfl rfl
  | startReturned =>
    dsimp only
    split
    · exact .leave _ _ rfl rfl
    · exact .leave _ _ rfl rfl
  | retry =>
    dsimp only
    split_ifs
    · exact .leave _ _ rfl rfl
    · split
      · exact .leave _ _ rfl rfl
      · exact .attempt _ _ _ (hattempt _ hat (by decide)) rfl rfl
  | sleeping =>
    dsimp only
    split_ifs
    · exact .attempt t.backoff _ _ (hattempt _ hat (by decide)) rfl rfl
    · exact .leave _ _ rfl rfl
    · exact .wait
  | waking =>
    dsimp only
    split_ifs
    · exact .leave _ _ rfl rfl
    · exact .attempt t.backoff _ _ (hattempt _ hat (by decide)) rfl rfl
  | quit => exact .drop _ (by rw [hat]; rfl) (Or.inr rfl) rfl
  | quitReturned => exact .leave _ _ rfl rfl
  | ended => exact .finish hat

/-! ## What a step of the service can do -/

omit [DecidableEq ι] in
@[simp] theorem perform_native (s : ShadeVpnService ι κ) (act : Action) :
    (s.perform act).native = s.native := by
  cases act <;> rfl

/-- What a step of thread `i` outside the native layer leaves alone. -/
structure ShadeVpnService.Beside (s : ShadeVpnService ι κ) (i : ι) (s' : ShadeVpnService ι κ) :
    Prop where
  native : s'.native = s.native ∨ ∃ op : Op κ, s'.native = s.native.goto i op.entry
  thread : ∀ j, j ≠ i → s'.thread j = s.thread j
  connectGeneration : s'.connectGeneration = s.connectGeneration
  sessionOf : s'.sessionOf = s.sessionOf
  starts : s'.starts = s.starts
  stopping : s'.stopping = s.stopping

theorem ShadeVpnService.beside_goto (s : ShadeVpnService ι κ) (i : ι) (u : ServiceThread) :
    s.Beside i (s.goto i u) :=
  ⟨Or.inl rfl, fun _ hij => Function.update_of_ne hij _ _, rfl, rfl, rfl, rfl⟩

theorem ShadeVpnService.beside_call (s : ShadeVpnService ι κ) (i : ι) (u : ServiceThread)
    (op : Op κ) :
    s.Beside i ((s.goto i u).call i op) :=
  ⟨Or.inr ⟨op, rfl⟩, fun _ hij => Function.update_of_ne hij _ _, rfl, rfl, rfl, rfl⟩

theorem ShadeVpnService.beside_perform (s : ShadeVpnService ι κ) (i : ι) (u : ServiceThread)
    (act : Action) : s.Beside i ((s.perform act).goto i u) := by
  cases act <;> exact ⟨Or.inl rfl, fun _ hij => Function.update_of_ne hij _ _, rfl, rfl, rfl, rfl⟩

theorem ShadeVpnService.Continues.beside {s s' : ShadeVpnService ι κ} {i : ι} {t : ConnectThread}
    {result : Except SessionError Unit} (h : s.Continues i t result s') : s.Beside i s' := by
  cases h with
  | wait => exact ⟨Or.inl rfl, fun _ _ => rfl, rfl, rfl, rfl, rfl⟩
  | finish => exact s.beside_goto i _
  | early => exact s.beside_goto i _
  | establish => exact ⟨Or.inl rfl, fun _ hij => Function.update_of_ne hij _ _, rfl, rfl, rfl, rfl⟩
  | fetch => exact s.beside_goto i _
  | attempt => exact s.beside_goto i _
  | connect => exact s.beside_call i _ _
  | connected => exact s.beside_goto i _
  | session => exact s.beside_goto i _
  | sessionCall => exact s.beside_call i _ _
  | drop => exact s.beside_call i _ _
  | leave => exact s.beside_goto i _

theorem ShadeVpnService.disconnectStep_beside (s : ShadeVpnService ι κ) (i : ι)
    (t : DisconnectThread) : s.Beside i (s.disconnectStep i t) := by
  unfold ShadeVpnService.disconnectStep
  dsimp only
  split
  · exact s.beside_call i _ _
  · exact s.beside_goto i _
  · exact s.beside_goto i _
  · exact s.beside_goto i _
  · exact ⟨Or.inl rfl, fun _ hij => Function.update_of_ne hij _ _, rfl, rfl, rfl, rfl⟩
  · exact ⟨Or.inl rfl, fun _ hij => Function.update_of_ne hij _ _, rfl, rfl, rfl, rfl⟩
  · exact s.beside_goto i _

/-- The steps of a thread. -/
inductive ShadeVpnService.Moves (C : Crypto κ UInt8) (s : ShadeVpnService ι κ) (i : ι) :
    ShadeVpnService ι κ → Prop
  | finished : Moves C s i s
  | native (busy : ∀ result, s.native.thread i ≠ .returned result) : Moves C s i (s.nativeStep C i)
  | writes {t : ConnectThread} (here : s.thread i = .connect t) (act : Action) (acts : List Action) :
    Moves C s i ((s.perform act).goto i (.connect { t with acts }))
  | stopWrites {t : DisconnectThread} (here : s.thread i = .disconnect t) (act : Action)
    (acts : List Action) : Moves C s i ((s.perform act).goto i (.disconnect { t with acts }))
  | connect {t : ConnectThread} (here : s.thread i = .connect t) (ready : t.acts = [])
    {result : Except SessionError Unit} (back : s.native.thread i = .returned result)
    {s' : ShadeVpnService ι κ} (h : s.Continues i t result s') : Moves C s i s'
  | disconnect {t : DisconnectThread} (here : s.thread i = .disconnect t) (ready : t.acts = [])
    {result : Except SessionError Unit} (back : s.native.thread i = .returned result) :
    Moves C s i (s.disconnectStep i t)

variable {C}

theorem ShadeVpnService.threadStep_moves (s : ShadeVpnService ι κ) (i : ι) (env : Env κ) :
    ShadeVpnService.Moves C s i (s.threadStep C os i env) := by
  unfold ShadeVpnService.threadStep
  split
  · next result back =>
    rcases here : s.thread i with _ | ⟨generation, blockIpv6, fd, backoff, _ | ⟨act, acts⟩, stage⟩ |
      ⟨generation, _ | ⟨act, acts⟩, stage⟩
    · exact .finished
    · exact .connect here rfl back (s.connectStep_continues i _ env result)
    · exact .writes here act acts
    · exact .disconnect here rfl back
    · exact .stopWrites here act acts
  · next busy => exact .native busy

end ShadeVpn.Service
