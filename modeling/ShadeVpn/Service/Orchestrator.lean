import ShadeVpn.Native.Steps
import ShadeVpn.Reality.HonestRun
import ShadeVpn.Service.Snapshot

/-!
# The connection orchestrator

`service/ConnectionOrchestrator.kt` over the native session.  An operation calls
into the native layer, if it does, and then updates the snapshot; the outcome of
everything the native call meets is an argument of the operation.

* `connected_iff` — when a snapshot that says CONNECTED tells the truth: a
  `disconnect`, another connect and the end of the pump leave the phase as it is.
-/

namespace ShadeVpn.Service

open Octets Checked Handshake Transport Pump Native

/-! ## Calls into the native layer -/

/-- What the model takes from libraries: base64, and the `Debug` text of a
`FrameError`, which holds what the operating system says. -/
structure Platform where
  encode : Bytes → String
  decode : String → Option Bytes
  debug : FrameError → String

/-- The `reason` of a refused native operation. -/
def reason (debug : FrameError → String) : SessionError → String
  | .handshakeNotCompleted => "handshake not completed"
  | .socketNotEstablished => "tunnel socket not established"
  | .socketClone os => "socket clone failed: " ++ os
  | .alreadyRunning => "tunnel pump already running"
  | .handshake e => e.reason
  | .probeSend e => "probe send failed: " ++ debug e
  | .probeRead e => "probe response read failed: " ++ debug e
  | .probeClosed => "server closed during probe"
  | .probeMismatch => "probe response mismatch"
  | .notBase64 => "response is not valid base64"
  | .noHandshake => "no handshake in progress"
  | .unreached text => text

/-- A call into the native layer: it runs, or it throws before it does. -/
inductive NativeCall (α : Type) where
  | runs (io : α)
  | throws (message : Option String)

/-- What a connect meets: the request made of the profile, and the server's
response or why there is none. -/
structure ConnectCall (κ : Type) where
  request : ConnectRequest κ
  answer : Except String Bytes

variable {κ : Type} (C : Crypto κ UInt8) (os : Platform)

/-- The `ok` or `reason` of an outcome. -/
def Platform.answer (o : Outcome κ) : Session κ × Except String Unit :=
  match o.result with
  | .ok () => (o.session, .ok ())
  | .error e => (o.session, .error (reason os.debug e))

/-- `nativeConnectTunnel`, with the response as base64. -/
def nativeConnectTunnel (s : Session κ) : NativeCall (ConnectCall κ) →
    Session κ × Except String String
  | .throws message => (s, .error (message.getD ""))
  | .runs ⟨request, .error text⟩ =>
    let (s, result) := os.answer (s.connect C request (some text))
    (s, result.map fun _ => "")
  | .runs ⟨request, .ok response⟩ =>
    let (s, result) := os.answer (s.connect C request none)
    (s, result.map fun _ => os.encode response)

/-- `nativeCompleteHandshake`. -/
def nativeCompleteHandshake (s : Session κ) (text : String) :
    NativeCall Unit → Session κ × Except String Unit
  | .throws message => (s, .error (message.getD ""))
  | .runs () => os.answer (s.complete C (os.decode text))

/-- `nativeProbeDataPlane`. -/
def nativeProbeDataPlane (s : Session κ) : NativeCall ProbeIo → Session κ × Except String Unit
  | .throws message => (s, .error (message.getD ""))
  | .runs io => os.answer (s.probe C io)

/-- `nativeStartTunnelPump`. -/
def nativeStartTunnelPump (s : Session κ) (blockIpv6 : Bool) :
    NativeCall StartIo → Session κ × Except String Unit
  | .throws message => (s, .error (message.getD ""))
  | .runs io => os.answer (s.startPump blockIpv6 io)

/-- `nativeDisconnectTunnel`, whose exceptions are dropped. -/
def nativeDisconnectTunnel (s : Session κ) (reached : Bool) : Session κ :=
  if reached then s.teardown else s

/-! ## The orchestrator -/

/-- `ConnectionOrchestrator` and the native session.  `probed` is the connect on
whose session the last probe passed, and `shut` the one whose socket the pump has
shut down since; the code keeps neither. -/
structure App (κ : Type) where
  pendingServerResponseB64 : Option String
  snapshot : ConnectionSnapshot
  session : Session κ
  probed : Option ℕ
  shut : Option ℕ

/-- `mutate`. -/
def App.mutate (a : App κ) (block : ConnectionSnapshot → ConnectionSnapshot) : App κ :=
  { a with snapshot := block a.snapshot }

def App.loadProfile (a : App κ) : Except String VlessProfile → App κ
  | .ok profile => a.mutate (.profileLoaded profile)
  | .error message => a.mutate (.profileRejected message)

/-- `buildRealityLane`, with the answer of `nativeBuildLane`. -/
def App.buildRealityLane (a : App κ) (call : NativeCall String) : App κ × Except String String :=
  match a.snapshot.selectedProfile, call with
  | none, _ => (a, .error "No profile selected")
  | some _, .runs lane => (a, .ok lane)
  | some _, .throws message => (a.mutate .laneFailed, .error (message.getD ""))

/-- `probeControlPlane`, with the `reachable` of `nativeProbeControlPlane`. -/
def App.probeControlPlane (a : App κ) (call : NativeCall Bool) : App κ × Except String Bool :=
  match a.snapshot.selectedProfile, call with
  | none, _ => (a, .error "No profile selected")
  | some _, .runs reachable => (a.mutate (.controlPlaneProbed reachable), .ok reachable)
  | some _, .throws message => (a, .error (message.getD ""))

/-- `connectTunnel`'s `onFailure`. -/
def App.connectFailed (a : App κ) (message : String) (reached : Bool) : App κ :=
  { a with
    session := nativeDisconnectTunnel a.session reached
    pendingServerResponseB64 := none }.mutate (.tunnelFailed message)

def App.connectTunnel (a : App κ) (call : NativeCall (ConnectCall κ)) (reached : Bool) :
    App κ × Except String Unit :=
  match a.snapshot.selectedProfile with
  | none => (a, .error "No profile selected")
  | some _ =>
    match nativeConnectTunnel C os a.session call with
    | (session, .error message) =>
      ({ a with session }.connectFailed message reached, .error message)
    | (session, .ok responseB64) =>
      if isBlank responseB64 then
        ({ a with session }.connectFailed "server response missing from tunnel payload" reached,
          .error "server response missing from tunnel payload")
      else
        ({ a with session, pendingServerResponseB64 := some responseB64 }.mutate .tunnelConnected,
          .ok ())

/-- `completeHandshake`, with the pending response unless one is given. -/
def App.completeHandshake (a : App κ) (given : Option (Option String)) (call : NativeCall Unit) :
    App κ × Except String Unit :=
  match given.getD a.pendingServerResponseB64 with
  | none => (a, .error "No server response to authenticate")
  | some text =>
    if isBlank text then (a, .error "No server response to authenticate")
    else
      match nativeCompleteHandshake C os a.session text call with
      | (session, .ok ()) =>
        ({ a with session, pendingServerResponseB64 := none }.mutate .handshakeAccepted, .ok ())
      | (session, .error message) =>
        ({ a with session, pendingServerResponseB64 := none }.mutate (.handshakeRejected message),
          .error message)

def App.runDataPlaneProbe (a : App κ) (call : NativeCall ProbeIo) : App κ × Except String Unit :=
  match nativeProbeDataPlane C os a.session call with
  | (session, .ok ()) =>
    ({ a with session, probed := a.session.handshake.map Handle.id, shut := none }.mutate
      .probePassed, .ok ())
  | (session, .error message) =>
    ({ a with session }.mutate (.probeFailed message), .error message)

def App.startPump (a : App κ) (blockIpv6 : Bool) (call : NativeCall StartIo) :
    App κ × Except String Unit :=
  match nativeStartTunnelPump os a.session blockIpv6 call with
  | (session, .ok ()) => ({ a with session }.mutate (.pumpStarted blockIpv6), .ok ())
  | (session, .error message) => ({ a with session }.mutate (.pumpRefused message), .error message)

def App.beginRetry (a : App κ) (attempt : Int32) : App κ :=
  { a with pendingServerResponseB64 := none }.mutate (.beginRetry attempt)

/-- `disconnect`, whose native call is reached or throws. -/
def App.disconnect (a : App κ) (reached : Bool) : App κ :=
  { a with
    session := nativeDisconnectTunnel a.session reached
    pendingServerResponseB64 := none }.mutate .disconnected

def App.reset (a : App κ) : App κ := { a with pendingServerResponseB64 := none }.mutate .reset

/-- After a turn of a pump thread: a halt handle that is gone has shut down the socket
the pump was started on. -/
def App.turned (a : App κ) (session : Session κ) : App κ :=
  { a with
    session
    shut := if a.session.pump.halt && !session.pump.halt then
        a.session.pump.threads.map fun t => t.handle.id
      else a.shut }

/-! ## Runs -/

/-- The operations of the orchestrator, with the outcomes of what they call, and
the turns of the pump threads between them. -/
inductive Operation (κ : Type) where
  | markPermissionRequested
  | onPermissionResult (granted : Bool)
  | loadProfile (parsed : Except String VlessProfile)
  | establishTun (fd : Int32)
  | buildRealityLane (call : NativeCall String)
  | probeControlPlane (call : NativeCall Bool)
  | connectTunnel (call : NativeCall (ConnectCall κ)) (reached : Bool)
  | completeHandshake (given : Option (Option String)) (call : NativeCall Unit)
  | runDataPlaneProbe (call : NativeCall ProbeIo)
  | startPump (blockIpv6 : Bool) (call : NativeCall StartIo)
  | beginRetry (attempt : Int32)
  | reportRetryExhausted
  | reportRetryDelay (attempt : Int32) (delayMs : Int64)
  | disconnect (reached : Bool)
  | fail (reason : FailureReason) (message : String)
  | revoke
  | reset
  | outbound (e : TunRead)
  | inbound (e : SocketRead)

/-- One operation. -/
def App.step (a : App κ) : Operation κ → App κ
  | .markPermissionRequested => a.mutate .markPermissionRequested
  | .onPermissionResult granted => a.mutate (.onPermissionResult granted)
  | .loadProfile parsed => a.loadProfile parsed
  | .establishTun fd => a.mutate (.establishTun fd)
  | .buildRealityLane call => (a.buildRealityLane call).1
  | .probeControlPlane call => (a.probeControlPlane call).1
  | .connectTunnel call reached => (a.connectTunnel C os call reached).1
  | .completeHandshake given call => (a.completeHandshake C os given call).1
  | .runDataPlaneProbe call => (a.runDataPlaneProbe C os call).1
  | .startPump blockIpv6 call => (a.startPump os blockIpv6 call).1
  | .beginRetry attempt => a.beginRetry attempt
  | .reportRetryExhausted => a.mutate .reportRetryExhausted
  | .reportRetryDelay attempt delayMs => a.mutate (.reportRetryDelay attempt delayMs)
  | .disconnect reached => a.disconnect reached
  | .fail reason message => a.mutate (.fail reason message)
  | .revoke => a.mutate .revoke
  | .reset => a.reset
  | .outbound e => a.turned (a.session.outboundTurn C e).session
  | .inbound e => a.turned (a.session.inboundTurn C e).session

/-- A new orchestrator, in a process with a new session. -/
def App.new (nativeVersion : String) : App κ := ⟨none, { nativeVersion }, .new, none, none⟩

/-! ## CONNECTED -/

/-- The session has a completed handshake and a socket that is not shut down, and a
probe has passed on it since it was connected. -/
def App.Proven (a : App κ) : Prop :=
  ∃ h, a.session.handshake = some h ∧ h.state.completed = true ∧ a.session.socket = true ∧
    a.shut ≠ some h.id ∧ a.probed = some h.id

/-- CONNECTED tells the truth. -/
def App.Truthful (a : App κ) : Prop := a.snapshot.phase = .connected → a.Proven

/-- The connect of an operation succeeds: there is a profile, the native call runs
and gets a response that is not empty, and the hello could be built. -/
def App.Connects (a : App κ) (call : NativeCall (ConnectCall κ)) : Prop :=
  a.snapshot.selectedProfile.isSome ∧ ∃ request response st, call = .runs ⟨request, .ok response⟩ ∧
    isBlank (os.encode response) = false ∧
    initiate C request.params request.ephemeral request.unixTime = .ok st

/-- The pump was started on the session's socket, and its threads are so. -/
def App.OwnPump (a : App κ) (P : PumpThreads κ → Prop) : Prop :=
  ∃ h ∈ a.session.handshake, ∃ t ∈ a.session.pump.threads, t.handle.id = h.id ∧ P t

/-- An operation that takes the session away and leaves the phase: a `disconnect`
whose native call is reached, another connect that succeeds, or a turn in which a
half of the session's own pump shuts the socket down. -/
def App.TakesSession (a : App κ) : Operation κ → Prop
  | .disconnect reached => reached = true
  | .connectTunnel call _ => a.Connects C os call
  | .outbound e => a.OwnPump (a.session.OutboundHalts C e)
  | .inbound e => a.OwnPump (a.session.InboundHalts C e)
  | _ => False

variable {C os}

/-- An operation that keeps the phase, the handshake and the socket keeps the truth. -/
theorem App.Truthful.of_eq {a b : App κ} (h : a.Truthful)
    (hphase : b.snapshot.phase = a.snapshot.phase)
    (hhandshake : b.session.handshake = a.session.handshake)
    (hsocket : b.session.socket = a.session.socket) (hshut : b.shut = a.shut)
    (hprobed : b.probed = a.probed) : b.Truthful := by
  unfold App.Truthful App.Proven at h ⊢
  rwa [hphase, hhandshake, hsocket, hshut, hprobed]

theorem App.truthful_of_phase {a : App κ} (h : a.snapshot.phase ≠ .connected) : a.Truthful :=
  fun hconnected => absurd hconnected h

/-! ### The native calls -/

@[simp] theorem answer_fst (o : Outcome κ) : (os.answer o).1 = o.session := by
  unfold Platform.answer
  split <;> rfl

theorem answer_ok {o : Outcome κ} {s : Session κ} (h : os.answer o = (s, .ok ())) :
    o.result = .ok () ∧ s = o.session := by
  unfold Platform.answer at h
  split at h
  · next hok => exact ⟨hok, (Prod.ext_iff.1 h).1.symm⟩
  · cases (Prod.ext_iff.1 h).2

/-- A connect that succeeds: a new handshake on a new socket. -/
theorem nativeConnectTunnel_ok (s : Session κ) {request : ConnectRequest κ} (response : Bytes)
    {st : HandshakeState κ UInt8}
    (hinit : initiate C request.params request.ephemeral request.unixTime = .ok st) :
    nativeConnectTunnel C os s (.runs ⟨request, .ok response⟩) = ({ s with
      handshake := some ⟨s.created, s.nextOutSeq, st⟩
      socket := true
      vlessTunnel := some request.vlessParams
      created := s.created + 1 }, .ok (os.encode response)) := by
  simp [nativeConnectTunnel, Session.connect, hinit, Platform.answer, Except.map]

/-- Every other connect fails. -/
theorem nativeConnectTunnel_error (s : Session κ) {call : NativeCall (ConnectCall κ)}
    (h : ∀ request response st, call = .runs ⟨request, .ok response⟩ →
      initiate C request.params request.ephemeral request.unixTime ≠ .ok st) :
    ∃ s' message, nativeConnectTunnel C os s call = (s', .error message) := by
  cases call with
  | throws message => exact ⟨s, message.getD "", rfl⟩
  | runs io =>
    obtain ⟨request, text | response⟩ := io
    · exact ⟨s, text, rfl⟩
    · rcases hinit : initiate C request.params request.ephemeral request.unixTime with e | st
      · refine ⟨s, ?_⟩
        cases e <;>
          simp [nativeConnectTunnel, Session.connect, hinit, Platform.answer, Except.map]
      · exact absurd hinit (h request response st rfl)

/-- A probe that passes was made on a completed handshake and a socket, which stay. -/
theorem nativeProbeDataPlane_ok {s s' : Session κ} {call : NativeCall ProbeIo}
    (h : nativeProbeDataPlane C os s call = (s', .ok ())) :
    ∃ hd, s.handshake = some hd ∧ hd.state.completed = true ∧ s.socket = true ∧
      s'.handshake = s.handshake ∧ s'.socket = s.socket := by
  cases call with
  | throws message => cases h
  | runs io =>
    obtain ⟨hok, rfl⟩ := answer_ok h
    obtain ⟨hd, hhd, hdone, hsocket⟩ := probe_ok hok
    refine ⟨hd, hhd, hdone, hsocket, ?_⟩
    rcases probe_cases C s io with ⟨hsame, -⟩ | ⟨_, _, _, _, -, -, hsame, -⟩
    · rw [hsame]
      exact ⟨rfl, rfl⟩
    · rw [hsame]
      exact ⟨rfl, rfl⟩

theorem nativeStartTunnelPump_keeps (s : Session κ) (blockIpv6 : Bool) (call : NativeCall StartIo) :
    (nativeStartTunnelPump os s blockIpv6 call).1.handshake = s.handshake ∧
      (nativeStartTunnelPump os s blockIpv6 call).1.socket = s.socket := by
  cases call with
  | throws message => exact ⟨rfl, rfl⟩
  | runs io =>
    rw [nativeStartTunnelPump, answer_fst, Session.startPump]
    split
    · exact ⟨rfl, rfl⟩
    · split_ifs
      · exact ⟨rfl, rfl⟩
      · exact ⟨rfl, rfl⟩
      · split <;> exact ⟨rfl, rfl⟩

/-! ### The operations -/

/-- A connect keeps the truth unless it succeeds on a CONNECTED snapshot. -/
theorem App.connectTunnel_truthful {a : App κ} (h : a.Truthful) (call : NativeCall (ConnectCall κ))
    (reached : Bool) : (a.connectTunnel C os call reached).1.Truthful ↔
      ¬ (a.snapshot.phase = .connected ∧ a.Connects C os call) := by
  have hfailed : ∀ (b : App κ) message, (b.connectFailed message reached).Truthful := by
    intro b message
    apply App.truthful_of_phase
    simp [App.connectFailed, App.mutate]
  by_cases hconnects : a.Connects C os call
  · obtain ⟨hprofile, request, response, st, rfl, hblank, hinit⟩ := hconnects
    obtain ⟨profile, hprofile⟩ := Option.isSome_iff_exists.1 hprofile
    obtain ⟨-, hfresh, -⟩ := initiate_fresh hinit
    have hrun : (a.connectTunnel C os (.runs ⟨request, .ok response⟩) reached).1
        = { a with
            session := { a.session with
              handshake := some ⟨a.session.created, a.session.nextOutSeq, st⟩
              socket := true
              vlessTunnel := some request.vlessParams
              created := a.session.created + 1 }
            pendingServerResponseB64 := some (os.encode response) }.mutate .tunnelConnected := by
      simp [App.connectTunnel, hprofile, nativeConnectTunnel_ok _ _ hinit, hblank]
    rw [hrun]
    constructor
    · -- the new handshake is not completed, and the phase is what it was
      rintro htrue ⟨hphase, -⟩
      obtain ⟨hd, hhd, hdone, -⟩ := htrue hphase
      cases hhd
      rw [hfresh] at hdone
      cases hdone
    · intro hnot hphase
      exact absurd ⟨hphase, by simp [hprofile], request, response, st, rfl, hblank, hinit⟩ hnot
  · refine ⟨fun _ hboth => hconnects hboth.2, fun _ => ?_⟩
    unfold App.connectTunnel
    split
    · exact h
    · next profile hprofile =>
      split
      · exact hfailed _ _
      · next s' responseB64 hcall =>
        split_ifs with hblank
        · exact hfailed _ _
        · -- then it has succeeded
          exfalso
          apply hconnects
          by_contra hnone
          obtain ⟨s'', message, herror⟩ : ∃ s'' message,
              nativeConnectTunnel C os a.session call = (s'', .error message) := by
            apply nativeConnectTunnel_error
            rintro request response st rfl hinit
            rw [nativeConnectTunnel_ok _ _ hinit] at hcall
            obtain rfl := Except.ok.inj (Prod.ext_iff.1 hcall).2
            exact hnone ⟨by simp [hprofile], request, response, st, rfl, by simpa using hblank,
              hinit⟩
          rw [hcall] at herror
          cases (Prod.ext_iff.1 herror).2

/-- A turn keeps the truth unless it shuts down the socket of a CONNECTED session. -/
theorem App.turned_truthful {a : App κ} (h : a.Truthful) {pump : TunnelPump κ}
    {halts : PumpThreads κ → Prop} (hhalts : a.session.pump.halt = true ∧ pump.halt = false ↔
      ∃ t ∈ a.session.pump.threads, halts t) :
    (a.turned { a.session with pump }).Truthful ↔
      ¬ (a.snapshot.phase = .connected ∧ a.OwnPump halts) := by
  by_cases hgone : a.session.pump.halt = true ∧ pump.halt = false
  · have hshut : (a.turned { a.session with pump }).shut
        = a.session.pump.threads.map fun t => t.handle.id := by
      simp [App.turned, hgone]
    obtain ⟨t, ht, hhalt⟩ := hhalts.1 hgone
    constructor
    · rintro htrue ⟨hphase, hd, hhd, t', ht', hid, -⟩
      obtain ⟨hd', hhd', -, -, hopen, -⟩ := htrue hphase
      obtain rfl : hd = hd' := Option.some.inj (hhd.symm.trans hhd')
      exact hopen (by rw [hshut, Option.map_eq_some_iff]; exact ⟨t', ht', hid⟩)
    · intro hnot hphase
      obtain ⟨hd, hhd, hdone, hsocket, -, hprobed⟩ := h hphase
      refine ⟨hd, hhd, hdone, hsocket, ?_, hprobed⟩
      rw [hshut, Ne, Option.map_eq_some_iff]
      rintro ⟨t', ht', hid⟩
      obtain rfl : t = t' := Option.some.inj (ht.symm.trans ht')
      exact hnot ⟨hphase, hd, hhd, t, ht, hid, hhalt⟩
  · have hkept : (a.turned { a.session with pump }).shut = a.shut := by
      rw [App.turned, if_neg (by simpa using hgone)]
    refine iff_of_true (h.of_eq rfl rfl rfl hkept rfl) ?_
    rintro ⟨-, hd, -, t, ht, -, hhalt⟩
    exact hgone (hhalts.2 ⟨t, ht, hhalt⟩)

theorem App.completeHandshake_truthful {a : App κ} (h : a.Truthful) (given : Option (Option String))
    (call : NativeCall Unit) : (a.completeHandshake C os given call).1.Truthful := by
  unfold App.completeHandshake
  split
  · exact h
  · split_ifs
    · exact h
    · split
      · exact App.truthful_of_phase (by simp [App.mutate])
      · exact App.truthful_of_phase (by simp [App.mutate])

/-- A probe tells the truth. -/
theorem App.runDataPlaneProbe_truthful (a : App κ) (call : NativeCall ProbeIo) :
    (a.runDataPlaneProbe C os call).1.Truthful := by
  unfold App.runDataPlaneProbe
  split
  · next s' hcall =>
    obtain ⟨hd, hhd, hdone, hsocket, hsame, hsocket'⟩ := nativeProbeDataPlane_ok hcall
    intro _
    refine ⟨hd, hsame.trans hhd, hdone, hsocket'.trans hsocket, nofun, ?_⟩
    show a.session.handshake.map Handle.id = some hd.id
    rw [hhd]
    rfl
  · exact App.truthful_of_phase (by simp [App.mutate])

/-- **What an operation does to the truth.** -/
theorem App.step_truthful {a : App κ} (h : a.Truthful) (op : Operation κ) :
    (a.step C os op).Truthful ↔ ¬ (a.snapshot.phase = .connected ∧ a.TakesSession C os op) := by
  -- a disconnect, a connect and the turns of the pump aside, an operation keeps the truth
  have hkeeps : (a.step C os op).Truthful → ¬ a.TakesSession C os op →
      ((a.step C os op).Truthful ↔ ¬ (a.snapshot.phase = .connected ∧ a.TakesSession C os op)) :=
    fun htrue hnot => ⟨fun _ hboth => hnot hboth.2, fun _ => htrue⟩
  cases op with
  | connectTunnel call reached => exact App.connectTunnel_truthful h call reached
  | disconnect reached =>
    cases reached with
    | true =>
      refine ⟨?_, fun hnot hphase => absurd ⟨hphase, rfl⟩ hnot⟩
      rintro htrue ⟨hphase, -⟩
      obtain ⟨hd, hhd, -⟩ := htrue hphase
      cases hhd
    | false => exact hkeeps (h.of_eq rfl rfl rfl rfl rfl) (by simp [App.TakesSession])
  | runDataPlaneProbe call => exact hkeeps (a.runDataPlaneProbe_truthful call) id
  | completeHandshake given call => exact hkeeps (App.completeHandshake_truthful h given call) id
  | startPump blockIpv6 call =>
    obtain ⟨hhandshake, hsocket⟩ := @nativeStartTunnelPump_keeps κ os a.session blockIpv6 call
    refine hkeeps ?_ id
    unfold App.step App.startPump
    dsimp only
    split
    · next hcall =>
      rw [hcall] at hhandshake hsocket
      exact h.of_eq (by simp [App.mutate]) hhandshake hsocket rfl rfl
    · next hcall =>
      rw [hcall] at hhandshake hsocket
      exact h.of_eq (by simp [App.mutate]) hhandshake hsocket rfl rfl
  | outbound e =>
    obtain ⟨pump, hsession, -⟩ := outboundTurn_pump (C := C) a.session e
    have hhalts := outboundTurn_takes_halt (C := C) a.session e
    rw [App.step, hsession]
    rw [hsession] at hhalts
    exact App.turned_truthful h hhalts
  | inbound e =>
    obtain ⟨pump, hsession, -⟩ := inboundTurn_pump (C := C) a.session e
    have hhalts := inboundTurn_takes_halt (C := C) a.session e
    rw [App.step, hsession]
    rw [hsession] at hhalts
    exact App.turned_truthful h hhalts
  | buildRealityLane call =>
    refine hkeeps ?_ id
    unfold App.step App.buildRealityLane
    dsimp only
    split
    · exact h
    · exact h
    · exact App.truthful_of_phase (by simp [App.mutate])
  | probeControlPlane call =>
    refine hkeeps ?_ id
    unfold App.step App.probeControlPlane
    dsimp only
    split
    · exact h
    · next reachable _ =>
      cases reachable with
      | true => exact h.of_eq (by simp [App.mutate]) rfl rfl rfl rfl
      | false => exact App.truthful_of_phase (by simp [App.mutate])
    · exact h
  | onPermissionResult granted =>
    refine hkeeps (App.truthful_of_phase ?_) id
    cases granted <;> simp [App.step, App.mutate]
  | loadProfile parsed =>
    cases parsed with
    | ok profile => exact hkeeps (h.of_eq rfl rfl rfl rfl rfl) id
    | error message =>
      exact hkeeps (App.truthful_of_phase (by simp [App.step, App.loadProfile, App.mutate])) id
  | establishTun fd =>
    refine hkeeps (App.truthful_of_phase ?_) id
    simp only [App.step, App.mutate, ConnectionSnapshot.establishTun_phase]
    split_ifs <;> simp
  | reportRetryDelay attempt delayMs => exact hkeeps (h.of_eq rfl rfl rfl rfl rfl) id
  | _ =>
    refine hkeeps (App.truthful_of_phase ?_) id
    simp [App.step, App.mutate, App.beginRetry, App.reset]

/-- **When CONNECTED tells the truth.**  In a run of operations with any outcomes,
every CONNECTED snapshot stands for a session with a completed handshake and an open
socket on which a probe has passed since it was connected, exactly if no
operation and no turn of the pump takes the session away while the phase is
CONNECTED. -/
theorem connected_iff (nativeVersion : String) (ops : List (Operation κ)) :
    Machine.Always (App.step C os) App.Truthful (.new nativeVersion) ops ↔
      Machine.Along (App.step C os)
        (fun a op => ¬ (a.snapshot.phase = .connected ∧ a.TakesSession C os op))
        (.new nativeVersion) ops :=
  Machine.always_iff_along (I := fun _ => True) (fun _ _ h => h)
    (fun _ op _ h => App.step_truthful h op) ops trivial
    (App.truthful_of_phase (by simp [App.new]))

/-- Base64 of the one response of the sample. -/
def samplePlatform : Platform where
  encode := fun _ => "response"
  decode := fun _ => some sampleResponse
  debug := fun _ => ""

def sampleProfile : VlessProfile where
  name := "sample"
  serverAddress := "192.0.2.1"
  serverPort := 443
  uuid := "07070707-0707-0707-0707-070707070707"
  flow := some "xtls-rprx-vision"
  security := "reality"
  network := "tcp"
  host := none
  path := none
  sni := some "example.com"
  publicKey := none
  shortId := some "0102"
  fingerprint := none

/-- The server's echo of the sample's first probe. -/
def sampleEcho : Bytes :=
  match initiate Crypto.toy sampleRequest.params sampleRequest.ephemeral sampleRequest.unixTime with
  | .error _ => []
  | .ok st =>
    match serve Crypto.toy 3 (copyFrom 8 (Reality.padShortId [1, 2])) 7 9 st.wireHello with
    | .error _ => []
    | .ok (_, session) => (session.sealRecord Crypto.toy 0 PROBE).getD []

/-- A stop after CONNECTED: the session is gone and the phase is what it was. -/
theorem not_connected_disconnect :
    let a := Machine.run (App.step Crypto.toy samplePlatform) (.new "shadevpn-native/0.7.0")
      [.loadProfile (.ok sampleProfile),
        .connectTunnel (.runs ⟨sampleRequest, .ok sampleResponse⟩) true,
        .completeHandshake none (.runs ()),
        .runDataPlaneProbe (.runs ⟨none, none, .ok (some sampleEcho)⟩), .disconnect true]
    a.snapshot.phase = .connected ∧ a.session.handshake.isNone ∧ a.session.socket = false := by
  decide +kernel

end ShadeVpn.Service
