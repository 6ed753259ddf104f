import ShadeVpn.Native.OneCaller
import ShadeVpn.Service.Stages
import ShadeVpn.Service.VpnService

/-!
# A thread alone

A connect thread that nobody interrupts does what `attemptConnect` does in a row, so what
holds of the orchestrator with its operations one after the other holds of the service.

* `Stands.goes`, `Stands.calls` — a step of the service with what it writes, and a native
  call with all its steps.
* `attempt_alone` — an attempt of a thread alone is the attempt of the orchestrator.
-/

namespace ShadeVpn.Service

open Octets Checked Handshake Transport Pump Native Json Profile

variable {ι κ : Type} [DecidableEq ι] (C : Crypto κ UInt8) (os : Platform)

/-! ## Runs of a thread alone -/

/-- Thread `i` alone comes from `s` to a state with `P`; each of its steps meets `env`. -/
def ShadeVpnService.Reaches (s : ShadeVpnService ι κ) (i : ι) (env : Env κ)
    (P : ShadeVpnService ι κ → Prop) : Prop :=
  ∃ n, P (Machine.run (ShadeVpnService.step C os) s (Event.steps i env n))

/-- What a write of a thread does to the orchestrator. -/
def App.perform (a : App κ) : Action → App κ
  | .setPending responseB64 => { a with pendingServerResponseB64 := responseB64 }
  | .mutate block => a.mutate block

/-- Thread `i` stands at `t`, back from its last native call with `result`, and the
orchestrator is as `a` has it; the rest is as `s₀` has it. -/
structure Stands (s₀ : ShadeVpnService ι κ) (i : ι) (t : ConnectThread) (a : App κ)
    (result : Except SessionError Unit) (s : ShadeVpnService ι κ) : Prop where
  thread : s.thread = Function.update s₀.thread i (.connect t)
  back : s.native.thread i = .returned result
  calm : s.native.Calm
  pending : s.pendingServerResponseB64 = a.pendingServerResponseB64
  snapshot : s.snapshot = a.snapshot
  session : s.native.current = a.session
  generation : s.connectGeneration = s₀.connectGeneration
  tunInterface : s.tunInterface = s₀.tunInterface
  tuns : s.tuns = s₀.tuns

variable {C os} {s₀ s s' : ShadeVpnService ι κ} {i : ι} {env : Env κ} {t t' : ConnectThread}
  {a : App κ} {result : Except SessionError Unit} {P : ShadeVpnService ι κ → Prop}

theorem ShadeVpnService.Reaches.here (h : P s) : s.Reaches C os i env P := ⟨0, h⟩

theorem ShadeVpnService.Reaches.step (hstep : s.threadStep C os i env = s')
    (h : s'.Reaches C os i env P) : s.Reaches C os i env P := by
  obtain ⟨n, hn⟩ := h
  rw [← hstep] at hn
  exact ⟨n + 1, hn⟩

/-- Thread `i` stays in its native call until it returns, and the native layer alone moves. -/
theorem native_reaches (n : ℕ) :
    ∀ {s : ShadeVpnService ι κ},
      ((fun native => native.step C i)^[n] s.native).thread i = .returned result →
      (∀ sessionOf starts, ShadeVpnService.Reaches C os
        { s with native := (fun native => native.step C i)^[n] s.native, sessionOf, starts }
        i env P) →
      s.Reaches C os i env P := by
  induction n with
  | zero =>
    intro s _ hnext
    exact hnext s.sessionOf s.starts
  | succ n ih =>
    intro s hback hnext
    by_cases hbusy : ∀ other, s.native.thread i ≠ .returned other
    · have hstep : s.threadStep C os i env = s.nativeStep C i := by
        unfold ShadeVpnService.threadStep
        split
        · next other hother => exact absurd hother (hbusy other)
        · rfl
      exact .step hstep (ih hback fun sessionOf starts => hnext sessionOf starts)
    · -- it has returned, and its steps change nothing more
      simp only [not_forall, not_not] at hbusy
      obtain ⟨other, hother⟩ := hbusy
      have hidle : s.native.step C i = s.native := by
        unfold Shared.step
        rw [hother]
      have hiter : (fun native => native.step C i)^[n + 1] s.native = s.native :=
        Function.iterate_fixed hidle (n + 1)
      rw [hiter] at hnext
      exact hnext s.sessionOf s.starts

/-- What a thread does that stands ready. -/
theorem Stands.threadStep (h : Stands s₀ i t a result s) (ready : t.acts = []) :
    s.threadStep C os i env = s.connectStep os i t env result := by
  have here : s.thread i = .connect t := by rw [h.thread, Function.update_self]
  obtain ⟨generation, blockIpv6, fd, backoff, acts, stage⟩ := t
  dsimp only at ready
  subst ready
  unfold ShadeVpnService.threadStep
  rw [h.back, here]

/-- The thread goes on. -/
theorem Stands.goto (h : Stands s₀ i t a result s) (t' : ConnectThread) :
    Stands s₀ i t' a result (s.goto i (.connect t')) := by
  refine ⟨?_, h.back, h.calm, h.pending, h.snapshot, h.session, h.generation, h.tunInterface,
    h.tuns⟩
  show Function.update s.thread i (.connect t') = _
  rw [h.thread, Function.update_idem]

/-- A write of the thread. -/
theorem Stands.perform (h : Stands s₀ i t a result s) (act : Action) :
    Stands s₀ i t (a.perform act) result (s.perform act) := by
  cases act with
  | setPending responseB64 =>
    exact ⟨h.thread, h.back, h.calm, rfl, h.snapshot, h.session, h.generation, h.tunInterface,
      h.tuns⟩
  | mutate block =>
    exact ⟨h.thread, h.back, h.calm, h.pending, congrArg block h.snapshot, h.session,
      h.generation, h.tunInterface, h.tuns⟩

/-- What is to be written is written. -/
theorem Stands.performs {acts : List Action} :
    ∀ {s : ShadeVpnService ι κ} {a : App κ}, Stands s₀ i { t with acts } a result s →
      (∀ s', Stands s₀ i { t with acts := [] } (acts.foldl App.perform a) result s' →
        s'.Reaches C os i env P) →
      s.Reaches C os i env P := by
  induction acts with
  | nil =>
    intro s a h hnext
    exact hnext s h
  | cons act acts ih =>
    intro s a h hnext
    have here : s.thread i = .connect { t with acts := act :: acts } := by
      rw [h.thread, Function.update_self]
    have hstep : s.threadStep C os i env
        = (s.perform act).goto i (.connect { t with acts }) := by
      unfold ShadeVpnService.threadStep
      rw [h.back, here]
    exact .step hstep (ih ((h.perform act).goto _) hnext)

/-- **A step of the service**, and all it writes. -/
theorem Stands.goes (h : Stands s₀ i t a result s) (ready : t.acts = []) (t' : ConnectThread)
    (hstep : s.connectStep os i t env result = s.goto i (.connect t'))
    (hnext : ∀ s', Stands s₀ i { t' with acts := [] } (t'.acts.foldl App.perform a) result s' →
      s'.Reaches C os i env P) :
    s.Reaches C os i env P := by
  refine .step ((h.threadStep ready).trans hstep) ?_
  have hstands := h.goto t'
  exact hstands.performs hnext

/-- **A native call** with all its steps is the operation of the session. -/
theorem call_reaches (hcalm : s.native.Calm) (back : s.native.thread i = .returned result)
    (op : Op κ)
    (hnext : ∀ native : Shared ι κ, native.Calm →
      native.thread i = .returned (s.native.current.step C op).result →
      native.current = (s.native.current.step C op).session → ∀ sessionOf starts,
      ShadeVpnService.Reaches C os { s with native, sessionOf, starts } i env P) :
    (s.call i op).Reaches C os i env P := by
  obtain ⟨n, hdid, hcalm'⟩ := calm_call (C := C) hcalm back op
  have hcall : s.native.act C (.call i op) = s.native.goto i op.entry := by
    simp only [Shared.act, back]
  have hrun : Machine.run (Shared.act C) s.native (Act.calls i op n)
      = (fun native => native.step C i)^[n] (s.native.goto i op.entry) := by
    rw [Act.calls, Machine.run_cons, hcall, Act.steps, Machine.run_replicate]
    rfl
  rw [hrun] at hdid hcalm'
  exact native_reaches n hdid.result fun sessionOf starts =>
    hnext _ hcalm' hdid.result hdid.session sessionOf starts

theorem Stands.calls (h : Stands s₀ i t a result s) (ready : t.acts = []) (t' : ConnectThread)
    (op : Op κ)
    (hstep : s.connectStep os i t env result = (s.goto i (.connect t')).call i op)
    (hnext : ∀ s', Stands s₀ i t' { a with session := (a.session.step C op).session }
      (a.session.step C op).result s' → s'.Reaches C os i env P) :
    s.Reaches C os i env P := by
  refine .step ((h.threadStep ready).trans hstep) ?_
  refine call_reaches (h.goto t').calm (h.goto t').back op ?_
  intro native hcalm hback hcurrent sessionOf starts
  rw [(h.goto t').session] at hback hcurrent
  exact hnext _ ⟨(h.goto t').thread, hback, hcalm, h.pending, h.snapshot, hcurrent, h.generation,
    h.tunInterface, h.tuns⟩

/-! ## The stages of an attempt -/

variable (text : Value → String)

/-- What the steps of an attempt meet, for a profile. -/
def AttemptCalls.meets (calls : AttemptCalls κ) (profile : Option VlessProfile) : Env κ where
  lane := calls.lane.map fun readable =>
    text (nativeBuildLane (profile.bind fun profile => payloadOf profile readable))
  reachable := calls.control.map fun (readable, io) =>
    optBoolean "reachable" false
      (nativeProbeControlPlane (profile.bind fun profile => payloadOf profile readable) io)
  connect := calls.connect
  complete := calls.complete
  probe := calls.probe
  start := calls.start

/-- Connect thread `i` is at a stage. -/
abbrev ConnectThread.at (t : ConnectThread) (stage : Stage) : ConnectThread :=
  { t with acts := [], stage }

variable {text} {calls : AttemptCalls κ}

theorem Stands.lane (h : Stands s₀ i (t.at .buildRealityLane) a result s)
    (henv : env.lane = (calls.meets text a.snapshot.selectedProfile).lane)
    (hnext : (a.laneStage text calls.lane).succeeded = true → ∀ s',
      Stands s₀ i (t.at .probeControlPlane) (a.laneStage text calls.lane).app result s' →
        s'.Reaches C os i env P)
    (hfails : (a.laneStage text calls.lane).succeeded = false → ∀ s',
      Stands s₀ i (t.at .quit) ((a.laneStage text calls.lane).app.mutate
        (.fail .jniError "Failed to build Reality lane")) result s' → s'.Reaches C os i env P) :
    s.Reaches C os i env P := by
  have hstep := ShadeVpnService.connectStep.eq_def os s i (t.at .buildRealityLane) env result
  dsimp only at hstep
  rw [h.snapshot, henv] at hstep
  unfold App.laneStage App.buildRealityLane at hnext hfails
  rcases hprofile : a.snapshot.selectedProfile with _ | profile
  · rw [hprofile] at hstep hnext hfails
    exact h.goes rfl _ hstep (hfails rfl)
  · rw [hprofile] at hstep hnext hfails
    unfold AttemptCalls.meets at hstep
    rcases hlane : calls.lane with readable | message
    · rw [hlane] at hstep hnext hfails
      exact h.goes rfl _ hstep (hnext rfl)
    · rw [hlane] at hstep hnext hfails
      exact h.goes rfl _ hstep (hfails rfl)

theorem Stands.control (h : Stands s₀ i (t.at .probeControlPlane) a result s)
    (henv : env.reachable = (calls.meets text a.snapshot.selectedProfile).reachable)
    (hnext : (a.controlStage calls.control).succeeded = true → ∀ s',
      Stands s₀ i (t.at .connectTunnel) (a.controlStage calls.control).app result s' →
        s'.Reaches C os i env P)
    (hfails : (a.controlStage calls.control).succeeded = false → ∀ s',
      Stands s₀ i (t.at .retry) (a.controlStage calls.control).app result s' →
        s'.Reaches C os i env P) :
    s.Reaches C os i env P := by
  have hstep := ShadeVpnService.connectStep.eq_def os s i (t.at .probeControlPlane) env result
  dsimp only at hstep
  rw [h.snapshot, henv] at hstep
  unfold App.controlStage App.probeControlPlane at hnext hfails
  rcases hprofile : a.snapshot.selectedProfile with _ | profile
  · rw [hprofile] at hstep hnext hfails
    exact h.goes rfl _ hstep (hfails rfl)
  · rw [hprofile] at hstep hnext hfails
    unfold AttemptCalls.meets at hstep
    rcases hcontrol : calls.control with ⟨readable, io⟩ | message
    · rw [hcontrol] at hstep hnext hfails
      exact h.goes rfl _ hstep (hnext rfl)
    · rw [hcontrol] at hstep hnext hfails
      exact h.goes rfl _ hstep (hfails rfl)

/-- `onFailure` of `connectTunnel`. -/
theorem Stands.connectFailed {message : String}
    (h : Stands s₀ i (t.at (.connectFailed message)) a result s)
    (hnext : ∀ s', Stands s₀ i (t.at .retry) (a.connectFailed message true) (.ok ()) s' →
      s'.Reaches C os i env P) :
    s.Reaches C os i env P := by
  refine h.calls rfl (t.at (.connectDropped message)) .disconnect rfl fun s₁ h₁ => ?_
  exact h₁.goes rfl _ rfl hnext

/-- A native connect that has failed. -/
theorem Stands.connectRefused {answer : Except String Bytes} {e : SessionError}
    (h : Stands s₀ i (t.at (.connectReturned answer)) a (.error e) s)
    (hnext : ∀ s', Stands s₀ i (t.at .retry) (a.connectFailed (reason os.debug e) true) (.ok ())
      s' → s'.Reaches C os i env P) :
    s.Reaches C os i env P := by
  refine h.goes rfl (t.at (.connectFailed (reason os.debug e))) ?_ fun s₁ h₁ =>
    h₁.connectFailed hnext
  rfl

theorem Stands.connect (h : Stands s₀ i (t.at .connectTunnel) a result s)
    (henv : env.connect = calls.connect)
    (hnext : (a.connectStage C os calls.connect true).succeeded = true → ∀ result s',
      Stands s₀ i (t.at .completeHandshake) (a.connectStage C os calls.connect true).app result s' →
        s'.Reaches C os i env P)
    (hfails : (a.connectStage C os calls.connect true).succeeded = false → ∀ result s',
      Stands s₀ i (t.at .retry) (a.connectStage C os calls.connect true).app result s' →
        s'.Reaches C os i env P) :
    s.Reaches C os i env P := by
  have hstep := ShadeVpnService.connectStep.eq_def os s i (t.at .connectTunnel) env result
  dsimp only at hstep
  rw [h.snapshot, henv] at hstep
  unfold App.connectStage App.connectTunnel at hnext hfails
  rcases hprofile : a.snapshot.selectedProfile with _ | profile
  · rw [hprofile] at hstep hnext hfails
    exact h.goes rfl _ hstep (hfails rfl _)
  · rw [hprofile] at hstep hnext hfails
    rcases hconnect : calls.connect with ⟨request, text | response⟩ | message
    · rw [hconnect] at hstep hnext hfails
      refine h.calls rfl (t.at (.connectReturned (.error text))) _ hstep fun s₁ h₁ => ?_
      exact h₁.connectRefused (hfails rfl _)
    · rw [hconnect] at hstep hnext hfails
      refine h.calls rfl (t.at (.connectReturned (.ok response))) _ hstep fun s₁ h₁ => ?_
      have hoperation : a.session.step C (.connect request none)
          = a.session.connect C request none := rfl
      rw [hoperation] at h₁
      unfold nativeConnectTunnel Platform.answer at hnext hfails
      rcases hresult : (a.session.connect C request none).result with e | ⟨⟩
      · rw [hresult] at h₁
        simp only [hresult] at hfails
        exact h₁.connectRefused (hfails rfl _)
      · rw [hresult] at h₁
        simp only [hresult] at hnext hfails
        by_cases hblank : isBlank (os.encode response) = true
        · have hempty : s₁.connectStep os i (t.at (.connectReturned (.ok response))) env (.ok ())
              = s₁.goto i (.connect (t.at
                (.connectFailed "server response missing from tunnel payload"))) := if_pos hblank
          refine h₁.goes rfl _ hempty fun s₂ h₂ => h₂.connectFailed ?_
          simp only [Except.map, hblank, if_true] at hfails
          exact hfails rfl _
        · refine h₁.goes rfl _ (if_neg hblank) ?_
          simp only [Except.map, hblank] at hnext
          exact hnext rfl _
    · rw [hconnect] at hstep hnext hfails
      refine h.goes rfl (t.at (.connectFailed (message.getD ""))) hstep fun s₁ h₁ => ?_
      exact h₁.connectFailed (hfails rfl _)

theorem Stands.complete (h : Stands s₀ i (t.at .completeHandshake) a result s)
    (henv : env.complete = calls.complete)
    (hnext : (a.completeStage C os calls.complete).succeeded = true → ∀ result s',
      Stands s₀ i (t.at .runDataPlaneProbe) (a.completeStage C os calls.complete).app result s' →
        s'.Reaches C os i env P)
    (hfails : (a.completeStage C os calls.complete).succeeded = false → ∀ result s',
      Stands s₀ i (t.at .retry) (a.completeStage C os calls.complete).app result s' →
        s'.Reaches C os i env P) :
    s.Reaches C os i env P := by
  have hstep := ShadeVpnService.connectStep.eq_def os s i (t.at .completeHandshake) env result
  dsimp only at hstep
  rw [h.pending, henv] at hstep
  unfold App.completeStage App.completeHandshake at hnext hfails
  rw [Option.getD_none] at hnext hfails
  rcases hpending : a.pendingServerResponseB64 with _ | response
  · rw [hpending] at hstep hnext hfails
    exact h.goes rfl _ hstep (hfails rfl _)
  · rw [hpending] at hstep hnext hfails
    by_cases hblank : isBlank response = true
    · simp only [hblank, if_true] at hstep hfails
      exact h.goes rfl _ hstep (hfails rfl _)
    · simp only [hblank] at hstep hnext hfails
      rcases hcall : calls.complete with ⟨⟩ | message
      · rw [hcall] at hstep hnext hfails
        refine h.calls rfl (t.at .completeReturned) _ hstep fun s₁ h₁ => ?_
        have hoperation : a.session.step C (.complete (os.decode response))
            = a.session.complete C (os.decode response) := rfl
        rw [hoperation] at h₁
        unfold nativeCompleteHandshake Platform.answer at hnext hfails
        rcases hresult : (a.session.complete C (os.decode response)).result with e | ⟨⟩
        · rw [hresult] at h₁
          simp only [hresult] at hfails
          exact h₁.goes rfl _ rfl (hfails rfl _)
        · rw [hresult] at h₁
          simp only [hresult] at hnext
          exact h₁.goes rfl _ rfl (hnext rfl _)
      · rw [hcall] at hstep hnext hfails
        exact h.goes rfl _ hstep (hfails rfl _)

/-- The orchestrator may keep more than the service has. -/
theorem Stands.of_eq (h : Stands s₀ i t a result s) {b : App κ}
    (hpending : a.pendingServerResponseB64 = b.pendingServerResponseB64)
    (hsnapshot : a.snapshot = b.snapshot) (hsession : a.session = b.session) :
    Stands s₀ i t b result s :=
  ⟨h.thread, h.back, h.calm, h.pending.trans hpending, h.snapshot.trans hsnapshot,
    h.session.trans hsession, h.generation, h.tunInterface, h.tuns⟩

theorem Stands.probe (h : Stands s₀ i (t.at .runDataPlaneProbe) a result s)
    (henv : env.probe = calls.probe)
    (hnext : (a.probeStage C os calls.probe).succeeded = true → ∀ result s',
      Stands s₀ i (t.at .recheck) (a.probeStage C os calls.probe).app result s' →
        s'.Reaches C os i env P)
    (hfails : (a.probeStage C os calls.probe).succeeded = false → ∀ result s',
      Stands s₀ i (t.at .retry) (a.probeStage C os calls.probe).app result s' →
        s'.Reaches C os i env P) :
    s.Reaches C os i env P := by
  have hstep := ShadeVpnService.connectStep.eq_def os s i (t.at .runDataPlaneProbe) env result
  dsimp only at hstep
  rw [henv] at hstep
  unfold App.probeStage App.runDataPlaneProbe at hnext hfails
  rcases hcall : calls.probe with io | message
  · rw [hcall] at hstep hnext hfails
    refine h.calls rfl (t.at .probeReturned) _ hstep fun s₁ h₁ => ?_
    have hoperation : a.session.step C (.probe io) = a.session.probe C io := rfl
    rw [hoperation] at h₁
    unfold nativeProbeDataPlane Platform.answer at hnext hfails
    rcases hresult : (a.session.probe C io).result with e | ⟨⟩
    · rw [hresult] at h₁
      simp only [hresult] at hfails
      exact h₁.goes rfl _ rfl (hfails rfl _)
    · rw [hresult] at h₁
      simp only [hresult] at hnext
      exact h₁.goes rfl _ rfl fun s₂ h₂ => hnext rfl _ s₂ (h₂.of_eq rfl rfl rfl)
  · rw [hcall] at hstep hnext hfails
    exact h.goes rfl _ hstep (hfails rfl _)

theorem Stands.start (h : Stands s₀ i (t.at .startPump) a result s)
    (henv : env.start = calls.start)
    (hnext : ∀ result s', Stands s₀ i (t.at .ended)
        (a.startStage os t.blockIpv6 calls.start).app result s' → s'.Reaches C os i env P) :
    s.Reaches C os i env P := by
  have hstep := ShadeVpnService.connectStep.eq_def os s i (t.at .startPump) env result
  dsimp only at hstep
  rw [henv] at hstep
  unfold App.startStage App.startPump at hnext
  rcases hcall : calls.start with io | message
  · rw [hcall] at hstep hnext
    refine h.calls rfl (t.at .startReturned) _ hstep fun s₁ h₁ => ?_
    have hoperation : a.session.step C (.startPump t.blockIpv6 io)
        = a.session.startPump t.blockIpv6 io := rfl
    rw [hoperation] at h₁
    unfold nativeStartTunnelPump Platform.answer at hnext
    rcases hresult : (a.session.startPump t.blockIpv6 io).result with e | ⟨⟩
    · rw [hresult] at h₁
      simp only [hresult] at hnext
      exact h₁.goes rfl _ rfl (hnext _)
    · rw [hresult] at h₁
      simp only [hresult] at hnext
      exact h₁.goes rfl _ rfl (hnext _)
  · rw [hcall] at hstep hnext
    exact h.goes rfl _ hstep (hnext _)

/-- `nativeDisconnectQuietly`. -/
theorem Stands.quit (h : Stands s₀ i (t.at .quit) a result s)
    (hnext : ∀ result s', Stands s₀ i (t.at .ended) (a.disconnect true) result s' →
      s'.Reaches C os i env P) :
    s.Reaches C os i env P := by
  refine h.calls rfl (t.at .quitReturned) .disconnect rfl fun s₁ h₁ => ?_
  exact h₁.goes rfl _ rfl (hnext _)

/-! ## An attempt -/

/-- Thread `i` is behind an attempt: at its end, or to try again. -/
def Finishes (s₀ : ShadeVpnService ι κ) (i : ι) (t : ConnectThread) (attempt : Attempt κ)
    (s : ShadeVpnService ι κ) : Prop :=
  ∃ result, Stands s₀ i (t.at (if attempt.terminal then .ended else .retry)) attempt.app result s

section AndThen

variable {run : StageRun κ} {otherwise next : App κ → Attempt κ}

theorem finishes_next (hrun : run.succeeded = true)
    (h : s.Reaches C os i env (Finishes s₀ i t (next run.app))) :
    s.Reaches C os i env (Finishes s₀ i t (run.andThen otherwise next)) := by
  unfold Finishes StageRun.andThen at *
  simpa only [hrun, if_true] using h

theorem finishes_otherwise (hrun : run.succeeded = false)
    (h : s.Reaches C os i env (Finishes s₀ i t (otherwise run.app))) :
    s.Reaches C os i env (Finishes s₀ i t (run.andThen otherwise next)) := by
  unfold Finishes StageRun.andThen at *
  simpa only [hrun, Bool.false_eq_true, if_false] using h

end AndThen

/-- What an attempt alone meets: a disconnect reaches the native layer, and a newer command
supersedes it or does not. -/
def AttemptCalls.alone (calls : AttemptCalls κ) (superseded : Bool) : AttemptCalls κ :=
  { calls with reached := true, superseded }

omit [DecidableEq ι] in
/-- A lane that is built leaves the orchestrator as it is. -/
theorem laneStage_app (h : (a.laneStage text calls.lane).succeeded = true) :
    (a.laneStage text calls.lane).app = a := by
  unfold App.laneStage App.buildRealityLane at h ⊢
  rcases hprofile : a.snapshot.selectedProfile with _ | profile
  · rfl
  · rw [hprofile] at h
    rcases hlane : calls.lane with readable | message
    · rfl
    · rw [hlane] at h
      cases h

/-- The last look at the generation, and the pump. -/
theorem Stands.recheck (h : Stands s₀ i (t.at .recheck) a result s)
    (henv : env.start = calls.start) :
    s.Reaches C os i env (Finishes s₀ i t
      (if s₀.superseded t.generation then .returned true a
        else (a.startStage os t.blockIpv6 calls.start).andThen (.returned true)
          (.returned true))) := by
  have hgeneration : s.superseded t.generation = s₀.superseded t.generation := by
    unfold ShadeVpnService.superseded
    rw [h.generation]
  have hstep := ShadeVpnService.connectStep.eq_def os s i (t.at .recheck) env result
  dsimp only at hstep
  rw [hgeneration] at hstep
  by_cases hsuperseded : s₀.superseded t.generation = true
  · rw [if_pos hsuperseded] at hstep ⊢
    exact h.goes rfl _ hstep fun s₁ h₁ => .here ⟨_, h₁⟩
  · rw [if_neg hsuperseded] at hstep ⊢
    refine h.goes rfl _ hstep fun s₁ h₁ => ?_
    replace h₁ : Stands s₀ i (t.at .startPump) a result s₁ := h₁
    refine h₁.start henv fun _ s₂ h₂ => ?_
    cases hstart : (a.startStage os t.blockIpv6 calls.start).succeeded with
    | true => exact finishes_next hstart (.here ⟨_, h₂⟩)
    | false => exact finishes_otherwise hstart (.here ⟨_, h₂⟩)

/-- **An attempt of a thread alone** is the attempt of the orchestrator, and leaves the rest
of the service as it was. -/
theorem attempt_alone (h : Stands s₀ i (t.at .looping) a result s)
    (hup : a.snapshot.tunEstablished = true) :
    s.Reaches C os i (calls.meets text a.snapshot.selectedProfile)
      (Finishes s₀ i t (a.attemptConnect C os text t.blockIpv6
        (calls.alone (s₀.superseded t.generation)))) := by
  have hlooping : s.connectStep os i (t.at .looping)
      (calls.meets text a.snapshot.selectedProfile) result
        = s.goto i (.connect (t.at .buildRealityLane)) := by
    refine if_pos ?_
    rw [h.snapshot]
    exact hup
  refine h.goes rfl _ hlooping fun s₁ h₁ => ?_
  replace h₁ : Stands s₀ i (t.at .buildRealityLane) a result s₁ := h₁
  unfold App.attemptConnect
  refine h₁.lane rfl (fun hlane s₂ h₂ => finishes_next hlane ?_)
    fun hlane s₂ h₂ => finishes_otherwise hlane ?_
  · have henv : (calls.meets text a.snapshot.selectedProfile).reachable = (calls.meets text
        (a.laneStage text calls.lane).app.snapshot.selectedProfile).reachable := by
      rw [laneStage_app hlane]
    refine h₂.control henv (fun hcontrol s₃ h₃ => finishes_next hcontrol ?_)
      fun hcontrol s₃ h₃ => finishes_otherwise hcontrol (.here ⟨_, h₃⟩)
    refine h₃.connect rfl (fun hconnect _ s₄ h₄ => finishes_next hconnect ?_)
      fun hconnect _ s₄ h₄ => finishes_otherwise hconnect (.here ⟨_, h₄⟩)
    refine h₄.complete rfl (fun hcomplete _ s₅ h₅ => finishes_next hcomplete ?_)
      fun hcomplete _ s₅ h₅ => finishes_otherwise hcomplete (.here ⟨_, h₅⟩)
    refine h₅.probe rfl (fun hprobe _ s₆ h₆ => finishes_next hprobe ?_)
      fun hprobe _ s₆ h₆ => finishes_otherwise hprobe (.here ⟨_, h₆⟩)
    exact h₆.recheck rfl
  · exact h₂.quit fun _ s₃ h₃ => .here ⟨_, h₃⟩

end ShadeVpn.Service
