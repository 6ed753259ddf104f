import ShadeVpn.Service.Orchestrator

/-!
# Phase and failure reason

FAILED should come with a reason, and CONNECTED with none and with the flags of a handshake
and a probe.  Most operations write the phase and the reason together.  Four do not: a
profile that loads clears the reason of a failure, a pump that does not start adds one to
CONNECTED, a probe that passes takes `handshakeCompleted` for granted, and `fail` takes any
reason.

* `coherent_iff` — a run stays coherent exactly if none of the four meets the snapshot it
  would spoil.
-/

namespace ShadeVpn.Service

open Octets Checked Handshake Transport Pump Native

/-- Phase, reason and flags fit together. -/
structure ConnectionSnapshot.Coherent (s : ConnectionSnapshot) : Prop where
  failed : s.phase = .failed → s.failureReason ≠ .none
  handshakeCompleted : s.phase = .connected → s.handshakeCompleted = true
  dataPlaneReady : s.phase = .connected → s.dataPlaneReady = true
  connected : s.phase = .connected → s.failureReason = .none

namespace ConnectionSnapshot

variable {s s' : ConnectionSnapshot}

theorem coherent_of_phase (phase : ConnectionPhase) (hphase : s.phase = phase)
    (hfailed : phase ≠ .failed) (hconnected : phase ≠ .connected) : s.Coherent := by
  subst hphase
  exact ⟨fun h => absurd h hfailed, fun h => absurd h hconnected, fun h => absurd h hconnected,
    fun h => absurd h hconnected⟩

theorem coherent_of_failed (reason : FailureReason) (hphase : s.phase = .failed)
    (hreason : s.failureReason = reason) (hne : reason ≠ .none) : s.Coherent := by
  have hconnected : s.phase ≠ .connected := by
    rw [hphase]
    decide
  exact ⟨fun _ => hreason ▸ hne, fun h => absurd h hconnected, fun h => absurd h hconnected,
    fun h => absurd h hconnected⟩

/-- An update that touches none of the four fields. -/
theorem Coherent.of_eq (h : s.Coherent) (hphase : s'.phase = s.phase)
    (hreason : s'.failureReason = s.failureReason)
    (hhandshake : s'.handshakeCompleted = s.handshakeCompleted)
    (hdata : s'.dataPlaneReady = s.dataPlaneReady) : s'.Coherent := by
  constructor
  · rw [hphase, hreason]
    exact h.failed
  · rw [hphase, hhandshake]
    exact h.handshakeCompleted
  · rw [hphase, hdata]
    exact h.dataPlaneReady
  · rw [hphase, hreason]
    exact h.connected

/-! ## The four updates -/

/-- A profile that loads clears the reason of a failure. -/
theorem coherent_profileLoaded (h : s.Coherent) (profile : VlessProfile) :
    (s.profileLoaded profile).Coherent ↔ s.phase ≠ .failed := by
  constructor
  · intro hnew hphase
    exact hnew.failed hphase rfl
  · intro hphase
    exact ⟨fun hfailed => absurd hfailed hphase, h.handshakeCompleted, h.dataPlaneReady,
      fun _ => rfl⟩

/-- A pump that does not start adds a reason. -/
theorem coherent_pumpRefused (message : String) :
    (s.pumpRefused message).Coherent ↔ s.phase ≠ .connected := by
  constructor
  · intro hnew hphase
    cases hnew.connected hphase
  · intro hphase
    exact ⟨fun _ hnone => (by cases hnone), fun hc => absurd hc hphase, fun hc => absurd hc hphase,
      fun hc => absurd hc hphase⟩

/-- A probe that passes does not look at the handshake. -/
theorem coherent_probePassed : s.probePassed.Coherent ↔ s.handshakeCompleted = true := by
  constructor
  · intro hnew
    exact hnew.handshakeCompleted rfl
  · intro hcompleted
    exact ⟨fun hfailed => (by cases hfailed), fun _ => hcompleted, fun _ => rfl, fun _ => rfl⟩

theorem coherent_fail (reason : FailureReason) (message : String) :
    (s.fail reason message).Coherent ↔ reason ≠ .none := by
  constructor
  · intro hnew
    exact hnew.failed rfl
  · intro hreason
    exact coherent_of_failed reason rfl rfl hreason

end ConnectionSnapshot

/-! ## Runs -/

open ConnectionSnapshot (coherent_of_phase coherent_of_failed)

variable {κ : Type} {C : Crypto κ UInt8} {os : Platform}

variable (C os) in
/-- An operation that keeps a coherent snapshot coherent: no profile loads on a failure, no
probe passes before a handshake on record, no pump fails to start on a connection, and no
failure is without a reason. -/
def App.KeepsCoherent (a : App κ) : Operation κ → Prop
  | .loadProfile (.ok _) => a.snapshot.phase ≠ .failed
  | .runDataPlaneProbe call =>
    (nativeProbeDataPlane C os a.session call).2 = .ok () → a.snapshot.handshakeCompleted = true
  | .startPump blockIpv6 call =>
    (nativeStartTunnelPump os a.session blockIpv6 call).2 ≠ .ok () → a.snapshot.phase ≠ .connected
  | .fail reason _ => reason ≠ .none
  | _ => True

theorem App.buildRealityLane_coherent {a : App κ} (h : a.snapshot.Coherent)
    (call : NativeCall String) : (a.buildRealityLane call).1.snapshot.Coherent := by
  unfold App.buildRealityLane
  split
  · exact h
  · exact h
  · exact coherent_of_failed .jniError rfl rfl (by decide)

theorem App.probeControlPlane_coherent {a : App κ} (h : a.snapshot.Coherent)
    (call : NativeCall Bool) : (a.probeControlPlane call).1.snapshot.Coherent := by
  unfold App.probeControlPlane
  split
  · exact h
  · next reachable _ =>
    cases reachable
    · exact coherent_of_failed .controlPlaneFailed rfl rfl (by decide)
    · exact h.of_eq rfl rfl rfl rfl
  · exact h

theorem App.connectTunnel_coherent {a : App κ} (h : a.snapshot.Coherent)
    (call : NativeCall (ConnectCall κ)) (reached : Bool) :
    (a.connectTunnel C os call reached).1.snapshot.Coherent := by
  unfold App.connectTunnel
  split
  · exact h
  · split
    · exact coherent_of_failed .controlPlaneFailed rfl rfl (by decide)
    · split_ifs
      · exact coherent_of_failed .controlPlaneFailed rfl rfl (by decide)
      · exact h.of_eq rfl rfl rfl rfl

theorem App.completeHandshake_coherent {a : App κ} (h : a.snapshot.Coherent)
    (given : Option (Option String)) (call : NativeCall Unit) :
    (a.completeHandshake C os given call).1.snapshot.Coherent := by
  unfold App.completeHandshake
  split
  · exact h
  · split_ifs
    · exact h
    · split
      · exact coherent_of_phase .probingData rfl (by decide) (by decide)
      · exact coherent_of_failed .controlPlaneFailed rfl rfl (by decide)

theorem App.runDataPlaneProbe_coherent (a : App κ) (call : NativeCall ProbeIo) :
    (a.runDataPlaneProbe C os call).1.snapshot.Coherent ↔
      ((nativeProbeDataPlane C os a.session call).2 = .ok () →
        a.snapshot.handshakeCompleted = true) := by
  rcases hcall : nativeProbeDataPlane C os a.session call with ⟨session, message | ⟨⟩⟩
  · simp only [App.runDataPlaneProbe, hcall]
    refine iff_of_true ?_ (by simp)
    exact coherent_of_failed .dataPlaneFailed rfl rfl (by decide)
  · simp only [App.runDataPlaneProbe, hcall, true_implies]
    exact ConnectionSnapshot.coherent_probePassed

theorem App.startPump_coherent {a : App κ} (h : a.snapshot.Coherent) (blockIpv6 : Bool)
    (call : NativeCall StartIo) : (a.startPump os blockIpv6 call).1.snapshot.Coherent ↔
      ((nativeStartTunnelPump os a.session blockIpv6 call).2 ≠ .ok () →
        a.snapshot.phase ≠ .connected) := by
  rcases hcall : nativeStartTunnelPump os a.session blockIpv6 call with ⟨session, message | ⟨⟩⟩
  · simp only [App.startPump, hcall, ne_eq, reduceCtorEq, not_false_eq_true, true_implies]
    exact ConnectionSnapshot.coherent_pumpRefused message
  · simp only [App.startPump, hcall]
    exact iff_of_true (h.of_eq rfl rfl rfl rfl) (by simp)

/-- **What an operation does to a coherent snapshot.** -/
theorem App.step_coherent {a : App κ} (h : a.snapshot.Coherent) (op : Operation κ) :
    (a.step C os op).snapshot.Coherent ↔ a.KeepsCoherent C os op := by
  cases op with
  | markPermissionRequested =>
    exact iff_of_true (coherent_of_phase .requestingPermission rfl (by decide) (by decide)) trivial
  | onPermissionResult granted =>
    refine iff_of_true ?_ trivial
    cases granted
    · exact coherent_of_failed .permissionDenied rfl rfl (by decide)
    · exact coherent_of_phase .preparing rfl (by decide) (by decide)
  | loadProfile parsed =>
    cases parsed with
    | ok profile => exact ConnectionSnapshot.coherent_profileLoaded h profile
    | error message =>
      exact iff_of_true (coherent_of_failed .invalidProfile rfl rfl (by decide)) trivial
  | establishTun fd =>
    refine iff_of_true ?_ trivial
    by_cases hfd : 0 ≤ fd
    · refine coherent_of_phase .connectingControl ?_ (by decide) (by decide)
      simp [App.step, App.mutate, hfd]
    · refine coherent_of_failed .tunSetupFailed ?_ ?_ (by decide)
      · simp [App.step, App.mutate, hfd]
      · simp [App.step, App.mutate, ConnectionSnapshot.establishTun, hfd]
  | buildRealityLane call => exact iff_of_true (App.buildRealityLane_coherent h call) trivial
  | probeControlPlane call => exact iff_of_true (App.probeControlPlane_coherent h call) trivial
  | connectTunnel call reached =>
    exact iff_of_true (App.connectTunnel_coherent h call reached) trivial
  | completeHandshake given call =>
    exact iff_of_true (App.completeHandshake_coherent h given call) trivial
  | runDataPlaneProbe call => exact a.runDataPlaneProbe_coherent call
  | startPump blockIpv6 call => exact App.startPump_coherent h blockIpv6 call
  | beginRetry attempt =>
    exact iff_of_true (coherent_of_phase .preparing rfl (by decide) (by decide)) trivial
  | reportRetryExhausted =>
    exact iff_of_true (coherent_of_failed .controlPlaneFailed rfl rfl (by decide)) trivial
  | reportRetryDelay attempt delayMs => exact iff_of_true (h.of_eq rfl rfl rfl rfl) trivial
  | disconnect reached => exact iff_of_true (h.of_eq rfl rfl rfl rfl) trivial
  | fail reason message => exact ConnectionSnapshot.coherent_fail reason message
  | revoke =>
    exact iff_of_true (coherent_of_phase .disconnected rfl (by decide) (by decide)) trivial
  | reset =>
    exact iff_of_true (coherent_of_phase .idle rfl (by decide) (by decide)) trivial
  | outbound e => exact iff_of_true h trivial
  | inbound e => exact iff_of_true h trivial

/-- **When phase, reason and flags fit together** throughout a run of operations with any
outcomes: exactly if every operation keeps a coherent snapshot coherent. -/
theorem coherent_iff (nativeVersion : String) (ops : List (Operation κ)) :
    Machine.Always (App.step C os) (fun a => a.snapshot.Coherent) (.new nativeVersion) ops ↔
      Machine.Along (App.step C os) (App.KeepsCoherent C os) (.new nativeVersion) ops :=
  Machine.always_iff_along (I := fun _ => True) (fun _ _ h => h)
    (fun _ op _ h => App.step_coherent h op) ops trivial
    (coherent_of_phase .idle rfl (by decide) (by decide))

/-- A link that is refused, and one that loads. -/
theorem not_coherent : ¬ ∀ ops : List (Operation UInt8),
    Machine.Always (App.step Crypto.toy samplePlatform) (fun a => a.snapshot.Coherent)
      (.new "shadevpn-native/0.7.0") ops := by
  intro hall
  have hlast := (hall [.loadProfile (.error "Missing UUID"), .loadProfile (.ok sampleProfile)]).last
  exact hlast.failed rfl rfl

end ShadeVpn.Service
