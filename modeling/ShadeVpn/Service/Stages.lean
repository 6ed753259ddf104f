import ShadeVpn.Lib.Machine
import ShadeVpn.Profile.Crossing
import ShadeVpn.Service.Orchestrator

/-!
# The stages of an attempt

`attemptConnect` of `ShadeVpnService.kt`: six native calls in a row, each behind a stage of
the orchestrator.  The first two say no in an answer that arrives: `nativeBuildLane` as a
`status`, which `buildRealityLane` does not look at, and `nativeProbeControlPlane` as a
`reachable`, which `probeControlPlane` hands on inside a `Result` that has succeeded.  The
other four say no in a `Result` that has failed.

* `gated_iff` — when every native call of an attempt comes behind successes of the stages
  before it.
-/

namespace ShadeVpn.Service

open Octets Handshake Transport Pump Native Json Profile

/-! ## Answers as JSON -/

/-- The member of a name. -/
def memberOf (name : String) : Value → Option Value
  | .object members => (members.find? (·.1 = name)).map Prod.snd
  | _ => none

/-- `JSONObject.optBoolean`. -/
def optBoolean (name : String) (fallback : Bool) (answer : Value) : Bool :=
  match memberOf name answer with
  | some (.bool b) => b
  | some (.string s) =>
    if equalsIgnoreCase s "true" then true
    else if equalsIgnoreCase s "false" then false
    else fallback
  | _ => fallback

/-- The text of a member. -/
def textOf (name : String) (answer : Value) : Option String :=
  (memberOf name answer).bind asString

/-! ## `nativeBuildLane` and `nativeProbeControlPlane` -/

/-- `eq_ignore_ascii_case`. -/
def eqIgnoreAsciiCase (a b : String) : Bool := a.toList.map Char.toLower = b.toList.map Char.toLower

/-- `read_profile` with its errors, on a `JString` that may not be readable.  The text is
taken as it is: `to_string_lossy` reads the bytes of JNI as UTF-8, which loses U+0000 and
the characters above U+FFFF. -/
def readProfilePayload : Option String → Except String RealityProfile
  | none => .error "unable to read profile payload"
  | some raw => orError "invalid sanitized profile JSON" (readProfile raw)

/-- The answer for a lane that passes. -/
def laneAnswer (profile : RealityProfile) : Value :=
  .object [
    ("lane", .string "vless-reality"),
    ("transport", .string "tcp"),
    ("host", .string profile.serverAddress),
    ("port", .number ⟨false, profile.serverPort.toNat, none, none⟩),
    ("status", .string "validated")]

/-- The checks on a lane. -/
def validateLane (profile : RealityProfile) : Except String Value :=
  if !eqIgnoreAsciiCase profile.security "reality" then
    .error "only Reality profiles are accepted"
  else if profile.network ∉ ["tcp", "ws", "xhttp"] then .error "unsupported Reality network"
  else if profile.sni.getD "" = "" then .error "Reality SNI is required"
  else if !profile.publicKeyPresent || !profile.shortIdPresent then
    .error "Reality public key and short ID are required"
  else .ok (laneAnswer profile)

def nativeBuildLane (payload : Option String) : Value :=
  match (readProfilePayload payload).bind validateLane with
  | .ok lane => lane
  | .error reason =>
    .object [
      ("lane", .string "invalid"),
      ("status", .string "rejected"),
      ("reason", .string reason)]

/-- What the TCP connect of a control-plane probe comes to. -/
inductive ControlIo where
  | unresolved
  | noAddress
  | failed (error : String)
  | connected

def ControlIo.result : ControlIo → Except String Unit
  | .unresolved => .error "DNS resolution failed"
  | .noAddress => .error "no resolved address"
  | .failed error => .error ("TCP connect failed: " ++ error)
  | .connected => .ok ()

def nativeProbeControlPlane (payload : Option String) (io : ControlIo) : Value :=
  match (readProfilePayload payload).bind fun _ => io.result with
  | .ok () => .object [("reachable", .bool true)]
  | .error reason => .object [("reachable", .bool false), ("reason", .string reason)]

/-! ## Native calls of an attempt -/

/-- The six native calls. -/
inductive NativeStage where
  | buildLane
  | probeControlPlane
  | connectTunnel
  | completeHandshake
  | probeDataPlane
  | startTunnelPump
  deriving DecidableEq, Repr

/-- The stages whose success a call has to wait for. -/
def NativeStage.requires : NativeStage → List NativeStage
  | .buildLane => []
  | .probeControlPlane => [.buildLane]
  | .connectTunnel => [.buildLane, .probeControlPlane]
  | .completeHandshake => [.connectTunnel]
  | .probeDataPlane => [.completeHandshake]
  | .startTunnelPump => [.probeDataPlane]

/-- A native call that was made, with its answer; none if it threw. -/
inductive StageCall where
  | buildLane (answer : Option Value)
  | probeControlPlane (answer : Option Value)
  | connectTunnel (answer : Except String String)
  | completeHandshake (answer : Except String Unit)
  | probeDataPlane (answer : Except String Unit)
  | startTunnelPump (answer : Except String Unit)

def StageCall.stage : StageCall → NativeStage
  | .buildLane _ => .buildLane
  | .probeControlPlane _ => .probeControlPlane
  | .connectTunnel _ => .connectTunnel
  | .completeHandshake _ => .completeHandshake
  | .probeDataPlane _ => .probeDataPlane
  | .startTunnelPump _ => .startTunnelPump

/-- The answer reports success. -/
def StageCall.success : StageCall → Bool
  | .buildLane answer => answer.any fun v => textOf "status" v = some "validated"
  | .probeControlPlane answer => answer.any (optBoolean "reachable" false)
  | .connectTunnel answer => answer.isOk
  | .completeHandshake answer => answer.isOk
  | .probeDataPlane answer => answer.isOk
  | .startTunnelPump answer => answer.isOk

/-- A call has the successes it waits for behind it. -/
def StageCall.Waited (before : List StageCall) (call : StageCall) : Prop :=
  ∀ stage ∈ call.stage.requires, ∃ done ∈ before, done.stage = stage ∧ done.success = true

/-- Every call has, and the calls in front of it count as behind it. -/
def GatedAfter (before : List StageCall) : List StageCall → Prop
  | [] => True
  | call :: calls => call.Waited before ∧ GatedAfter (before ++ [call]) calls

/-- **Stages gate each other** in a sequence of native calls. -/
def Gated (calls : List StageCall) : Prop := GatedAfter [] calls

instance (before : List StageCall) (call : StageCall) : Decidable (call.Waited before) :=
  inferInstanceAs (Decidable (∀ stage ∈ call.stage.requires, ∃ done ∈ before, _))

instance decidableGatedAfter : ∀ before calls, Decidable (GatedAfter before calls)
  | _, [] => isTrue trivial
  | before, call :: calls =>
    have := decidableGatedAfter (before ++ [call]) calls
    inferInstanceAs (Decidable (call.Waited before ∧ GatedAfter (before ++ [call]) calls))

instance (calls : List StageCall) : Decidable (Gated calls) := decidableGatedAfter [] calls

/-! ## `attemptConnect` -/

variable {κ : Type}

/-- What the native calls of an attempt meet, whether a disconnect reaches the native layer,
and whether the attempt is superseded before the pump. -/
structure AttemptCalls (κ : Type) where
  /-- With whether the payload can be read. -/
  lane : NativeCall Bool
  control : NativeCall (Bool × ControlIo)
  connect : NativeCall (ConnectCall κ)
  complete : NativeCall Unit
  probe : NativeCall ProbeIo
  start : NativeCall StartIo
  reached : Bool
  superseded : Bool

def NativeCall.map {α β : Type} (f : α → β) : NativeCall α → NativeCall β
  | .runs io => .runs (f io)
  | .throws message => .throws message

def NativeCall.answer? {α : Type} : NativeCall α → Option α
  | .runs io => some io
  | .throws _ => none

/-- A stage: the orchestrator behind it, the native call it made, and whether its `Result`
has succeeded. -/
structure StageRun (κ : Type) where
  app : App κ
  call : Option StageCall
  succeeded : Bool

/-- An attempt: the orchestrator behind it, its native calls, and what it returns. -/
structure Attempt (κ : Type) where
  app : App κ
  calls : List StageCall
  terminal : Bool

/-- The rest of an attempt goes on behind a stage that has succeeded. -/
def StageRun.andThen (run : StageRun κ) (otherwise : App κ → Attempt κ) (next : App κ → Attempt κ) :
    Attempt κ :=
  let rest := if run.succeeded then next run.app else otherwise run.app
  { rest with calls := run.call.toList ++ rest.calls }

variable (C : Crypto κ UInt8) (os : Platform) (text : Value → String)

/-- The sanitized payload as it arrives. -/
def payloadOf (profile : VlessProfile) (readable : Bool) : Option String :=
  if readable then some (toSanitizedJson profile) else none

/-- `buildRealityLane`; `text` is what the native side prints of an answer. -/
def App.laneStage (a : App κ) (call : NativeCall Bool) : StageRun κ :=
  match a.snapshot.selectedProfile with
  | none => ⟨a, none, false⟩
  | some profile =>
    let answer := call.map fun readable => nativeBuildLane (payloadOf profile readable)
    let (app, result) := a.buildRealityLane (answer.map text)
    ⟨app, some (.buildLane answer.answer?), result.isOk⟩

/-- `probeControlPlane`. -/
def App.controlStage (a : App κ) (call : NativeCall (Bool × ControlIo)) : StageRun κ :=
  match a.snapshot.selectedProfile with
  | none => ⟨a, none, false⟩
  | some profile =>
    let answer := call.map fun (readable, io) =>
      nativeProbeControlPlane (payloadOf profile readable) io
    let (app, result) := a.probeControlPlane (answer.map (optBoolean "reachable" false))
    ⟨app, some (.probeControlPlane answer.answer?), result.isOk⟩

def App.connectStage (a : App κ) (call : NativeCall (ConnectCall κ)) (reached : Bool) :
    StageRun κ :=
  let (app, result) := a.connectTunnel C os call reached
  ⟨app, a.snapshot.selectedProfile.map fun _ =>
    .connectTunnel (nativeConnectTunnel C os a.session call).2, result.isOk⟩

def App.completeStage (a : App κ) (call : NativeCall Unit) : StageRun κ :=
  let (app, result) := a.completeHandshake C os none call
  ⟨app, (a.pendingServerResponseB64.filter fun response => !isBlank response).map fun response =>
    .completeHandshake (nativeCompleteHandshake C os a.session response call).2, result.isOk⟩

def App.probeStage (a : App κ) (call : NativeCall ProbeIo) : StageRun κ :=
  let (app, result) := a.runDataPlaneProbe C os call
  ⟨app, some (.probeDataPlane (nativeProbeDataPlane C os a.session call).2), result.isOk⟩

def App.startStage (a : App κ) (blockIpv6 : Bool) (call : NativeCall StartIo) : StageRun κ :=
  let (app, result) := a.startPump os blockIpv6 call
  ⟨app, some (.startTunnelPump (nativeStartTunnelPump os a.session blockIpv6 call).2), result.isOk⟩

/-- The attempt ends, and the service stops or tries again. -/
def Attempt.returned (terminal : Bool) (a : App κ) : Attempt κ := ⟨a, [], terminal⟩

/-- `attemptConnect`. -/
def App.attemptConnect (a : App κ) (blockIpv6 : Bool) (env : AttemptCalls κ) : Attempt κ :=
  (a.laneStage text env.lane).andThen
    (fun a => .returned true
      ((a.mutate (.fail .jniError "Failed to build Reality lane")).disconnect env.reached)) fun a =>
  (a.controlStage env.control).andThen (.returned false) fun a =>
  (a.connectStage C os env.connect env.reached).andThen (.returned false) fun a =>
  (a.completeStage C os env.complete).andThen (.returned false) fun a =>
  (a.probeStage C os env.probe).andThen (.returned false) fun a =>
  if env.superseded then .returned true a
  else (a.startStage os blockIpv6 env.start).andThen (.returned true) (.returned true)

/-! ## What the answers say -/

/-- What `nativeBuildLane` accepts. -/
structure ValidLane (r : RealityProfile) : Prop where
  security : eqIgnoreAsciiCase r.security "reality" = true
  network : r.network ∈ ["tcp", "ws", "xhttp"]
  sni : r.sni.getD "" ≠ ""
  publicKey : r.publicKeyPresent = true
  shortId : r.shortIdPresent = true

theorem readProfilePayload_eq_ok {payload : Option String} {r : RealityProfile} :
    readProfilePayload payload = .ok r ↔ ∃ raw, payload = some raw ∧ readProfile raw = some r := by
  rcases payload with _ | raw
  · simp [readProfilePayload]
  · rcases h : readProfile raw with _ | r' <;> simp [readProfilePayload, orError, h]

theorem validateLane_valid {r : RealityProfile} (h : ValidLane r) :
    validateLane r = .ok (laneAnswer r) := by
  rw [validateLane, if_neg (by simp [h.security]), if_neg (not_not.2 h.network), if_neg h.sni,
    if_neg (by simp [h.publicKey, h.shortId])]

theorem validateLane_invalid {r : RealityProfile} (h : ¬ ValidLane r) :
    ∃ reason, validateLane r = .error reason := by
  rw [validateLane]
  split
  · exact ⟨_, rfl⟩
  next hsecurity =>
  split
  · exact ⟨_, rfl⟩
  next hnetwork =>
  split
  · exact ⟨_, rfl⟩
  next hsni =>
  split
  · exact ⟨_, rfl⟩
  next hpresent =>
  simp only [Bool.or_eq_true, Bool.not_eq_true', not_or, Bool.not_eq_false] at hsecurity hpresent
  exact absurd ⟨hsecurity, not_not.1 hnetwork, hsni, hpresent.1, hpresent.2⟩ h

theorem textOf_laneAnswer (r : RealityProfile) :
    textOf "status" (laneAnswer r) = some "validated" := by
  simp [textOf, laneAnswer, memberOf, asString]

/-- **The lane is validated** just when the payload is read and passes the checks. -/
theorem buildLane_success {payload : Option String} :
    (StageCall.buildLane (some (nativeBuildLane payload))).success = true ↔
      ∃ r, readProfilePayload payload = .ok r ∧ ValidLane r := by
  rcases hread : readProfilePayload payload with reason | r
  · simp [StageCall.success, nativeBuildLane, hread, Except.bind, textOf, memberOf, asString]
  · by_cases hvalid : ValidLane r
    · simp [StageCall.success, nativeBuildLane, hread, Except.bind, validateLane_valid hvalid,
        textOf_laneAnswer, hvalid]
    · obtain ⟨reason, hlane⟩ := validateLane_invalid hvalid
      simp [StageCall.success, nativeBuildLane, hread, Except.bind, hlane, hvalid, textOf, memberOf,
        asString]

/-- **The server is reachable** just when the payload is read and the TCP connect succeeds. -/
theorem probeControlPlane_success {payload : Option String} {io : ControlIo} :
    (StageCall.probeControlPlane (some (nativeProbeControlPlane payload io))).success = true ↔
      (∃ r, readProfilePayload payload = .ok r) ∧ io = .connected := by
  rcases hread : readProfilePayload payload with reason | r
  · simp [StageCall.success, nativeProbeControlPlane, hread, Except.bind, optBoolean, memberOf]
  · cases io <;>
      simp [StageCall.success, nativeProbeControlPlane, hread, Except.bind, optBoolean, memberOf,
        ControlIo.result]

/-! ## Stages -/

theorem gatedAfter_append (before calls rest : List StageCall) :
    GatedAfter before (calls ++ rest) ↔
      GatedAfter before calls ∧ GatedAfter (before ++ calls) rest := by
  induction calls generalizing before with
  | nil => simp [GatedAfter]
  | cons call calls ih =>
    rw [List.cons_append, GatedAfter, GatedAfter, ih, and_assoc, List.append_assoc,
      List.singleton_append]

/-- The calls of an attempt that goes on behind a stage. -/
theorem gatedAfter_andThen {run : StageRun κ} {otherwise next : App κ → Attempt κ}
    (hotherwise : ∀ a, (otherwise a).calls = []) (before : List StageCall) :
    GatedAfter before (run.andThen otherwise next).calls ↔
      (∀ call ∈ run.call, call.Waited before) ∧
        (run.succeeded = true → GatedAfter (before ++ run.call.toList) (next run.app).calls) := by
  have hcall : GatedAfter before run.call.toList ↔ ∀ call ∈ run.call, call.Waited before := by
    cases run.call <;> simp [GatedAfter]
  rw [StageRun.andThen, gatedAfter_append, hcall]
  cases run.succeeded
  · simp [hotherwise, GatedAfter]
  · simp

/-- A stage whose `Result` succeeds has made its call, with an answer that says so. -/
structure StageRun.Honest (run : StageRun κ) (stage : NativeStage) : Prop where
  stage_eq : ∀ call ∈ run.call, call.stage = stage
  succeeded : run.succeeded = true → ∃ call ∈ run.call, call.success = true

variable {C os}

theorem App.connectStage_honest (a : App κ) (call : NativeCall (ConnectCall κ)) (reached : Bool) :
    (a.connectStage C os call reached).Honest .connectTunnel := by
  rw [App.connectStage, App.connectTunnel]
  cases a.snapshot.selectedProfile with
  | none => exact ⟨by simp, by simp [Except.isOk, Except.toBool]⟩
  | some profile =>
    refine ⟨by simp [StageCall.stage], fun hok => ?_⟩
    rcases hcall : nativeConnectTunnel C os a.session call with ⟨session, message | response⟩
    · simp [hcall, Except.isOk, Except.toBool] at hok
    · exact ⟨_, rfl, rfl⟩

theorem App.completeStage_honest (a : App κ) (call : NativeCall Unit) :
    (a.completeStage C os call).Honest .completeHandshake := by
  rw [App.completeStage, App.completeHandshake, Option.getD_none]
  cases a.pendingServerResponseB64 with
  | none => exact ⟨by simp, by simp [Except.isOk, Except.toBool]⟩
  | some response =>
    refine ⟨by simp [StageCall.stage], fun hok => ?_⟩
    by_cases hblank : isBlank response = true
    · simp [hblank, Except.isOk, Except.toBool] at hok
    · rcases hcall : nativeCompleteHandshake C os a.session response call with
        ⟨session, message | ⟨⟩⟩
      · simp [hblank, hcall, Except.isOk, Except.toBool] at hok
      · refine ⟨_, by simp [hblank]; rfl, ?_⟩
        simp [StageCall.success, hcall, Except.isOk, Except.toBool]

theorem App.probeStage_honest (a : App κ) (call : NativeCall ProbeIo) :
    (a.probeStage C os call).Honest .probeDataPlane := by
  rw [App.probeStage, App.runDataPlaneProbe]
  refine ⟨by simp [StageCall.stage], fun hok => ?_⟩
  rcases hcall : nativeProbeDataPlane C os a.session call with ⟨session, message | ⟨⟩⟩
  · simp [hcall, Except.isOk, Except.toBool] at hok
  · exact ⟨_, rfl, rfl⟩

/-- A stage has succeeded. -/
def Succeeded (before : List StageCall) (stage : NativeStage) : Prop :=
  ∃ done ∈ before, done.stage = stage ∧ done.success = true

/-- **An honest stage gates what follows it.** -/
theorem StageRun.Honest.gates {run : StageRun κ} {stage : NativeStage} (h : run.Honest stage)
    {otherwise next : App κ → Attempt κ} (hotherwise : ∀ a, (otherwise a).calls = [])
    {before : List StageCall} (hwaited : ∀ st ∈ stage.requires, Succeeded before st)
    (hnext : ∀ calls, Succeeded calls stage → GatedAfter calls (next run.app).calls) :
    GatedAfter before (run.andThen otherwise next).calls := by
  rw [gatedAfter_andThen hotherwise]
  constructor
  · intro call hcall
    rw [StageCall.Waited, h.stage_eq call hcall]
    exact hwaited
  · intro hok
    obtain ⟨call, hcall, hsuccess⟩ := h.succeeded hok
    refine hnext _ ⟨call, ?_, h.stage_eq call hcall, hsuccess⟩
    exact List.mem_append_right _ (Option.mem_toList.2 hcall)

/-- Behind a complete, an attempt is gated. -/
theorem gatedAfter_complete (a : App κ) (blockIpv6 : Bool) (env : AttemptCalls κ)
    {before : List StageCall} (h : Succeeded before .completeHandshake) :
    GatedAfter before ((a.probeStage C os env.probe).andThen (.returned false) fun a =>
      if env.superseded then .returned true a
      else (a.startStage os blockIpv6 env.start).andThen (.returned true)
        (.returned true)).calls := by
  refine (a.probeStage_honest env.probe).gates (fun _ => rfl) (by simpa [NativeStage.requires]) ?_
  intro calls hprobed
  split_ifs
  · trivial
  · rw [gatedAfter_andThen (fun _ => rfl)]
    refine ⟨?_, fun _ => trivial⟩
    rintro call ⟨⟩ stage hstage
    obtain rfl : stage = .probeDataPlane := by
      simpa [StageCall.stage, NativeStage.requires] using hstage
    exact hprobed

theorem payloadOf_read {profile : VlessProfile} {r : RealityProfile}
    (h : readProfile (toSanitizedJson profile) = some r) {readable : Bool} :
    (∃ r, readProfilePayload (payloadOf profile readable) = .ok r) ↔ readable = true := by
  cases readable <;> simp [payloadOf, readProfilePayload_eq_ok, h]

section Profile

variable {a : App κ} {profile : VlessProfile} (h : a.snapshot.selectedProfile = some profile)

include h

theorem App.laneStage_runs (readable : Bool) : a.laneStage text (.runs readable) =
    ⟨a, some (.buildLane (some (nativeBuildLane (payloadOf profile readable)))), true⟩ := by
  simp [App.laneStage, App.buildRealityLane, NativeCall.map, NativeCall.answer?, h, Except.isOk,
    Except.toBool]

theorem App.laneStage_throws (message : Option String) : a.laneStage text (.throws message) =
    ⟨a.mutate .laneFailed, some (.buildLane none), false⟩ := by
  simp [App.laneStage, App.buildRealityLane, NativeCall.map, NativeCall.answer?, h, Except.isOk,
    Except.toBool]

theorem App.controlStage_runs (readable : Bool) (io : ControlIo) :
    a.controlStage (.runs (readable, io)) =
      ⟨a.mutate (.controlPlaneProbed
          (optBoolean "reachable" false (nativeProbeControlPlane (payloadOf profile readable) io))),
        some (.probeControlPlane (some (nativeProbeControlPlane (payloadOf profile readable) io))),
        true⟩ := by
  simp [App.controlStage, App.probeControlPlane, NativeCall.map, NativeCall.answer?, h, Except.isOk,
    Except.toBool]

theorem App.controlStage_throws (message : Option String) : a.controlStage (.throws message) =
    ⟨a, some (.probeControlPlane none), false⟩ := by
  simp [App.controlStage, App.probeControlPlane, NativeCall.map, NativeCall.answer?, h, Except.isOk,
    Except.toBool]

theorem App.connectStage_call (call : NativeCall (ConnectCall κ)) (reached : Bool) :
    (a.connectStage C os call reached).call =
      some (.connectTunnel (nativeConnectTunnel C os a.session call).2) := by
  simp [App.connectStage, h]

end Profile

/-- The lane validates, and so does the control plane if its probe answers. -/
def App.Clears (a : App κ) (env : AttemptCalls κ) : Prop :=
  ∀ profile, a.snapshot.selectedProfile = some profile → ∀ readable, env.lane = .runs readable →
    (readable = true ∧ ∃ r, readProfile (toSanitizedJson profile) = some r ∧ ValidLane r) ∧
      ∀ again io, env.control = .runs (again, io) → again = true ∧ io = .connected

theorem payloadOf_valid {profile : VlessProfile} {readable : Bool} :
    (∃ r, readProfilePayload (payloadOf profile readable) = .ok r ∧ ValidLane r) ↔
      readable = true ∧ ∃ r, readProfile (toSanitizedJson profile) = some r ∧ ValidLane r := by
  cases readable <;> simp [payloadOf, readProfilePayload_eq_ok]

@[simp] theorem controlPlaneProbed_selectedProfile (reachable : Bool) (s : ConnectionSnapshot) :
    (s.controlPlaneProbed reachable).selectedProfile = s.selectedProfile := by
  cases reachable <;> rfl

/-- The probe of the control plane waits for the lane alone. -/
theorem waited_probeControlPlane {before : List StageCall} (answer : Option Value) :
    (StageCall.probeControlPlane answer).Waited before ↔ Succeeded before .buildLane := by
  simp [StageCall.Waited, StageCall.stage, NativeStage.requires, Succeeded]

theorem succeeded_lane {calls : List StageCall} {answer : Option Value}
    (h : ∀ call ∈ calls, call.stage ≠ .buildLane) :
    Succeeded (.buildLane answer :: calls) .buildLane ↔
      (StageCall.buildLane answer).success = true := by
  constructor
  · rintro ⟨call, hcall, hstage, hsuccess⟩
    rcases List.mem_cons.1 hcall with rfl | hmem
    · exact hsuccess
    · exact absurd hstage (h call hmem)
  · exact fun hsuccess => ⟨_, List.mem_cons_self, rfl, hsuccess⟩

/-- A control plane that is asked behind the lane answers that the server is reachable. -/
theorem succeeded_control {profile : VlessProfile} {r : RealityProfile}
    (hread : readProfile (toSanitizedJson profile) = some r) (lane : Option Value) (again : Bool)
    (io : ControlIo) :
    Succeeded ([.buildLane lane] ++
        [.probeControlPlane (some (nativeProbeControlPlane (payloadOf profile again) io))])
      .probeControlPlane ↔ again = true ∧ io = .connected := by
  rw [← payloadOf_read hread, ← probeControlPlane_success]
  simp [Succeeded, StageCall.stage]

/-- Behind a validated lane and a control plane that was asked, an attempt is gated just when
the server is reachable. -/
theorem gatedAfter_connect {a : App κ} {profile : VlessProfile}
    (h : a.snapshot.selectedProfile = some profile) (blockIpv6 : Bool) (env : AttemptCalls κ)
    {before : List StageCall} (hlane : Succeeded before .buildLane) :
    GatedAfter before
      ((a.connectStage C os env.connect env.reached).andThen (.returned false) fun a =>
      (a.completeStage C os env.complete).andThen (.returned false) fun a =>
      (a.probeStage C os env.probe).andThen (.returned false) fun a =>
      if env.superseded then .returned true a
      else (a.startStage os blockIpv6 env.start).andThen (.returned true) (.returned true)).calls ↔
      Succeeded before .probeControlPlane := by
  constructor
  · intro hgated
    rw [gatedAfter_andThen (fun _ => rfl), App.connectStage_call h] at hgated
    exact hgated.1 _ rfl .probeControlPlane (by simp [StageCall.stage, NativeStage.requires])
  · intro hcontrol
    refine (a.connectStage_honest env.connect env.reached).gates (fun _ => rfl) ?_ ?_
    · intro stage hstage
      rcases (by simpa [NativeStage.requires] using hstage :
        stage = .buildLane ∨ stage = .probeControlPlane) with rfl | rfl
      · exact hlane
      · exact hcontrol
    · intro calls hconnected
      refine (App.completeStage_honest _ env.complete).gates (fun _ => rfl)
        (by simpa [NativeStage.requires]) ?_
      intro calls hcompleted
      exact gatedAfter_complete _ blockIpv6 env hcompleted

/-- **When stages gate each other**: in an attempt with any profile and any outcomes, exactly
if the lane is validated and the server reachable, as far as these are asked. -/
theorem gated_iff (a : App κ) (blockIpv6 : Bool) (env : AttemptCalls κ) :
    Gated (a.attemptConnect C os text blockIpv6 env).calls ↔ a.Clears env := by
  rw [Gated, App.attemptConnect, gatedAfter_andThen (fun _ => rfl)]
  rcases hprofile : a.snapshot.selectedProfile with _ | profile
  · simp [App.laneStage, App.Clears, hprofile]
  have hfirst : ∀ answer, (StageCall.buildLane answer).Waited [] := by
    intro answer stage hstage
    cases hstage
  rcases hlane : env.lane with readable | message
  · -- the answer of `nativeBuildLane` has arrived, whatever it says
    have hclears : a.Clears env ↔ (StageCall.buildLane
        (some (nativeBuildLane (payloadOf profile readable)))).success = true ∧
        ∀ again io, env.control = .runs (again, io) → again = true ∧ io = .connected := by
      rw [buildLane_success, payloadOf_valid]
      simp [App.Clears, hprofile, hlane]
    rw [App.laneStage_runs text hprofile, hclears]
    simp only [Option.mem_def, Option.some.injEq, forall_eq', hfirst, true_and, forall_const,
      Option.toList_some, List.nil_append]
    rw [gatedAfter_andThen (fun _ => rfl)]
    rcases hcontrol : env.control with ⟨again, io⟩ | message
    · rw [App.controlStage_runs hprofile]
      simp only [Option.mem_def, Option.some.injEq, forall_eq', waited_probeControlPlane,
        Option.toList_some, true_implies]
      rw [succeeded_lane (by simp)]
      refine and_congr_right fun hvalid => ?_
      have hbehind : Succeeded
          ([.buildLane (some (nativeBuildLane (payloadOf profile readable)))] ++
          [.probeControlPlane (some (nativeProbeControlPlane (payloadOf profile again) io))])
          .buildLane := (succeeded_lane (by simp [StageCall.stage])).2 hvalid
      rw [gatedAfter_connect (by simpa [App.mutate]) _ _ hbehind]
      obtain ⟨-, r, hread, -⟩ := payloadOf_valid.1 (buildLane_success.1 hvalid)
      rw [succeeded_control hread]
      constructor
      · rintro hreachable _ _ ⟨⟩
        exact hreachable
      · exact fun hall => hall again io rfl
    · rw [App.controlStage_throws hprofile]
      simp [waited_probeControlPlane, succeeded_lane]
  · refine iff_of_true ?_ ?_
    · rw [App.laneStage_throws text hprofile]
      simp [hfirst]
    · intro p hp r hr
      rw [hlane] at hr
      cases hr

/-! ## An attempt is a run of operations -/

/-- The operations that a stage and what follows it come to. -/
theorem andThen_run {a : App κ} {run : StageRun κ} {otherwise next : App κ → Attempt κ}
    (hstage : ∃ ops, run.app = Machine.run (App.step C os) a ops)
    (hotherwise : ∀ b, ∃ ops, (otherwise b).app = Machine.run (App.step C os) b ops)
    (hnext : ∀ b, ∃ ops, (next b).app = Machine.run (App.step C os) b ops) :
    ∃ ops, (run.andThen otherwise next).app = Machine.run (App.step C os) a ops := by
  obtain ⟨first, hfirst⟩ := hstage
  have hrest : ∃ ops,
      (run.andThen otherwise next).app = Machine.run (App.step C os) run.app ops := by
    rw [StageRun.andThen]
    cases run.succeeded
    · exact hotherwise run.app
    · exact hnext run.app
  obtain ⟨rest, hrest⟩ := hrest
  exact ⟨first ++ rest, by rw [hrest, hfirst, Machine.run_append]⟩

/-- **An attempt leaves the orchestrator** where its operations, one after the other, do. -/
theorem attemptConnect_run (a : App κ) (blockIpv6 : Bool) (env : AttemptCalls κ) :
    ∃ ops, (a.attemptConnect C os text blockIpv6 env).app = Machine.run (App.step C os) a ops := by
  have hreturned : ∀ terminal (b : App κ), ∃ ops,
      (Attempt.returned terminal b).app = Machine.run (App.step C os) b ops :=
    fun _ _ => ⟨[], rfl⟩
  refine andThen_run ?_ (fun b => ⟨[.fail .jniError "Failed to build Reality lane",
    .disconnect env.reached], rfl⟩) fun b => ?_
  · rw [App.laneStage]
    split
    · exact ⟨[], rfl⟩
    · exact ⟨[.buildRealityLane _], rfl⟩
  refine andThen_run ?_ (hreturned false) fun b => ?_
  · rw [App.controlStage]
    split
    · exact ⟨[], rfl⟩
    · exact ⟨[.probeControlPlane _], rfl⟩
  refine andThen_run ⟨[.connectTunnel env.connect env.reached], rfl⟩ (hreturned false) fun b => ?_
  refine andThen_run ⟨[.completeHandshake none env.complete], rfl⟩ (hreturned false) fun b => ?_
  refine andThen_run ⟨[.runDataPlaneProbe env.probe], rfl⟩ (hreturned false) fun b => ?_
  split_ifs
  · exact hreturned true b
  · exact andThen_run ⟨[.startPump blockIpv6 env.start], rfl⟩ (hreturned true) (hreturned true)

/-! ## An attempt that is not gated -/

/-- A profile that passes the checks on a lane. -/
def laneProfile : VlessProfile :=
  { sampleProfile with publicKey := some "AAECAwQFBgcICQoLDA0ODxAREhMUFRYXGBkaGxwdHh8" }

/-- A server that cannot be reached: the attempt goes on with the connect. -/
def unreachedCalls : AttemptCalls UInt8 where
  lane := .runs true
  control := .runs (true, .failed "Connection refused (os error 111)")
  connect := .runs ⟨sampleRequest, .error "TCP connect failed: Connection refused (os error 111)"⟩
  complete := .runs ()
  probe := .throws none
  start := .throws none
  reached := true
  superseded := false

theorem not_gated : ¬ ∀ (a : App UInt8) (blockIpv6 : Bool) (env : AttemptCalls UInt8),
    Gated (a.attemptConnect Crypto.toy samplePlatform (fun _ => "") blockIpv6 env).calls := by
  intro hall
  have hgated := hall ((App.new "shadevpn-native/0.7.0").loadProfile (.ok laneProfile)) false
    unreachedCalls
  have hprofile : ((App.new "shadevpn-native/0.7.0" : App UInt8).loadProfile
      (.ok laneProfile)).snapshot.selectedProfile = some laneProfile := rfl
  rw [Gated, App.attemptConnect, gatedAfter_andThen (fun _ => rfl), unreachedCalls,
    App.laneStage_runs _ hprofile] at hgated
  have hcontrol := hgated.2 rfl
  rw [gatedAfter_andThen (fun _ => rfl), App.controlStage_runs hprofile] at hcontrol
  have hconnect := hcontrol.2 rfl
  rw [gatedAfter_andThen (fun _ => rfl), @App.connectStage_call _ _ _ _ laneProfile
    (by simpa [App.mutate] using hprofile)] at hconnect
  obtain ⟨done, hdone, hstage, hsuccess⟩ := hconnect.1 _ rfl .probeControlPlane
    (by simp [StageCall.stage, NativeStage.requires])
  simp only [Option.toList_some, List.nil_append, List.singleton_append, List.mem_cons,
    List.not_mem_nil, or_false] at hdone
  rcases hdone with rfl | rfl
  · cases hstage
  · exact absurd (probeControlPlane_success.1 hsuccess).2 (by simp)

end ShadeVpn.Service
