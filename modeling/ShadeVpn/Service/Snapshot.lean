import Mathlib

/-!
# The connection snapshot

`model/ConnectionModels.kt`, and what each operation of
`service/ConnectionOrchestrator.kt` makes of the snapshot: the bodies of its
`mutate` calls, each a function of the snapshot it finds.
-/

namespace ShadeVpn.Service

/-- `Char.isWhitespace`, as a JVM answers it. -/
def isWhitespace (c : Char) : Bool :=
  let n := c.toNat
  (9 ≤ n && n ≤ 13) || (28 ≤ n && n ≤ 32) || n == 0xA0 || n == 0x1680
    || (0x2000 ≤ n && n ≤ 0x200A) || n == 0x2028 || n == 0x2029 || n == 0x202F || n == 0x205F
    || n == 0x3000

/-- `isBlank`. -/
def isBlank (s : String) : Bool := s.toList.all isWhitespace

/-- `ConnectionPhase`. -/
inductive ConnectionPhase where
  | idle
  | requestingPermission
  | preparing
  | connectingControl
  | probingData
  | connected
  | disconnected
  | failed
  deriving DecidableEq, Repr

/-- `FailureReason`. -/
inductive FailureReason where
  | none
  | permissionDenied
  | invalidProfile
  | jniError
  | controlPlaneFailed
  | dataPlaneFailed
  | vpnRevoked
  | tunSetupFailed
  | unknown
  deriving DecidableEq, Repr

/-- `VlessProfile`. -/
structure VlessProfile where
  name : String
  serverAddress : String
  serverPort : Int32
  uuid : String
  flow : Option String
  security : String
  network : String
  host : Option String
  path : Option String
  sni : Option String
  publicKey : Option String
  shortId : Option String
  fingerprint : Option String
  deriving DecidableEq

/-- `ConnectionSnapshot`. -/
structure ConnectionSnapshot where
  phase : ConnectionPhase := .idle
  activeLane : String := "none"
  statusLine : String := "Not connected"
  failureReason : FailureReason := .none
  failureDetail : String := ""
  permissionGranted : Bool := false
  tunEstablished : Bool := false
  controlPlaneReady : Bool := false
  dataPlaneReady : Bool := false
  handshakeInitiated : Bool := false
  handshakeCompleted : Bool := false
  pumpRunning : Bool := false
  retryAttempt : Int32 := 0
  nativeVersion : String := "unavailable"
  selectedProfile : Option VlessProfile := .none
  deriving DecidableEq

namespace ConnectionSnapshot

/-! ## Permission and profile -/

def markPermissionRequested (s : ConnectionSnapshot) : ConnectionSnapshot :=
  { s with phase := .requestingPermission, statusLine := "VPN permission requested" }

def onPermissionResult (granted : Bool) (s : ConnectionSnapshot) : ConnectionSnapshot :=
  { s with
    permissionGranted := granted
    phase := if granted then .preparing else .failed
    statusLine :=
      if granted then "Permission granted, preparing tunnel" else "VPN permission denied"
    failureReason := if granted then .none else .permissionDenied }

/-- `loadProfile` on a profile that parses. -/
def profileLoaded (profile : VlessProfile) (s : ConnectionSnapshot) : ConnectionSnapshot :=
  { s with
    selectedProfile := some profile
    activeLane := "vless-reality"
    statusLine := "Profile loaded: " ++ profile.name
    failureReason := .none }

/-- `loadProfile` on one that does not. -/
def profileRejected (message : String) (s : ConnectionSnapshot) : ConnectionSnapshot :=
  { s with
    phase := .failed
    statusLine := "Invalid Reality profile"
    failureReason := .invalidProfile
    failureDetail := message }

/-! ## The stages of a connection -/

def establishTun (fd : Int32) (s : ConnectionSnapshot) : ConnectionSnapshot :=
  { s with
    tunEstablished := decide (0 ≤ fd)
    phase := if 0 ≤ fd then .connectingControl else .failed
    statusLine :=
      if 0 ≤ fd then "TUN established, checking control plane" else "Failed to establish TUN"
    failureReason := if 0 ≤ fd then .none else .tunSetupFailed }

def laneFailed (s : ConnectionSnapshot) : ConnectionSnapshot :=
  { s with phase := .failed, statusLine := "Native lane build failed", failureReason := .jniError }

/-- `probeControlPlane` with an answer. -/
def controlPlaneProbed (reachable : Bool) (s : ConnectionSnapshot) : ConnectionSnapshot :=
  if reachable then { s with statusLine := "Server reachable, initiating Reality handshake" }
  else
    { s with
      phase := .failed
      statusLine := "Server unreachable"
      failureReason := .controlPlaneFailed }

def tunnelConnected (s : ConnectionSnapshot) : ConnectionSnapshot :=
  { s with
    handshakeInitiated := true
    controlPlaneReady := true
    statusLine := "Reality hello sent, session awaiting authentication" }

def tunnelFailed (message : String) (s : ConnectionSnapshot) : ConnectionSnapshot :=
  { s with
    phase := .failed
    statusLine := "Reality tunnel connection failed"
    failureReason := .controlPlaneFailed
    failureDetail := message
    handshakeInitiated := false }

def handshakeAccepted (s : ConnectionSnapshot) : ConnectionSnapshot :=
  { s with
    handshakeCompleted := true
    phase := .probingData
    statusLine := "Handshake authenticated, probing data plane" }

def handshakeRejected (message : String) (s : ConnectionSnapshot) : ConnectionSnapshot :=
  { s with
    phase := .failed
    statusLine := "Server response rejected"
    failureReason := .controlPlaneFailed
    failureDetail := message
    handshakeCompleted := false }

def probePassed (s : ConnectionSnapshot) : ConnectionSnapshot :=
  { s with
    phase := .connected
    dataPlaneReady := true
    retryAttempt := 0
    statusLine := "Connected — data-plane probe passed"
    failureReason := .none }

def probeFailed (message : String) (s : ConnectionSnapshot) : ConnectionSnapshot :=
  { s with
    phase := .failed
    statusLine := "Data-plane probe failed"
    failureReason := .dataPlaneFailed
    failureDetail := message }

def pumpStarted (blockIpv6 : Bool) (s : ConnectionSnapshot) : ConnectionSnapshot :=
  { s with
    pumpRunning := true
    statusLine := "Tunnel pump running" ++ (if blockIpv6 then " (IPv6 blocked)" else "") }

def pumpRefused (message : String) (s : ConnectionSnapshot) : ConnectionSnapshot :=
  { s with pumpRunning := false, failureReason := .jniError, failureDetail := message }

/-! ## Retry and teardown -/

def beginRetry (attempt : Int32) (s : ConnectionSnapshot) : ConnectionSnapshot :=
  { s with
    phase := .preparing
    statusLine := "Reconnect attempt " ++ toString attempt
    failureReason := .none
    failureDetail := ""
    retryAttempt := attempt
    controlPlaneReady := false
    handshakeInitiated := false
    handshakeCompleted := false
    dataPlaneReady := false
    pumpRunning := false }

def reportRetryExhausted (s : ConnectionSnapshot) : ConnectionSnapshot :=
  { s with
    phase := .failed
    statusLine := "Reconnect abandoned after retries"
    failureReason := .controlPlaneFailed
    retryAttempt := 0
    handshakeCompleted := false
    dataPlaneReady := false }

def reportRetryDelay (attempt : Int32) (delayMs : Int64) (s : ConnectionSnapshot) :
    ConnectionSnapshot :=
  { s with
    statusLine := "Reconnecting in " ++ toString delayMs ++ "ms (attempt " ++ toString (attempt + 1)
      ++ ")" }

/-- The snapshot behind `disconnect`. -/
def disconnected (s : ConnectionSnapshot) : ConnectionSnapshot := { s with pumpRunning := false }

def fail (reason : FailureReason) (message : String) (s : ConnectionSnapshot) :
    ConnectionSnapshot :=
  { s with
    phase := .failed
    statusLine := message
    failureReason := reason
    controlPlaneReady := false
    dataPlaneReady := false }

def revoke (s : ConnectionSnapshot) : ConnectionSnapshot :=
  { s with
    phase := .disconnected
    statusLine := "VPN permission revoked"
    failureReason := .vpnRevoked
    tunEstablished := false
    controlPlaneReady := false
    dataPlaneReady := false
    handshakeInitiated := false
    handshakeCompleted := false
    pumpRunning := false }

def reset (s : ConnectionSnapshot) : ConnectionSnapshot where
  nativeVersion := s.nativeVersion
  selectedProfile := s.selectedProfile
  permissionGranted := s.permissionGranted

/-! ## The phase behind each update -/

variable (s : ConnectionSnapshot)

@[simp] theorem markPermissionRequested_phase :
    s.markPermissionRequested.phase = .requestingPermission := rfl

@[simp] theorem onPermissionResult_phase (granted : Bool) :
    (s.onPermissionResult granted).phase = if granted then .preparing else .failed := rfl

@[simp] theorem profileLoaded_phase (profile : VlessProfile) :
    (s.profileLoaded profile).phase = s.phase := rfl

@[simp] theorem profileRejected_phase (message : String) :
    (s.profileRejected message).phase = .failed := rfl

@[simp] theorem establishTun_phase (fd : Int32) :
    (s.establishTun fd).phase = if 0 ≤ fd then .connectingControl else .failed := rfl

@[simp] theorem laneFailed_phase : s.laneFailed.phase = .failed := rfl

@[simp] theorem controlPlaneProbed_phase (reachable : Bool) :
    (s.controlPlaneProbed reachable).phase = if reachable then s.phase else .failed := by
  cases reachable <;> rfl

@[simp] theorem tunnelConnected_phase : s.tunnelConnected.phase = s.phase := rfl

@[simp] theorem tunnelFailed_phase (message : String) :
    (s.tunnelFailed message).phase = .failed := rfl

@[simp] theorem handshakeAccepted_phase : s.handshakeAccepted.phase = .probingData := rfl

@[simp] theorem handshakeRejected_phase (message : String) :
    (s.handshakeRejected message).phase = .failed := rfl

@[simp] theorem probePassed_phase : s.probePassed.phase = .connected := rfl

@[simp] theorem probeFailed_phase (message : String) :
    (s.probeFailed message).phase = .failed := rfl

@[simp] theorem pumpStarted_phase (blockIpv6 : Bool) :
    (s.pumpStarted blockIpv6).phase = s.phase := rfl

@[simp] theorem pumpRefused_phase (message : String) :
    (s.pumpRefused message).phase = s.phase := rfl

@[simp] theorem beginRetry_phase (attempt : Int32) :
    (s.beginRetry attempt).phase = .preparing := rfl

@[simp] theorem reportRetryExhausted_phase : s.reportRetryExhausted.phase = .failed := rfl

@[simp] theorem reportRetryDelay_phase (attempt : Int32) (delayMs : Int64) :
    (s.reportRetryDelay attempt delayMs).phase = s.phase := rfl

@[simp] theorem disconnected_phase : s.disconnected.phase = s.phase := rfl

@[simp] theorem fail_phase (reason : FailureReason) (message : String) :
    (s.fail reason message).phase = .failed := rfl

@[simp] theorem revoke_phase : s.revoke.phase = .disconnected := rfl

@[simp] theorem reset_phase : s.reset.phase = .idle := rfl

end ConnectionSnapshot

end ShadeVpn.Service
