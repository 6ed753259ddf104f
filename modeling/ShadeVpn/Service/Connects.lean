import ShadeVpn.Profile.Material
import ShadeVpn.Pump.MirrorServer
import ShadeVpn.Service.SerialService

/-!
# A START that connects

From a share link to the running pump: the link's profile crosses the bridge, the native
session shakes hands with an honest server whose key it names, the server mirrors the probe,
and the pump starts with the keys of that handshake.

* `attempt_connects` — an attempt against an honest server ends CONNECTED with a pump.
* `start_connects` — so does a START of a new service, with all its threads.
-/

namespace ShadeVpn.Service

open Octets Checked Reality Handshake Tls Transport Pump Native Json Profile

variable {ι κ : Type} [DecidableEq ι]

/-! ## An honest server -/

/-- The secrets of a server: its key, and what it draws for a handshake. -/
structure ServerSecrets (κ : Type) where
  key : κ
  signing : κ
  ephemeral : κ

/-- What goes over the socket until the pump starts: the request, the state behind the hello,
the response with the server's session, and the answer to the probe. -/
structure Exchange (κ : Type) where
  request : ConnectRequest κ
  state : HandshakeState κ UInt8
  response : Bytes
  session : ServerSession UInt8
  echoed : Bytes

variable (C : Crypto κ UInt8) (os : Platform)

/-- The server is the one the request names, and `run_server` without VLESS. -/
structure Exchange.Honest (x : Exchange κ) (server : ServerSecrets κ) : Prop where
  key : x.request.params.serverPublicKey = C.publicKey server.key
  share : C.x25519 x.request.ephemeral (C.publicKey server.ephemeral) ≠ Crypto.zeros 32
  hello : initiate C x.request.params x.request.ephemeral x.request.unixTime = .ok x.state
  serve : serve C server.key (copyFrom 8 (lits (padShortId x.request.params.shortId)))
    server.signing server.ephemeral x.state.wireHello = .ok (x.response, x.session)
  echo : ∀ record, (x.state.complete C x.response).2.sealRecord C 0 PROBE = .ok record →
    ∃ t draw loop, (RecordLoop.start none 0 0).answer C x.session t none record draw
      = .ok (x.echoed, loop)

/-- The native calls of an attempt that go through, and what the first two answer. -/
def Exchange.calls (x : Exchange κ) (readable : Bool) (control : Bool × ControlIo) (halt : Bool) :
    AttemptCalls κ where
  lane := .runs readable
  control := .runs control
  connect := .runs ⟨x.request, .ok x.response⟩
  complete := .runs ()
  probe := .runs ⟨none, none, .ok (some x.echoed)⟩
  start := .runs ⟨none, none, halt⟩
  reached := true
  superseded := false

/-- What the `STANDARD` base 64 of the platform does. -/
structure Platform.Lossless : Prop where
  decode_encode : ∀ bytes, os.decode (os.encode bytes) = some bytes
  encode_blank : ∀ bytes, bytes ≠ [] → isBlank (os.encode bytes) = false

/-- A pump runs on the handshake of an exchange, from the sequence numbers behind the probe. -/
structure PumpsOn (s : Session κ) (x : Exchange κ) (blockIpv6 : Bool) : Prop where
  handshake : ∃ h, s.handshake = some h ∧ h.state.completed = true ∧ PeeredWith h.state x.session ∧
    ∃ t, s.pump.threads = some t ∧ t.handle = h ∧
      t.config = ⟨blockIpv6, some x.request.vlessParams⟩
  socket : s.socket = true
  running : s.pump.running = true
  stop : s.pump.stop = false
  nextOutSeq : s.nextOutSeq = 1
  nextInSeq : s.nextInSeq = 1
  seqOut : s.pump.seqOut = 1
  seqIn : s.pump.seqIn = 1

variable {C os} {x : Exchange κ} {server : ServerSecrets κ}

/-- **The handshake of an honest exchange** completes, with the server's keys. -/
theorem Exchange.Honest.completes (hC : C.Lawful) (h : x.Honest C server) :
    ∃ st, x.state.complete C x.response = (.ok (), st) ∧ st.completed = true ∧
      PeeredWith st x.session ∧ x.response ≠ [] := by
  obtain ⟨st, hcomplete, hkeys⟩ := complete_serve hC h.key h.hello h.serve h.share
  obtain ⟨-, -, hacceptable, rfl⟩ := acceptable_of_complete hcomplete
  obtain ⟨hello, hopen, hanswer⟩ := serve_eq_ok h.serve
  have hread := openHello_initiate hC h.key h.hello (length_lt_of_openHello hopen)
  rw [hopen, Except.ok.injEq] at hread
  refine ⟨_, hcomplete, rfl, ⟨hkeys, ?_⟩, ?_⟩
  · have hsession : x.session.sessionId = hello.sessionId := by
      rw [answer] at hanswer
      split at hanswer
      · cases hanswer
      · rw [Except.ok.injEq, Prod.mk.injEq] at hanswer
        rw [← hanswer.2]
    rw [hsession, hread]
    rfl
  · rintro hempty
    have hlength := hacceptable.length
    rw [hempty] at hlength
    exact absurd hlength (by decide)

/-- **The probe of an honest exchange** goes out and comes back. -/
theorem Exchange.Honest.probes (hC : C.Lawful) (h : x.Honest C server)
    {st : HandshakeState κ UInt8} (hcomplete : x.state.complete C x.response = (.ok (), st))
    (hpeer : PeeredWith st x.session) :
    ∃ record, st.sealRecord C 0 PROBE = .ok record ∧ record.length ≤ MAX_FRAME_LEN ∧
      st.openRecord C 0 x.echoed = .ok PROBE := by
  have hshort : PROBE.length ≤ 24 := by decide
  have hmax : PROBE.length ≤ Crypto.AES_MAX := hshort.trans (by decide)
  obtain ⟨record, hseal, hlength⟩ := hpeer.seal_ok hC 0 hmax
  have hecho := h.echo record (by rw [hcomplete]; exact hseal)
  obtain ⟨t, draw, loop, hanswer⟩ := hecho
  refine ⟨record, hseal, ?_, ?_⟩
  · rw [hlength, Crypto.AES_TAG, MAX_FRAME_LEN]
    omega
  · have hopen : x.session.openRecord C 0 record = some PROBE := hpeer.open_of_seal hC hseal
    have hmirror : x.session.sealRecord C 0 PROBE = some x.echoed := by
      have hnext : addU64 0 1 = .ok 1 := rfl
      rw [RecordLoop.answer, RecordLoop.answerOf] at hanswer
      simp only [RecordLoop.start, hopen, okOr, bind, Except.bind, Option.map_none,
        RecordLoop.reply, hnext] at hanswer
      cases hreseal : x.session.sealRecord C 0 PROBE with
      | none =>
        rw [hreseal] at hanswer
        cases hanswer
      | some resealed =>
        rw [hreseal, Except.ok.injEq, Prod.mk.injEq] at hanswer
        rw [hanswer.1]
    exact hpeer.open_sealed hC hmirror

/-! ## The native calls -/

section Calls

variable {s : Session κ} {st : HandshakeState κ UInt8}

/-- The session behind the connect of an exchange. -/
def Exchange.connected (x : Exchange κ) (s : Session κ) : Session κ :=
  { s with
    handshake := some ⟨s.created, s.nextOutSeq, x.state⟩
    socket := true
    vlessTunnel := some x.request.vlessParams
    created := s.created + 1 }

/-- The session behind its completion. -/
def Exchange.completed (x : Exchange κ) (s : Session κ) (st : HandshakeState κ UInt8) : Session κ :=
  { x.connected s with handshake := some ⟨s.created, s.nextOutSeq, st⟩ }

theorem native_connects (h : x.Honest C server) :
    nativeConnectTunnel C os s (.runs ⟨x.request, .ok x.response⟩)
      = (x.connected s, .ok (os.encode x.response)) :=
  nativeConnectTunnel_ok s x.response h.hello

theorem native_completes (hos : os.Lossless)
    (hcomplete : x.state.complete C x.response = (.ok (), st)) :
    nativeCompleteHandshake C os (x.connected s) (os.encode x.response) (.runs ())
      = (x.completed s st, .ok ()) := by
  simp only [nativeCompleteHandshake, hos.decode_encode, Platform.answer, Session.complete,
    Exchange.connected, hcomplete, Exchange.completed]

/-- The session behind its probe. -/
def Exchange.probed (x : Exchange κ) (s : Session κ) (st : HandshakeState κ UInt8) : Session κ :=
  { x.completed s st with nextOutSeq := 1, nextInSeq := 1 }

theorem native_probes (hC : C.Lawful) (h : x.Honest C server) (hout : s.nextOutSeq = 0)
    (hin : s.nextInSeq = 0) (hcomplete : x.state.complete C x.response = (.ok (), st))
    (hdone : st.completed = true) (hpeer : PeeredWith st x.session) :
    nativeProbeDataPlane C os (x.completed s st) (.runs ⟨none, none, .ok (some x.echoed)⟩)
      = (x.probed s st, .ok ()) := by
  obtain ⟨record, hseal, hlength, hopen⟩ := h.probes hC hcomplete hpeer
  simp only [nativeProbeDataPlane, Platform.answer, Session.probe, Exchange.completed,
    Exchange.connected, Exchange.probed, hdone, hout, hin, hseal, writeFrame_ok hlength, hopen]
  rfl

/-- The session behind the start of its pump. -/
def Exchange.pumping (x : Exchange κ) (s : Session κ) (st : HandshakeState κ UInt8)
    (blockIpv6 halt : Bool) : Session κ :=
  { x.probed s st with
    pump := (s.pump.start ⟨s.created, s.nextOutSeq, st⟩ ⟨blockIpv6, some x.request.vlessParams⟩ 1 1
      ⟨none, none, halt⟩).2 }

theorem native_starts (hdone : st.completed = true) (hidle : s.pump.running = false)
    (blockIpv6 halt : Bool) :
    nativeStartTunnelPump os (x.probed s st) blockIpv6 (.runs ⟨none, none, halt⟩)
      = (x.pumping s st blockIpv6 halt, .ok ()) := by
  simp only [nativeStartTunnelPump, Platform.answer, Session.startPump, Exchange.completed,
    Exchange.connected, Exchange.probed, Exchange.pumping, hdone, TunnelPump.start, hidle]
  rfl

theorem pumpsOn_pumping (hdone : st.completed = true) (hidle : s.pump.running = false)
    (hpeer : PeeredWith st x.session) (blockIpv6 halt : Bool) :
    PumpsOn (x.pumping s st blockIpv6 halt) x blockIpv6 := by
  have hpump : (s.pump.start ⟨s.created, s.nextOutSeq, st⟩ ⟨blockIpv6, some x.request.vlessParams⟩
      1 1 ⟨none, none, halt⟩).2 = (x.pumping s st blockIpv6 halt).pump := rfl
  rw [TunnelPump.start, if_neg (by rw [hidle]; exact Bool.false_ne_true)] at hpump
  refine ⟨⟨_, rfl, hdone, hpeer, ?_⟩, rfl, ?_, ?_, rfl, rfl, ?_, ?_⟩
  all_goals rw [← hpump]
  exact ⟨_, rfl, rfl, rfl⟩

end Calls

/-! ## The stages -/

section Stages

variable {a : App κ} {session : Session κ} {blockIpv6 : Bool}

theorem connectStage_app {call : NativeCall (ConnectCall κ)} {responseB64 : String} {reached : Bool}
    (hprofile : a.snapshot.selectedProfile.isSome)
    (hcall : nativeConnectTunnel C os a.session call = (session, .ok responseB64))
    (hblank : isBlank responseB64 = false) :
    (a.connectStage C os call reached).succeeded = true ∧ (a.connectStage C os call reached).app
      = { a with session, pendingServerResponseB64 := some responseB64 }.mutate
        .tunnelConnected := by
  obtain ⟨profile, hprofile⟩ := Option.isSome_iff_exists.1 hprofile
  simp only [App.connectStage, App.connectTunnel, hprofile, hcall, hblank]
  exact ⟨rfl, rfl⟩

theorem completeStage_app {call : NativeCall Unit} {responseB64 : String}
    (hpending : a.pendingServerResponseB64 = some responseB64)
    (hblank : isBlank responseB64 = false)
    (hcall : nativeCompleteHandshake C os a.session responseB64 call = (session, .ok ())) :
    (a.completeStage C os call).succeeded = true ∧ (a.completeStage C os call).app
      = { a with session, pendingServerResponseB64 := none }.mutate .handshakeAccepted := by
  simp only [App.completeStage, App.completeHandshake, Option.getD_none, hpending, hblank, hcall]
  exact ⟨rfl, rfl⟩

theorem probeStage_app {call : NativeCall ProbeIo}
    (hcall : nativeProbeDataPlane C os a.session call = (session, .ok ())) :
    (a.probeStage C os call).succeeded = true ∧ (a.probeStage C os call).app
      = { a with session, probed := a.session.handshake.map Handle.id, shut := none }.mutate
        .probePassed := by
  simp only [App.probeStage, App.runDataPlaneProbe, hcall]
  exact ⟨rfl, trivial⟩

theorem startStage_app {call : NativeCall StartIo}
    (hcall : nativeStartTunnelPump os a.session blockIpv6 call = (session, .ok ())) :
    (a.startStage os blockIpv6 call).succeeded = true ∧ (a.startStage os blockIpv6 call).app
      = { a with session }.mutate (.pumpStarted blockIpv6) := by
  simp only [App.startStage, App.startPump, hcall]
  exact ⟨rfl, trivial⟩

/-- CONNECTED, with a pump that runs on the exchange. -/
structure App.ConnectedOn (a : App κ) (x : Exchange κ) (blockIpv6 : Bool) : Prop where
  phase : a.snapshot.phase = .connected
  pumpRunning : a.snapshot.pumpRunning = true
  pump : PumpsOn a.session x blockIpv6

/-- An attempt that ends so, and is not tried again. -/
structure Connects (attempt : Attempt κ) (x : Exchange κ) (blockIpv6 : Bool) : Prop where
  terminal : attempt.terminal = true
  connected : attempt.app.ConnectedOn x blockIpv6

theorem Connects.andThen {run : StageRun κ} {app : App κ} {otherwise next : App κ → Attempt κ}
    (hrun : run.succeeded = true ∧ run.app = app) (h : Connects (next app) x blockIpv6) :
    Connects (run.andThen otherwise next) x blockIpv6 := by
  obtain ⟨hsucceeded, rfl⟩ := hrun
  rw [StageRun.andThen, hsucceeded]
  exact ⟨h.terminal, h.connected⟩

end Stages

/-! ## The attempt -/

section Attempt

variable {a : App κ}

/-- **An attempt against an honest server** ends CONNECTED, with a pump on the keys of its
handshake. -/
theorem attempt_connects (hC : C.Lawful) (hos : os.Lossless) (h : x.Honest C server)
    (text : Value → String) (hprofile : a.snapshot.selectedProfile.isSome)
    (hout : a.session.nextOutSeq = 0) (hin : a.session.nextInSeq = 0)
    (hidle : a.session.pump.running = false) (blockIpv6 readable : Bool)
    (control : Bool × ControlIo) (halt : Bool) :
    Connects (a.attemptConnect C os text blockIpv6 (x.calls readable control halt)) x
      blockIpv6 := by
  obtain ⟨st, hcomplete, hdone, hpeer, hresponse⟩ := h.completes hC
  have hblank := hos.encode_blank _ hresponse
  obtain ⟨profile, hselected⟩ := Option.isSome_iff_exists.1 hprofile
  obtain ⟨again, io⟩ := control
  rw [App.attemptConnect]
  dsimp only [Exchange.calls]
  -- stage by stage; what the lane and the control plane answer does not matter
  refine Connects.andThen (by rw [App.laneStage_runs text hselected]; exact ⟨rfl, rfl⟩) ?_
  refine Connects.andThen (by rw [App.controlStage_runs hselected]; exact ⟨rfl, rfl⟩) ?_
  refine Connects.andThen (connectStage_app ?_ (native_connects h) hblank) ?_
  · rw [App.mutate, controlPlaneProbed_selectedProfile]
    exact hprofile
  refine Connects.andThen (completeStage_app rfl hblank (native_completes hos hcomplete)) ?_
  refine Connects.andThen (probeStage_app (native_probes hC h hout hin hcomplete hdone hpeer)) ?_
  refine Connects.andThen (startStage_app (native_starts hdone hidle blockIpv6 halt)) ?_
  exact ⟨rfl, rfl, rfl, pumpsOn_pumping hdone hidle hpeer blockIpv6 halt⟩

/-- `startTunnel` from a TUN on: the first attempt connects, and there is no second one. -/
theorem tunnelOn_connects (hC : C.Lawful) (hos : os.Lossless) (h : x.Honest C server)
    (text : Value → String) (hprofile : a.snapshot.selectedProfile.isSome)
    (hout : a.session.nextOutSeq = 0) (hin : a.session.nextInSeq = 0)
    (hidle : a.session.pump.running = false) (blockIpv6 : Bool) {calls : StartCalls κ}
    {readable : Bool} {control : Bool × ControlIo} {halt : Bool} {fd : Int32}
    (hattempt : calls.attempts 0 = x.calls readable control halt) (hfd : 0 ≤ fd) :
    (a.tunnelOn C os text blockIpv6 calls fd).ConnectedOn x blockIpv6 := by
  have hdone : Connects ((a.mutate (.establishTun fd)).attemptConnect C os text blockIpv6
      ((calls.attempts 0).alone false)) x blockIpv6 := by
    rw [hattempt]
    exact attempt_connects (a := a.mutate (.establishTun fd)) hC hos h text hprofile hout hin
      hidle blockIpv6 readable control halt
  have htun : (a.mutate (.establishTun fd)).snapshot.tunEstablished = true := decide_eq_true hfd
  rw [App.tunnelOn, if_neg (Int32.not_lt.2 hfd), App.connectLoop, if_pos htun]
  dsimp only
  rw [if_pos hdone.terminal]
  exact hdone.connected

end Attempt

/-! ## The command -/

/-- What `run_connect` connects with, from what it has read and what it draws. -/
def connectRequest (connect : ConnectParams) (ephemeral : κ) (unixTime : UInt32) :
    ConnectRequest κ :=
  ⟨connect.params, connect.serverPort, connect.uuid, ephemeral, unixTime⟩

/-- The connect thread parses the link and gets its TUN, and its first attempt is the exchange,
with a request for what `run_connect` reads. -/
structure StartCalls.Meets (calls : StartCalls κ) (java : JavaNet) (codecs : Codecs)
    (link : String) (x : Exchange κ) : Prop where
  parsed : calls.parsed = Profile.parse java link
  excluded : calls.excluded = true
  established : ∃ fd, calls.established = some fd ∧ 0 ≤ fd
  attempt : ∃ readable control halt, calls.attempts 0 = x.calls readable control halt
  request : ∀ profile connect, calls.parsed = .ok profile →
    connectParams codecs (some (toHandshakeJson profile)) = .ok connect →
    ∃ ephemeral unixTime, x.request = connectRequest connect ephemeral unixTime

section Command

variable {java : JavaNet} {codecs : Codecs} {link : String} {profile : VlessProfile}
  {calls : StartCalls κ}

/-- A link that parses has its scheme. -/
theorem isBlank_of_parse (hparse : Profile.parse java link = .ok profile) :
    isBlank link = false := by
  have hscheme : isVless link = true := by
    by_contra hother
    rw [Profile.parse, Bool.eq_false_iff.2 hother] at hparse
    cases hparse
  obtain ⟨rest, hlink⟩ := List.isPrefixOf_iff_prefix.1 hscheme
  rw [isBlank, ← hlink]
  rfl

theorem startTunnel_connects (hC : C.Lawful) (hos : os.Lossless) (h : x.Honest C server)
    (text : Value → String) {p : SerialService κ} (hout : p.app.session.nextOutSeq = 0)
    (hin : p.app.session.nextInSeq = 0) (hidle : p.app.session.pump.running = false)
    (hparse : Profile.parse java link = .ok profile) (hcalls : calls.Meets java codecs link x)
    (blockIpv6 : Bool) :
    (p.startTunnel C os text (some link) blockIpv6 calls).app.ConnectedOn x blockIpv6 := by
  obtain ⟨fd, hestablished, hfd⟩ := hcalls.established
  obtain ⟨readable, control, halt, hattempt⟩ := hcalls.attempt
  rw [SerialService.startTunnel]
  dsimp only
  rw [isBlank_of_parse hparse, if_neg Bool.false_ne_true, hcalls.parsed, hparse]
  dsimp only
  rw [if_pos hcalls.excluded, hestablished]
  exact tunnelOn_connects
    (a := (p.app.mutate (.onPermissionResult true)).loadProfile (.ok profile)) hC hos h text rfl
    hout hin hidle blockIpv6 hattempt hfd

end Command

/-! ## An exchange with a sample server -/

/-- For any secrets whose two shared secrets are not zero there is an honest exchange. -/
theorem exists_honest (hC : C.Lawful) (server : ServerSecrets κ) (request : ConnectRequest κ)
    {hello : Bytes} (hkey : request.params.serverPublicKey = C.publicKey server.key)
    (hpos : 1 ≤ request.params.shortId.length) (hshort : request.params.shortId.length ≤ 8)
    (hshared : C.x25519 request.ephemeral (C.publicKey server.key) ≠ Crypto.zeros 32)
    (hecdhe : C.x25519 request.ephemeral (C.publicKey server.ephemeral) ≠ Crypto.zeros 32)
    (hbuild : buildClientHello (some request.params.sni) (C.publicKey request.ephemeral)
      (helloRandom C (C.x25519 request.ephemeral (C.publicKey server.key)))
      (Crypto.zeros 32 : List.Vector UInt8 32).toList = .ok hello)
    (hlen : hello.length < 5 + 65536) :
    ∃ x : Exchange κ, x.request = request ∧ x.Honest C server := by
  obtain ⟨st, -, response, session, st', hinit, -, -, hserve, hcomplete, hkeys, hsid⟩ :=
    handshake_ok hC server.key request.ephemeral server.signing server.ephemeral
      request.params.sni request.unixTime hpos hshort hshared hecdhe hbuild hlen
  rw [← hkey] at hinit
  have hpeer : PeeredWith st' session := ⟨hkeys, hsid⟩
  obtain ⟨echoed, hecho⟩ : ∃ echoed, session.sealRecord C 0 PROBE = some echoed :=
    hC.encrypt_ok session.sendKey _ [] PROBE (by simp) (by decide)
  refine ⟨⟨request, st, response, session, echoed⟩, rfl, hkey, hecdhe, hinit, hserve, ?_⟩
  intro record hseal
  rw [hcomplete] at hseal
  have hopen : session.openRecord C 0 record = some PROBE := hpeer.open_of_seal hC hseal
  have hnext : addU64 0 1 = .ok 1 := rfl
  refine ⟨.aarch64, fun _ => 0, { RecordLoop.start none 0 0 with seqIn := 1, seqOut := 1 }, ?_⟩
  simp only [RecordLoop.answer, RecordLoop.answerOf, RecordLoop.start, hopen, okOr, bind,
    Except.bind, Option.map_none, RecordLoop.reply, hnext, hecho]

/-- The `STANDARD` engine. -/
def standardPlatform : Platform where
  encode bytes := String.ofList (BaseText.standard.encode64 true bytes)
  decode text := BaseText.standard.decode64 true text.toList
  debug := fun _ => ""

theorem lossless_standardPlatform : standardPlatform.Lossless where
  decode_encode bytes := by
    show BaseText.standard.decode64 true (String.ofList _).toList = _
    rw [String.toList_ofList]
    exact BaseText.standard.decode64_encode64 true bytes
  encode_blank bytes hbytes := by
    have hdigits : BaseText.standard.chars.all (!isWhitespace ·) = true := by decide
    obtain ⟨a, rest, rfl⟩ := List.exists_cons_of_ne_nil hbytes
    have hmem : BaseText.standard.digit (a.toNat / 4) ∈ BaseText.standard.chars :=
      BaseText.standard.digit_mem (by have := a.toNat_lt; omega)
    obtain ⟨others, hothers⟩ : ∃ others, BaseText.standard.encode64 true (a :: rest)
        = BaseText.standard.digit (a.toNat / 4) :: others := by
      rcases rest with _ | ⟨b, _ | ⟨c, rest⟩⟩
      all_goals exact ⟨_, rfl⟩
    show isBlank (String.ofList (BaseText.standard.encode64 true (a :: rest))) = false
    have hdigit := List.all_eq_true.1 hdigits _ hmem
    rw [Bool.not_eq_true'] at hdigit
    rw [hothers, isBlank, String.toList_ofList, List.all_cons, hdigit, Bool.false_and]

/-- The text of 32 bytes of 3. -/
def threeKey : String := "AwMDAwMDAwMDAwMDAwMDAwMDAwMDAwMDAwMDAwMDAwM"

/-- What the START of its link meets. -/
def keyedStart (x : Exchange UInt8) : StartCalls UInt8 where
  parsed := Profile.parse keyedNet ("vless://" ++ threeKey)
  excluded := true
  established := some 5
  attempts _ := x.calls true (true, .connected) false
  draws _ _ := 0

end ShadeVpn.Service
