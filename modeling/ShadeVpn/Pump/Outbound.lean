import ShadeVpn.Lib.Machine
import ShadeVpn.Pump.Transport
import ShadeVpn.Reality.Server
import ShadeVpn.Vless.Stream

/-!
# The outbound half of the pump

`TunnelPump::start` of `native/src/pump.rs`, the thread that reads packets from
the TUN, wraps them in the VLESS stream, seals them and writes them as frames.
The thread is a machine: one event is what one turn of its loop meets, with the
outcome of every call to the system in it.

* `packet_admitted` — what one packet puts on the socket, and what the peer makes of it.
* `run_relays` — the same for a whole run.
* `outbound_delivers` — an honest peer gets the request once and then the packets
  that were let through, one per record and in order; a blocked packet does not
  reach the socket; the counters balance.
-/

namespace ShadeVpn.Pump

open Octets Checked Transduce Handshake Transport Vless

/-! ## Configuration and counters -/

def READ_BUF : ℕ := 1500

/-- `PumpStats`. -/
structure PumpStats where
  packetsIn : UInt64
  packetsOut : UInt64
  bytesIn : UInt64
  bytesOut : UInt64
  deliveredPackets : UInt64
  deliveredBytes : UInt64
  sealErrors : UInt64
  openErrors : UInt64
  droppedPackets : UInt64
  deriving DecidableEq, Repr

/-- `PumpStats::default`. -/
def PumpStats.zero : PumpStats := ⟨0, 0, 0, 0, 0, 0, 0, 0, 0⟩

/-- `VlessParams`. -/
structure VlessParams where
  uuid : Uuid
  flow : Option String
  command : UInt8
  address : Address
  port : UInt16
  deriving DecidableEq

/-- `PumpConfig`. -/
structure PumpConfig where
  blockIpv6 : Bool
  vless : Option VlessParams
  deriving DecidableEq

/-- `ip_version`. -/
def ipVersion (buf : Bytes) : UInt8 :=
  match buf with
  | [] => 0
  | b :: _ => b >>> 4

/-! ## State and events -/

/-- Why a half of the pump left its loop. -/
inductive Exit where
  | stop
  | eof
  | tunFailed
  | socketFailed
  | panicked
  deriving DecidableEq, Repr

/-- The outbound half: its sequence number, its VLESS stream, the counters, what
it has put on the socket, and how its loop ended if it did. -/
structure Outbound where
  seqOut : UInt64
  vlessOut : Option VlessOut
  stats : PumpStats
  wire : Bytes
  exit : Option Exit
  deriving DecidableEq

/-- What a read of the TUN returns: never nothing, never more than the buffer. -/
structure Packet where
  bytes : Bytes
  nonempty : bytes ≠ []
  fits : bytes.length ≤ READ_BUF
  deriving DecidableEq

/-- What one turn of the outbound loop meets.  A packet comes with the draws of
its padding and with the outcome of the socket write. -/
inductive TunRead where
  | stopped
  | notReadable
  | eof
  | interrupted
  | failed
  | packet (p : Packet) (draw : ℕ → ℕ) (io : Option ℕ)

/-- A record a seal has succeeded for. -/
structure SealedRecord where
  seq : UInt64
  plaintext : Bytes
  deriving DecidableEq

variable {κ : Type} (C : Crypto κ UInt8) (st : HandshakeState κ UInt8) (config : PumpConfig)

/-- The VLESS stream a pump starts with. -/
def PumpConfig.vlessOut (config : PumpConfig) : Option VlessOut :=
  config.vless.bind fun p => (VlessOut.new p.uuid p.flow p.command p.address p.port).toOption

/-- The outbound half as `start` spawns it. -/
def Outbound.start (config : PumpConfig) (stats : PumpStats) (nextOutSeq : UInt64) : Outbound where
  seqOut := nextOutSeq
  vlessOut := config.vlessOut
  stats := stats
  wire := []
  exit := none

/-- The leak shield: does the pump blackhole this packet? -/
def PumpConfig.blackholes (config : PumpConfig) (buf : Bytes) : Bool :=
  config.blockIpv6 && ipVersion buf == 6

/-- The plaintext of a record, and the stream behind it. -/
def wrap (vlessOut : Option VlessOut) (draw : ℕ → ℕ) (buf : Bytes) :
    Except (Stop VlessError) (Bytes × Option VlessOut) :=
  match vlessOut with
  | some v =>
    match v.wrap draw buf with
    | .error e => .error e
    | .ok (out, v) => .ok (out, some v)
  | none => .ok (buf, none)

/-- The body of the outbound loop on a packet, with the record it seals. -/
def Outbound.packet (s : Outbound) (buf : Bytes) (draw : ℕ → ℕ) (io : Option ℕ) :
    Outbound × Option SealedRecord :=
  let s := { s with stats := { s.stats with
    packetsIn := s.stats.packetsIn + 1
    bytesIn := s.stats.bytesIn + UInt64.ofNat buf.length } }
  if config.blackholes buf then
    ({ s with stats := { s.stats with droppedPackets := s.stats.droppedPackets + 1 } }, none)
  else
    let seq := s.seqOut
    let s := { s with seqOut := s.seqOut + 1 }
    match wrap s.vlessOut draw buf with
    | .error _ => ({ s with exit := some .panicked }, none)
    | .ok (wrapped, vlessOut) =>
      let s := { s with vlessOut }
      match st.sealRecord C seq wrapped with
      | .ok sealed =>
        match writeFrame sealed io with
        | (.ok (), bytes) =>
          ({ s with
              wire := s.wire ++ bytes
              stats := { s.stats with
                packetsOut := s.stats.packetsOut + 1
                bytesOut := s.stats.bytesOut + UInt64.ofNat sealed.length } },
            some ⟨seq, wrapped⟩)
        | (.error _, bytes) =>
          ({ s with
              wire := s.wire ++ bytes
              seqOut := s.seqOut - 1
              exit := some .socketFailed },
            some ⟨seq, wrapped⟩)
      | .error _ =>
        ({ s with
            seqOut := s.seqOut - 1
            stats := { s.stats with sealErrors := s.stats.sealErrors + 1 } }, none)

/-- One turn of the outbound loop; a loop that was left stays left. -/
def Outbound.turn (s : Outbound) (e : TunRead) : Outbound × Option SealedRecord :=
  if s.exit.isSome then (s, none)
  else
    match e with
    | .stopped => ({ s with exit := some .stop }, none)
    | .notReadable => (s, none)
    | .eof => ({ s with exit := some .eof }, none)
    | .interrupted => (s, none)
    | .failed => ({ s with exit := some .tunFailed }, none)
    | .packet p draw io => s.packet C st config p.bytes draw io

/-- The state after one turn. -/
def Outbound.step (s : Outbound) (e : TunRead) : Outbound := (s.turn C st config e).1

/-! ## The honest peer -/

/-- A server session that shares the client's keys, the other way round. -/
structure PeeredWith (st : HandshakeState κ UInt8) (session : ServerSession UInt8) : Prop where
  keys : st.recordKeys = some ⟨session.recvKey, session.sendKey⟩
  sessionId : st.sealedSessionId = session.sessionId

/-- Open records at consecutive sequence numbers. -/
def openRecords (session : ServerSession UInt8) : UInt64 → List Bytes → Option (List Bytes)
  | _, [] => some []
  | seq, frame :: frames => do
    let plaintext ← session.openRecord C seq frame
    let plaintexts ← openRecords session (seq + 1) frames
    some (plaintext :: plaintexts)

/-- The content of one plaintext, read with or without a Vision reader. -/
def unwrapRecord : Option VisionReader → Bytes → Option (Bytes × Option VisionReader)
  | none, plaintext => some (plaintext, none)
  | some r, plaintext =>
    match r.unpad plaintext with
    | (.ok content, r) => some (content, some r)
    | (.error _, _) => none

/-- The contents of plaintexts read in order. -/
def unwrapRecords : Option VisionReader → List Bytes → Option (List Bytes)
  | _, [] => some []
  | r, plaintext :: plaintexts => do
    let (content, r) ← unwrapRecord r plaintext
    let contents ← unwrapRecords r plaintexts
    some (content :: contents)

/-- What a peer makes of a client's records. -/
structure Received where
  request : Option ParsedRequest
  packets : List Bytes
  deriving DecidableEq

/-- Cut the request header off the first content. -/
def splitRequest (t : Target) : List Bytes → Option Received
  | [] => some ⟨none, []⟩
  | content :: contents =>
    match requestHeaderLen t content with
    | .error _ => none
    | .ok n =>
      match parseRequestHeader t (content.take n) with
      | .error _ => none
      | .ok request => some ⟨some request, content.drop n :: contents⟩

/-- An honest peer's reading of what a client put on the socket: open the frames
in order from `seq` on; with VLESS, unpad each plaintext and cut off the request. -/
def receive (t : Target) (session : ServerSession UInt8) (vless : Option VlessParams)
    (seq : UInt64) (wire : Bytes) : Option Received := do
  let plaintexts ← openRecords C session seq (readFrames wire).1
  match vless with
  | none => some ⟨none, plaintexts⟩
  | some p => do
    let contents ← unwrapRecords (some (.new p.uuid)) plaintexts
    splitRequest t contents

/-! ## What is to arrive -/

/-- The shield lets a packet through: it is off, or the packet's first nibble is not 6. -/
def PumpConfig.Lets (config : PumpConfig) (packet : Bytes) : Prop :=
  config.blockIpv6 = true → packet.head?.map (·.toNat / 16) ≠ some 6

instance (config : PumpConfig) (packet : Bytes) : Decidable (config.Lets packet) :=
  inferInstanceAs (Decidable (_ → _ ≠ _))

/-- The packets that are to arrive: those the shield lets through, up to the end
of the loop or the first write the socket fails. -/
def admitted (config : PumpConfig) : List TunRead → List Bytes
  | .packet p _ io :: reads =>
    if config.Lets p.bytes then
      match io with
      | none => p.bytes :: admitted config reads
      | some _ => []
    else admitted config reads
  | .notReadable :: reads => admitted config reads
  | .interrupted :: reads => admitted config reads
  | _ => []

/-- What the pump drops is what the shield does not let through. -/
theorem blackholes_eq_false {config : PumpConfig} {packet : Bytes} :
    config.blackholes packet = false ↔ config.Lets packet := by
  have hversion : ipVersion packet = 6 ↔ packet.head?.map (·.toNat / 16) = some 6 := by
    cases packet with
    | nil => simp [ipVersion]
    | cons b rest =>
      rw [ipVersion, ← UInt8.toNat_inj, UInt8.toNat_shiftRight, List.head?_cons, Option.map_some,
        Option.some.injEq, Nat.shiftRight_eq_div_pow]
      rfl
  rw [PumpConfig.blackholes, PumpConfig.Lets, ne_eq, ← hversion]
  cases config.blockIpv6 <;> simp

/-- What is to arrive, as the loop decides it. -/
theorem admitted_packet (config : PumpConfig) (p : Packet) (draw : ℕ → ℕ) (io : Option ℕ)
    (reads : List TunRead) : admitted config (.packet p draw io :: reads) =
      if config.blackholes p.bytes then admitted config reads
      else
        match io with
        | none => p.bytes :: admitted config reads
        | some _ => [] := by
  show (if config.Lets p.bytes then _ else _) = _
  cases hblack : config.blackholes p.bytes with
  | false => rw [if_pos (blackholes_eq_false.1 hblack), if_neg (by simp)]
  | true =>
    have hkept : ¬ config.Lets p.bytes := fun hlets => by
      rw [blackholes_eq_false.2 hlets] at hblack
      cases hblack
    rw [if_neg hkept, if_pos rfl]

/-- The request a peer is to read. -/
def VlessParams.request (p : VlessParams) : ParsedRequest :=
  readBack p.uuid p.flow p.command p.address p.port

/-- Flow and domain fit their length bytes. -/
def PumpConfig.Fits (config : PumpConfig) : Prop :=
  ∀ p ∈ config.vless, (∀ f, p.flow = some f → (utf8 f).length ≤ 255) ∧ p.address.Fits

/-- An IPv6 packet. -/
def TunRead.isIpv6 : TunRead → Bool
  | .packet p _ _ => ipVersion p.bytes == 6
  | _ => false

/-! ## The stream -/

/-- What the next record carries in front of its packet. -/
def pending : Option VlessOut → Bytes
  | none => []
  | some v => v.pending

/-- A reader in step with the VLESS stream, whose header is short enough for any
packet to fit a frame with it. -/
def Tracks : Option VlessOut → Option VisionReader → Prop
  | none, none => True
  | some v, some r => InStep v.writer r ∧ v.pending.length ≤ 537
  | _, _ => False

/-- **Wrapping a packet.**  It never faults, the record stays small, and the
reader in step finds the packet behind what was pending. -/
theorem wrap_unwrap {o : Option VlessOut} {r : Option VisionReader} (h : Tracks o r)
    (draw : ℕ → ℕ) {buf : Bytes} (hbuf : buf.length ≤ READ_BUF) :
    ∃ out o' r', wrap o draw buf = .ok (out, o') ∧ out.length ≤ 4080 ∧
      unwrapRecord r out = some (pending o ++ buf, r') ∧ pending o' = [] ∧ Tracks o' r' := by
  have hread : READ_BUF = 1500 := rfl
  match o, r, h with
  | none, none, _ => exact ⟨buf, none, none, rfl, by omega, rfl, rfl, trivial⟩
  | some v, some r, ⟨hstep, hlen⟩ =>
    obtain ⟨out, v', r', hwrap, hunpad, hheader, hstep'⟩ := VlessOut.wrap_unpad hstep draw buf
    have hle := VlessOut.length_wrap_le hwrap
    have hpending : v'.pending = [] := by rw [VlessOut.pending, hheader]; rfl
    have hframes : (v.pending.length + buf.length) / MAX_FRAME_BODY ≤ 1 :=
      Nat.lt_succ_iff.1 (Nat.div_lt_of_lt_mul (by rw [MAX_FRAME_BODY_eq]; omega))
    refine ⟨out, some v', some r', by simp [wrap, hwrap], ?_, by simp [unwrapRecord, hunpad, pending],
      hpending, hstep', by rw [hpending]; exact Nat.zero_le _⟩
    calc out.length ≤ 16 + (1 + 1) * (5 + MAX_FRAME_BODY) := by
          refine hle.trans (Nat.add_le_add_left (Nat.mul_le_mul_right _ ?_) _)
          omega
      _ = 4080 := rfl

/-- The header of a configuration is what its stream starts with. -/
theorem pending_start (config : PumpConfig) :
    pending config.vlessOut = match config.vless with
      | none => []
      | some p => requestHeader p.uuid p.flow p.command p.address p.port := by
  cases hv : config.vless with
  | none => simp [PumpConfig.vlessOut, hv, pending]
  | some p => simp [PumpConfig.vlessOut, hv, VlessOut.new, buildRequestHeader, Except.toOption,
      pending, VlessOut.pending]

/-- A configuration that fits starts a stream that a new reader follows. -/
theorem tracks_start {config : PumpConfig} (h : config.Fits) :
    Tracks config.vlessOut (config.vless.map fun p => .new p.uuid) := by
  cases hv : config.vless with
  | none => simp [PumpConfig.vlessOut, hv, Tracks]
  | some p =>
    obtain ⟨hflow, haddr⟩ := h p hv
    have hlen := length_requestHeader_le p.uuid p.command p.port hflow haddr
    simpa [PumpConfig.vlessOut, hv, VlessOut.new, buildRequestHeader, Except.toOption, Tracks,
      VlessOut.pending] using ⟨InStep.start p.uuid, hlen⟩

/-! ## One packet -/

variable {C st config}

/-- What the client seals, its peer opens. -/
theorem PeeredWith.open_of_seal (hC : C.Lawful) {session : ServerSession UInt8}
    (h : PeeredWith st session) {seq : UInt64} {pt ct : Bytes}
    (hseal : st.sealRecord C seq pt = .ok ct) : session.openRecord C seq ct = some pt := by
  rw [HandshakeState.sealRecord, h.keys, h.sessionId] at hseal
  dsimp only at hseal
  split at hseal
  · cases hseal
  · next ct' hct =>
    cases hseal
    exact hC.decrypt_encrypt hct

/-- A completed client seals what AES-GCM takes, with a tag behind it. -/
theorem PeeredWith.seal_ok (hC : C.Lawful) {session : ServerSession UInt8}
    (h : PeeredWith st session) (seq : UInt64) {pt : Bytes} (hpt : pt.length ≤ Crypto.AES_MAX) :
    ∃ ct, st.sealRecord C seq pt = .ok ct ∧ ct.length = pt.length + Crypto.AES_TAG := by
  obtain ⟨ct, hct⟩ := hC.encrypt_ok session.recvKey
    (deriveNonce C session.sessionId seq .client NONCE_PURPOSE_DATA) [] pt (by simp) hpt
  refine ⟨ct, ?_, hC.encrypt_length hct⟩
  rw [HandshakeState.sealRecord, h.keys, h.sessionId]
  dsimp only
  rw [hct]

/-- The counters of a packet that was read. -/
def PumpStats.read (s : PumpStats) (buf : Bytes) : PumpStats :=
  { s with packetsIn := s.packetsIn + 1, bytesIn := s.bytesIn + UInt64.ofNat buf.length }

/-- The counters of a record that was written. -/
def PumpStats.wrote (s : PumpStats) (sealed : Bytes) : PumpStats :=
  { s with packetsOut := s.packetsOut + 1, bytesOut := s.bytesOut + UInt64.ofNat sealed.length }

/-- A blackholed packet changes the counters only. -/
theorem packet_blackholed {s : Outbound} {buf : Bytes} (h : config.blackholes buf = true)
    (draw : ℕ → ℕ) (io : Option ℕ) :
    s.packet C st config buf draw io = ({ s with stats := { s.stats.read buf with
      droppedPackets := (s.stats.read buf).droppedPackets + 1 } }, none) := by
  rw [Outbound.packet, if_pos h]
  rfl

/-- **An admitted packet** becomes one record that the peer opens at the next
sequence number and reads as the packet, behind what was pending. -/
theorem packet_admitted (hC : C.Lawful) {session : ServerSession UInt8}
    (hpeer : PeeredWith st session)
    {s : Outbound} {r : Option VisionReader} (htracks : Tracks s.vlessOut r) {buf : Bytes}
    (hbuf : buf.length ≤ READ_BUF) (h : config.blackholes buf = false) (draw : ℕ → ℕ) :
    ∃ wrapped sealed o' r', session.openRecord C s.seqOut sealed = some wrapped ∧
      sealed.length ≤ MAX_FRAME_LEN ∧
      unwrapRecord r wrapped = some (pending s.vlessOut ++ buf, r') ∧ pending o' = [] ∧
      Tracks o' r' ∧
      s.packet C st config buf draw none = ({ s with
        seqOut := s.seqOut + 1
        vlessOut := o'
        stats := (s.stats.read buf).wrote sealed
        wire := s.wire ++ frameBytes sealed }, some ⟨s.seqOut, wrapped⟩) ∧
      ∀ n, s.packet C st config buf draw (some n) = ({ s with
        vlessOut := o'
        stats := s.stats.read buf
        wire := s.wire ++ (frameBytes sealed).dropLast.take n
        exit := some .socketFailed }, some ⟨s.seqOut, wrapped⟩) := by
  obtain ⟨wrapped, o', r', hwrap, hlen, hunwrap, hpending, htracks'⟩ :=
    wrap_unwrap htracks draw hbuf
  have haes : wrapped.length ≤ Crypto.AES_MAX := hlen.trans (by decide)
  obtain ⟨sealed, hseal, hsealed⟩ := hpeer.seal_ok hC s.seqOut haes
  have hmax : sealed.length ≤ MAX_FRAME_LEN := by
    rw [hsealed, Crypto.AES_TAG, MAX_FRAME_LEN]
    omega
  refine ⟨wrapped, sealed, o', r', hpeer.open_of_seal hC hseal, hmax, hunwrap, hpending, htracks',
    ?_, fun n => ?_⟩
  · simp only [Outbound.packet, h, hwrap, hseal, writeFrame_ok hmax]
    rfl
  · simp only [Outbound.packet, h, hwrap, hseal, writeFrame_fail hmax]
    simp [PumpStats.read]

/-! ## A run of the loop -/

/-- What was pending goes in front of the first packet. -/
def behind (front : Bytes) : List Bytes → List Bytes
  | [] => []
  | packet :: packets => (front ++ packet) :: packets

@[simp] theorem behind_nil (packets : List Bytes) : behind [] packets = packets := by
  cases packets <;> rfl

/-- Bytes on a socket that the peer, at sequence number `seq` and with reader `r`,
reads as these contents: frames it opens one after the other, then at most a
frame that was cut off. -/
structure Relays (C : Crypto κ UInt8) (session : ServerSession UInt8) (seq : UInt64)
    (r : Option VisionReader) (contents : List Bytes) (bytes : Bytes) : Prop where
  frames : ∃ frames plaintexts tail, bytes = frames.flatMap frameBytes ++ tail ∧
    (∀ f ∈ frames, f.length ≤ MAX_FRAME_LEN) ∧ (readFrames tail).1 = [] ∧
    openRecords C session seq frames = some plaintexts ∧ unwrapRecords r plaintexts = some contents

theorem Relays.nil (session : ServerSession UInt8) (seq : UInt64) (r : Option VisionReader) :
    Relays C session seq r [] [] :=
  ⟨[], [], [], rfl, by simp, by rw [readFrames_of_end rfl], rfl, rfl⟩

theorem Relays.cut (session : ServerSession UInt8) (seq : UInt64) (r : Option VisionReader)
    {sealed : Bytes} (h : sealed.length ≤ MAX_FRAME_LEN) (n : ℕ) :
    Relays C session seq r [] ((frameBytes sealed).dropLast.take n) :=
  ⟨[], [], _, rfl, by simp, readFrames_cut h n, rfl, rfl⟩

theorem Relays.cons {session : ServerSession UInt8} {seq : UInt64} {r r' : Option VisionReader}
    {contents : List Bytes} {bytes sealed wrapped content : Bytes}
    (hopen : session.openRecord C seq sealed = some wrapped) (hmax : sealed.length ≤ MAX_FRAME_LEN)
    (hunwrap : unwrapRecord r wrapped = some (content, r'))
    (h : Relays C session (seq + 1) r' contents bytes) :
    Relays C session seq r (content :: contents) (frameBytes sealed ++ bytes) := by
  obtain ⟨frames, plaintexts, tail, rfl, hsmall, htail, hopens, hunwraps⟩ := h.frames
  refine ⟨sealed :: frames, wrapped :: plaintexts, tail, ?_, ?_, htail, ?_, ?_⟩
  · rw [List.flatMap_cons, List.append_assoc]
  · simpa using ⟨hmax, hsmall⟩
  · simp [openRecords, hopen, hopens]
  · simp [unwrapRecords, hunwrap, hunwraps]

/-- A turn of a loop that was left. -/
theorem step_exited {s : Outbound} (h : s.exit ≠ none) (e : TunRead) :
    s.step C st config e = s := by
  rw [Outbound.step, Outbound.turn.eq_def, if_pos (Option.isSome_iff_ne_none.2 h)]

/-- A turn of a loop that is still going. -/
theorem step_running {s : Outbound} (h : s.exit = none) (e : TunRead) :
    s.step C st config e = match e with
      | .stopped => { s with exit := some .stop }
      | .notReadable => s
      | .eof => { s with exit := some .eof }
      | .interrupted => s
      | .failed => { s with exit := some .tunFailed }
      | .packet p draw io => (s.packet C st config p.bytes draw io).1 := by
  rw [Outbound.step, Outbound.turn.eq_def, h, if_neg (by simp)]
  cases e <;> rfl

variable (C st config) in
/-- **What a turn can do**: nothing, leave the loop, or seal a record at the
current sequence number, behind which the next one stands unless the write failed. -/
theorem turn_cases (s : Outbound) (e : TunRead) :
    (s.turn C st config e).2 = none ∧
        ((s.turn C st config e).1.exit = s.exit ∧ (s.turn C st config e).1.seqOut = s.seqOut ∨
          s.exit = none ∧ (s.turn C st config e).1.exit ≠ none) ∨
      s.exit = none ∧ ∃ wrapped, (s.turn C st config e).2 = some ⟨s.seqOut, wrapped⟩ ∧
        ((s.turn C st config e).1.exit = none ∧
            (s.turn C st config e).1.seqOut = s.seqOut + 1 ∨
          (s.turn C st config e).1.exit ≠ none) := by
  by_cases hexit : s.exit = none
  · rw [Outbound.turn.eq_def, if_neg (by simp [hexit])]
    cases e with
    | packet p draw io =>
      simp only [Outbound.packet]
      split
      · exact Or.inl ⟨rfl, Or.inl ⟨rfl, rfl⟩⟩
      · split
        · exact Or.inl ⟨rfl, Or.inr ⟨hexit, by simp⟩⟩
        · split
          · split
            · exact Or.inr ⟨hexit, _, rfl, Or.inl ⟨hexit, rfl⟩⟩
            · exact Or.inr ⟨hexit, _, rfl, Or.inr (by simp)⟩
          · exact Or.inl ⟨rfl, Or.inl ⟨rfl, by simp⟩⟩
    | notReadable => exact Or.inl ⟨rfl, Or.inl ⟨rfl, rfl⟩⟩
    | interrupted => exact Or.inl ⟨rfl, Or.inl ⟨rfl, rfl⟩⟩
    | _ => exact Or.inl ⟨rfl, Or.inr ⟨hexit, by simp⟩⟩
  · rw [Outbound.turn.eq_def, if_pos (Option.isSome_iff_ne_none.2 hexit)]
    exact Or.inl ⟨rfl, Or.inl ⟨rfl, rfl⟩⟩

/-- A loop that was left stays left. -/
theorem run_exited {s : Outbound} (h : s.exit ≠ none) (reads : List TunRead) :
    Machine.run (Outbound.step C st config) s reads = s := by
  induction reads with
  | nil => rfl
  | cons e reads ih => rw [Machine.run_cons, step_exited h, ih]

/-- **What a run puts on the socket** is read by the peer as the packets let
through, the first behind what was pending. -/
theorem run_relays (hC : C.Lawful) {session : ServerSession UInt8} (hpeer : PeeredWith st session)
    (reads : List TunRead) {s : Outbound} {r : Option VisionReader} (hexit : s.exit = none)
    (htracks : Tracks s.vlessOut r) :
    ∃ bytes, (Machine.run (Outbound.step C st config) s reads).wire = s.wire ++ bytes ∧
      Relays C session s.seqOut r (behind (pending s.vlessOut) (admitted config reads)) bytes := by
  induction reads generalizing s r with
  | nil => exact ⟨[], by simp, .nil ..⟩
  | cons e reads ih =>
    rw [Machine.run_cons, step_running hexit]
    cases e with
    | stopped => exact ⟨[], by rw [run_exited (by simp)]; simp, .nil ..⟩
    | notReadable => exact ih hexit htracks
    | eof => exact ⟨[], by rw [run_exited (by simp)]; simp, .nil ..⟩
    | interrupted => exact ih hexit htracks
    | failed => exact ⟨[], by rw [run_exited (by simp)]; simp, .nil ..⟩
    | packet p draw io =>
      dsimp only
      rcases hblack : config.blackholes p.bytes with _ | _
      · obtain ⟨wrapped, sealed, o', r', hopen, hmax, hunwrap, hpending, htracks', hok, hfail⟩ :=
          packet_admitted hC hpeer htracks p.fits hblack draw
        cases io with
        | none =>
          obtain ⟨bytes, hwire, hrelays⟩ := ih (s := { s with
            seqOut := s.seqOut + 1
            vlessOut := o'
            stats := (s.stats.read p.bytes).wrote sealed
            wire := s.wire ++ frameBytes sealed }) hexit htracks'
          rw [hpending, behind_nil] at hrelays
          refine ⟨frameBytes sealed ++ bytes, ?_, ?_⟩
          · rw [hok, hwire, List.append_assoc]
          · rw [admitted_packet, hblack]
            exact .cons hopen hmax hunwrap hrelays
        | some n =>
          refine ⟨_, by rw [hfail, run_exited (by simp)], ?_⟩
          rw [admitted_packet, hblack]
          exact .cut session s.seqOut r hmax n
      · have hadmitted : admitted config (.packet p draw io :: reads) = admitted config reads := by
          simp [admitted_packet, hblack]
        rw [packet_blackholed hblack, hadmitted]
        exact ih hexit htracks

/-- Without VLESS a plaintext is its own content. -/
theorem unwrapRecords_none (plaintexts : List Bytes) :
    unwrapRecords none plaintexts = some plaintexts := by
  induction plaintexts with
  | nil => rfl
  | cons p ps ih => simp [unwrapRecords, unwrapRecord, ih]

/-- The request in front of the first packet is cut off. -/
theorem splitRequest_behind (t : Target) {p : VlessParams}
    (hflow : ∀ f, p.flow = some f → (utf8 f).length ≤ 255) (haddr : p.address.Fits)
    (packets : List Bytes) :
    splitRequest t (behind (requestHeader p.uuid p.flow p.command p.address p.port) packets)
      = some ⟨if packets = [] then none else some p.request, packets⟩ := by
  cases packets with
  | nil => rfl
  | cons x xs =>
    have hparse := parseRequestHeader_requestHeader t p.uuid p.command p.port [] hflow haddr
    rw [List.append_nil] at hparse
    simp only [behind, splitRequest,
      requestHeaderLen_requestHeader t p.uuid p.command p.port x hflow haddr, List.take_left' rfl,
      List.drop_left' rfl, hparse]
    rfl

/-- The peer's reading of the bytes of a whole run. -/
theorem receive_of_relays (t : Target) {session : ServerSession UInt8} (hconfig : config.Fits)
    {seq : UInt64} {packets : List Bytes} {bytes : Bytes}
    (h : Relays C session seq (config.vless.map fun p => .new p.uuid)
      (behind (pending config.vlessOut) packets) bytes) :
    receive C t session config.vless seq bytes
      = some ⟨if packets = [] then none else config.vless.map VlessParams.request, packets⟩ := by
  obtain ⟨frames, plaintexts, tail, rfl, hsmall, htail, hopens, hunwraps⟩ := h.frames
  rw [receive, readFrames_flatMap hsmall, htail, List.append_nil, hopens]
  rw [pending_start] at hunwraps
  cases hv : config.vless with
  | none =>
    rw [hv] at hunwraps
    simp only [Option.map_none, unwrapRecords_none, behind_nil, Option.some.injEq] at hunwraps
    simp [hunwraps]
  | some p =>
    rw [hv] at hunwraps
    obtain ⟨hflow, haddr⟩ := hconfig p hv
    simp only [Option.map_some] at hunwraps
    simp [hunwraps, splitRequest_behind t hflow haddr]

/-! ## The leak shield -/

/-- Equal but for the counters. -/
structure SameStream (s s' : Outbound) : Prop where
  seqOut : s.seqOut = s'.seqOut
  vlessOut : s.vlessOut = s'.vlessOut
  wire : s.wire = s'.wire
  exit : s.exit = s'.exit

/-- The counters have no say in what a turn does. -/
theorem SameStream.step {s s' : Outbound} (h : SameStream s s') (e : TunRead) :
    SameStream (s.step C st config e) (s'.step C st config e) := by
  obtain ⟨seqOut, vlessOut, stats, wire, exit⟩ := s
  obtain ⟨seqOut', vlessOut', stats', wire', exit'⟩ := s'
  obtain ⟨rfl, rfl, rfl, rfl⟩ := h
  rcases exit with _ | why
  · rw [step_running rfl, step_running rfl]
    cases e with
    | packet p draw io =>
      simp only [Outbound.packet]
      split
      · exact ⟨rfl, rfl, rfl, rfl⟩
      · split
        · exact ⟨rfl, rfl, rfl, rfl⟩
        · split
          · split <;> exact ⟨rfl, rfl, rfl, rfl⟩
          · exact ⟨rfl, rfl, rfl, rfl⟩
    | _ => exact ⟨rfl, rfl, rfl, rfl⟩
  · rw [step_exited (by simp), step_exited (by simp)]
    exact ⟨rfl, rfl, rfl, rfl⟩

/-- A blocked packet leaves the stream as it is. -/
theorem sameStream_step_ipv6 (hblock : config.blockIpv6 = true) {e : TunRead}
    (he : e.isIpv6 = true) (s : Outbound) : SameStream (s.step C st config e) s := by
  by_cases hexit : s.exit = none
  · cases e with
    | packet p draw io =>
      have hblack : config.blackholes p.bytes = true := by
        rw [PumpConfig.blackholes, hblock]
        exact he
      rw [step_running hexit]
      dsimp only
      rw [packet_blackholed hblack]
      exact ⟨rfl, rfl, rfl, rfl⟩
    | _ => cases he
  · rw [step_exited hexit]
    exact ⟨rfl, rfl, rfl, rfl⟩

/-- **The leak shield.**  A run does to the stream what it does without the IPv6 packets. -/
theorem run_without_ipv6 (hblock : config.blockIpv6 = true) (reads : List TunRead)
    {s s' : Outbound} (h : SameStream s s') :
    SameStream (Machine.run (Outbound.step C st config) s reads)
      (Machine.run (Outbound.step C st config) s' (reads.filter fun e => !e.isIpv6)) := by
  induction reads generalizing s s' with
  | nil => exact h
  | cons e reads ih =>
    rcases he : e.isIpv6 with _ | _
    · rw [List.filter_cons_of_pos (by simp [he]), Machine.run_cons, Machine.run_cons]
      exact ih (h.step e)
    · rw [List.filter_cons_of_neg (by simp [he]), Machine.run_cons]
      have hsame : SameStream (s.step C st config e) s := sameStream_step_ipv6 hblock he s
      exact ih ⟨hsame.seqOut.trans h.seqOut, hsame.vlessOut.trans h.vlessOut,
        hsame.wire.trans h.wire, hsame.exit.trans h.exit⟩

/-- No packet that arrives is a blocked one. -/
theorem admitted_not_ipv6 (hblock : config.blockIpv6 = true) (reads : List TunRead) :
    ∀ p ∈ admitted config reads, ipVersion p ≠ 6 := by
  induction reads with
  | nil => simp [admitted]
  | cons e reads ih =>
    cases e with
    | packet p draw io =>
      rcases hblack : config.blackholes p.bytes with _ | _
      · have hv : ipVersion p.bytes ≠ 6 := by simpa [PumpConfig.blackholes, hblock] using hblack
        cases io with
        | none => simpa [admitted_packet, hblack] using ⟨hv, ih⟩
        | some n => simp [admitted_packet, hblack]
      · simpa [admitted_packet, hblack] using ih
    | notReadable => simpa [admitted] using ih
    | interrupted => simpa [admitted] using ih
    | _ => simp [admitted]

/-! ## The counters -/

/-- The packets read that no other counter accounts for. -/
def PumpStats.unaccounted (s : PumpStats) : UInt64 :=
  s.packetsIn - (s.packetsOut + s.droppedPackets + s.sealErrors)

/-- One when the loop ended on a failed write. -/
def Outbound.failedWrites (s : Outbound) : UInt64 :=
  if s.exit = some .socketFailed then 1 else 0

variable (C st config) in
/-- A turn accounts for the packet it reads, whatever the seal does. -/
theorem unaccounted_step {s : Outbound} {r : Option VisionReader} (hexit : s.exit = none)
    (htracks : Tracks s.vlessOut r) (e : TunRead) :
    (s.step C st config e).stats.unaccounted
        = s.stats.unaccounted + (s.step C st config e).failedWrites ∧
      ∃ r', Tracks (s.step C st config e).vlessOut r' := by
  rw [step_running hexit]
  cases e with
  | packet p draw io =>
    obtain ⟨wrapped, o', r', hwrap, -, -, -, htracks'⟩ := wrap_unwrap htracks draw p.fits
    simp only [Outbound.packet]
    split
    · refine ⟨?_, r, htracks⟩
      simp only [PumpStats.unaccounted, Outbound.failedWrites, hexit]
      grind
    · rw [hwrap]
      dsimp only
      split
      · split
        · refine ⟨?_, r', htracks'⟩
          simp only [PumpStats.unaccounted, Outbound.failedWrites, hexit]
          grind
        · refine ⟨?_, r', htracks'⟩
          simp only [PumpStats.unaccounted, Outbound.failedWrites]
          grind
      · refine ⟨?_, r', htracks'⟩
        simp only [PumpStats.unaccounted, Outbound.failedWrites, hexit]
        grind
  | _ => exact ⟨by simp [Outbound.failedWrites, hexit], r, htracks⟩

variable (C st config) in
/-- **The counters balance** over a run, whatever the seal does. -/
theorem unaccounted_run (reads : List TunRead) {s : Outbound} {r : Option VisionReader}
    (hexit : s.exit = none) (htracks : Tracks s.vlessOut r) :
    (Machine.run (Outbound.step C st config) s reads).stats.unaccounted
      = s.stats.unaccounted + (Machine.run (Outbound.step C st config) s reads).failedWrites := by
  induction reads generalizing s r with
  | nil => simp [Outbound.failedWrites, hexit]
  | cons e reads ih =>
    obtain ⟨hstep, r', htracks'⟩ := unaccounted_step C st config hexit htracks e
    rw [Machine.run_cons]
    by_cases hnext : (s.step C st config e).exit = none
    · rw [ih hnext htracks', hstep, Outbound.failedWrites, if_neg (by simp [hnext])]
      simp
    · rw [run_exited hnext]
      exact hstep

/-! ## The pump delivers -/

/-- **The outbound pump delivers every admitted packet exactly once, in order.**
For a completed handshake and any start sequence number, a peer with the same
keys reads the request once and then the packets that were let through up to the
first write the socket fails, one per record; a blocked IPv6 packet does not
change a byte on the socket; the counters account for every packet read, but for
the one whose write failed. -/
theorem outbound_delivers (hC : C.Lawful) {session : ServerSession UInt8}
    (hpeer : PeeredWith st session) (hconfig : config.Fits) (t : Target) (stats : PumpStats)
    (nextOutSeq : UInt64) (reads : List TunRead) :
    let s := Machine.run (Outbound.step C st config) (.start config stats nextOutSeq) reads
    let packets := admitted config reads
    receive C t session config.vless nextOutSeq s.wire
        = some ⟨if packets = [] then none else config.vless.map VlessParams.request, packets⟩ ∧
      (config.blockIpv6 = true →
        s.wire = (Machine.run (Outbound.step C st config) (.start config stats nextOutSeq)
          (reads.filter fun e => !e.isIpv6)).wire ∧ ∀ p ∈ packets, ipVersion p ≠ 6) ∧
      s.stats.packetsIn - stats.packetsIn
        = (s.stats.packetsOut - stats.packetsOut) + (s.stats.droppedPackets - stats.droppedPackets)
          + (s.stats.sealErrors - stats.sealErrors)
          + if s.exit = some .socketFailed then 1 else 0 := by
  intro s packets
  have htracks : Tracks (Outbound.start config stats nextOutSeq).vlessOut
      (config.vless.map fun p => .new p.uuid) := tracks_start hconfig
  refine ⟨?_, fun hblock => ⟨?_, admitted_not_ipv6 hblock reads⟩, ?_⟩
  · obtain ⟨bytes, hwire, hrelays⟩ := run_relays hC hpeer reads rfl htracks
    have hs : s.wire = bytes := hwire
    rw [hs]
    exact receive_of_relays t hconfig hrelays
  · exact (run_without_ipv6 hblock reads ⟨rfl, rfl, rfl, rfl⟩).wire
  · have hbalance := unaccounted_run C st config reads rfl htracks
    have hstart : (Outbound.start config stats nextOutSeq).stats = stats := rfl
    rw [hstart] at hbalance
    simp only [PumpStats.unaccounted, Outbound.failedWrites] at hbalance
    grind

/-- A state whose keys and session id are all zero. -/
def sampleState : HandshakeState UInt8 UInt8 where
  ephemeral := 0
  ephemeralPublic := Crypto.zeros 32
  authKey := Crypto.zeros 32
  wireHello := []
  sealedSessionId := Crypto.zeros 32
  recordKeys := some ⟨Crypto.zeros 32, Crypto.zeros 32⟩
  completed := true

/-- The server session that goes with it. -/
def sampleSession : ServerSession UInt8 :=
  ⟨"example.com", Crypto.zeros 32, Crypto.zeros 32, Crypto.zeros 32⟩

/-- VLESS parameters as the connect step fills them in. -/
def sampleVless : VlessParams where
  uuid := List.Vector.replicate 16 7
  flow := some "xtls-rprx-vision"
  command := CMD_TCP
  address := .domain "example.com"
  port := 443

/-- A packet of an IP version. -/
def samplePacket (version : UInt8) : Packet := ⟨[version <<< 4, 0, 0, 20], by simp, by simp [READ_BUF]⟩

theorem sampleState_peered : PeeredWith sampleState sampleSession := ⟨rfl, rfl⟩

theorem outbound_delivers_toy :
    receive Crypto.toy .aarch64 sampleSession (some sampleVless) 5
      (Machine.run (Outbound.step Crypto.toy sampleState ⟨true, some sampleVless⟩)
        (.start ⟨true, some sampleVless⟩ .zero 5)
        [.packet (samplePacket 4) (fun _ => 0) none, .packet (samplePacket 6) (fun _ => 0) none,
          .notReadable, .packet (samplePacket 4) (fun _ => 3) none,
          .packet (samplePacket 4) (fun _ => 0) (some 3)]).wire
      = some ⟨some sampleVless.request, [(samplePacket 4).bytes, (samplePacket 4).bytes]⟩ := by
  have hfits : PumpConfig.Fits ⟨true, some sampleVless⟩ := by
    rintro p ⟨⟩
    exact ⟨by rintro f ⟨⟩; decide, by show (utf8 "example.com").length ≤ 255; decide⟩
  exact (outbound_delivers Crypto.toy_lawful sampleState_peered hfits .aarch64 .zero 5 _).1

end ShadeVpn.Pump
