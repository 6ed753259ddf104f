import ShadeVpn.Pump.MirrorServer

/-!
# The tunnel, from the TUN and back to it

The two halves of a client's pump and the record loop of the honest server with the
two directions of the socket between them.  Each party takes one turn at a time, in
any order; a party that finds no whole frame on the socket waits, and any of them may
leave at any time.

The tunnel refines the relay of `Lib.Relay`: packets go up, come down again and are
handed to the TUN.

* `step_refines` — one step of the tunnel is at most one hop of the relay.
* `tunnel_relays` — in any order of turns the TUN gets back what it admitted, in
  order and unchanged, and the server has observed the request.
-/

namespace ShadeVpn.Pump

open Octets Checked Transduce Handshake Transport Vless Relay

/-! ## The tunnel -/

/-- The halves of the pump, the server, and how much of what was written to the socket
its readers have read: the server of `outbound.wire`, the inbound half of `server.wire`. -/
structure Tunnel where
  outbound : Outbound
  heard : ℕ
  server : RecordLoop
  told : ℕ
  inbound : Inbound

/-- What ends the inbound loop other than the TUN. -/
inductive InboundEnd where
  | stopped
  | eof
  | failed
  deriving DecidableEq

/-- The turn of the inbound loop that meets it. -/
def InboundEnd.read : InboundEnd → SocketRead
  | .stopped => .stopped
  | .eof => .eof
  | .failed => .failed

/-- A turn of one of the parties: of the outbound half, of the server, of the inbound
half.  The server may also find the socket closed or failed. -/
inductive Turn where
  | tun (e : TunRead)
  | serve (draw : ℕ → ℕ) (io : Option ℕ)
  | serverEnds (e : Option FrameError)
  | deliver (tunOk : Bool)
  | inboundEnds (e : InboundEnd)

variable {κ : Type} (C : Crypto κ UInt8) (st : HandshakeState κ UInt8)
  (session : ServerSession UInt8) (config : PumpConfig) (t : Target)
  (expectVlessUuid : Option Uuid)

/-- The tunnel as the pump starts, with the server's counters where the pump's are. -/
def Tunnel.start (stats : PumpStats) (nextOutSeq nextInSeq : UInt64) : Tunnel where
  outbound := .start config stats nextOutSeq
  heard := 0
  server := .start expectVlessUuid nextOutSeq nextInSeq
  told := 0
  inbound := .start config stats nextInSeq

/-- A turn of the server: it reads a frame if a whole one is on the socket. -/
def Tunnel.serve (T : Tunnel) (draw : ℕ → ℕ) (io : Option ℕ) : Tunnel :=
  match readFrame (T.outbound.wire.drop T.heard) with
  | .ok (some (frame, _)) =>
    { T with
      heard := T.heard + (frameBytes frame).length
      server := T.server.frame C session t expectVlessUuid frame draw io }
  | .error (.tooLarge len) =>
    { T with server :=
      { T.server with ended := some (.error (.err (.recordLoop (.tooLarge len)))) } }
  | _ => T

/-- A turn of the inbound half: it reads a frame if a whole one is on the socket. -/
def Tunnel.deliver (T : Tunnel) (tunOk : Bool) : Tunnel :=
  match readFrame (T.server.wire.drop T.told) with
  | .ok (some (frame, _)) =>
    { T with
      told := T.told + (frameBytes frame).length
      inbound := (T.inbound.turn C st (.frame frame tunOk)).1 }
  | .error (.tooLarge _) => { T with inbound := (T.inbound.turn C st .failed).1 }
  | _ => T

/-- How the record loop ends on a read that finds no frame. -/
def readEnd : Option FrameError → Except (Stop LoopError) Unit
  | none => .ok ()
  | some e => .error (.err (.recordLoop e))

/-- One turn.  A party that has left takes none. -/
def Tunnel.step (T : Tunnel) : Turn → Tunnel
  | .tun e => { T with outbound := T.outbound.step C st config e }
  | .serve draw io =>
    if T.server.ended.isSome then T else T.serve C session t expectVlessUuid draw io
  | .serverEnds e =>
    if T.server.ended.isSome then T
    else { T with server := { T.server with ended := some (readEnd e) } }
  | .deliver tunOk => if T.inbound.exit.isSome then T else T.deliver C st tunOk
  | .inboundEnds e => { T with inbound := (T.inbound.turn C st e.read).1 }

/-- The read of the TUN in a turn. -/
def Turn.tunRead? : Turn → Option TunRead
  | .tun e => some e
  | _ => none

/-- The reads of the TUN in a run. -/
def tunReads (turns : List Turn) : List TunRead := turns.filterMap Turn.tunRead?

/-! ## The two lines -/

/-- What is left of a frame its sender could not finish: a reader waits for more. -/
def Unfinished (bytes : Bytes) : Prop :=
  readFrame bytes = .ok none ∨ readFrame bytes = .error .closedMidFrame

theorem unfinished_nil : Unfinished [] := Or.inl rfl

theorem unfinished_cut {p : Bytes} (h : p.length ≤ MAX_FRAME_LEN) (n : ℕ) :
    Unfinished ((frameBytes p).dropLast.take n) := by
  have hlen := length_frameBytes p
  have hcut : min n ((frameBytes p).length - 1) < (frameBytes p).length := by omega
  have hread := readFrame_take_frame h hcut
  rw [List.dropLast_eq_take, List.take_take, Unfinished, hread]
  split
  · exact Or.inl rfl
  · exact Or.inr rfl

/-- What the outbound half knows of the server behind its last record. -/
def Outbound.Ready (config : PumpConfig) (s : Outbound) (r : Hearing) : Prop :=
  r.seq = s.seqOut ∧ Tracks s.vlessOut r.reader ∧
    pending s.vlessOut = if r.requestAhead then pending config.vlessOut else []

/-- What the server knows of the inbound half behind its last record. -/
def RecordLoop.Ready (s : RecordLoop) (r : Listening) : Prop :=
  r.seq = s.seqOut ∧ Answers s r.vlessIn

/-- The packets on the way up. -/
def Tunnel.Up (T : Tunnel) (packets : List Bytes) : Prop :=
  Channel (Hears C session config) frameBytes Unfinished (T.outbound.exit = none)
    (T.outbound.Ready config) (T.server.ended = none) T.outbound.wire T.heard T.server.hearing
    packets

/-- The packets on the way down. -/
def Tunnel.Down (T : Tunnel) (packets : List Bytes) : Prop :=
  Channel (Told C st) frameBytes Unfinished (T.server.ended = none) T.server.Ready
    (T.inbound.exit = none) T.server.wire T.told T.inbound.listening packets

/-- A server that failed failed on the socket. -/
def RecordLoop.Sound (s : RecordLoop) : Prop :=
  ∀ e, s.ended = some (.error e) → ∃ f, e = .err (.writeRecord f) ∨ e = .err (.recordLoop f)

/-- The server's counters after these packets, if it has not failed. -/
structure RecordLoop.Counts (s : RecordLoop) (config : PumpConfig) (nextOutSeq nextInSeq : UInt64)
    (packets : List Bytes) : Prop where
  seqIn : s.seqIn.toNat = nextOutSeq.toNat + packets.length
  seqOut : s.seqOut.toNat = nextInSeq.toNat + packets.length
  payloadBytes : s.payloadBytes.toNat
    = if config.vless.isSome then (packets.map List.length).sum else 0
  request : s.vlessRequest
    = if packets = [] then none else config.vless.map (·.observed s.payloadBytes)

/-- The tunnel does what the relay does. -/
structure Refines (stats : PumpStats) (nextOutSeq nextInSeq : UInt64) (T : Tunnel)
    (a : Echo Bytes) : Prop where
  up : T.Up C session config a.up
  down : T.Down C st a.down
  got : T.inbound.delivered = a.got
  serves : T.server.Serves config
  counts : (∀ e, T.server.ended ≠ some (.error e)) →
    T.server.Counts config nextOutSeq nextInSeq (a.got ++ a.down)
  server : T.server.Sound
  outbound : T.outbound.exit ≠ some .panicked
  inbound : T.inbound.exit ≠ some .panicked
  openErrors : T.inbound.stats.openErrors = stats.openErrors
  small : ∀ p ∈ a.all, p.length ≤ READ_BUF

/-- What the TUN reads of a run still admit. -/
def Tunnel.admits (T : Tunnel) (config : PumpConfig) (reads : List TunRead) : List Bytes :=
  if T.outbound.exit = none then admitted config reads else []

/-- A turn is at most one hop of the relay, which sends what the turn admits. -/
def Matches (stats : PumpStats) (nextOutSeq nextInSeq : UInt64) (T : Tunnel) (a : Echo Bytes)
    (turn : Turn) : Prop :=
  ∃ hops : List (Hop Bytes), hops.length ≤ 1 ∧
    Refines C st session config stats nextOutSeq nextInSeq
      (T.step C st session config t config.expects turn) (Machine.run Echo.step a hops) ∧
    ∀ turns, T.admits config (tunReads (turn :: turns)) = hops.flatMap Hop.sent
      ++ (T.step C st session config t config.expects turn).admits config (tunReads turns)

/-! ## The outbound half -/

variable {C st session config t}

/-- **A packet on the wire.**  An admitted packet becomes a frame that the server reads
as that packet behind the last one. -/
theorem packet_heard (hC : C.Lawful) (hpeer : PeeredWith st session) {s : Outbound} {r : Hearing}
    (hready : s.Ready config r) (p : Packet) (h : config.blackholes p.bytes = false)
    (draw : ℕ → ℕ) :
    ∃ sealed, ∃ s' : Outbound, ∃ r', Hears C session config r sealed p.bytes r' ∧
      s'.Ready config r' ∧
      (s.packet C st config p.bytes draw none).1
        = { s' with wire := s.wire ++ frameBytes sealed, exit := s.exit } ∧
      ∀ n, ((s.packet C st config p.bytes draw (some n)).1.wire
          = s.wire ++ (frameBytes sealed).dropLast.take n) ∧
        (s.packet C st config p.bytes draw (some n)).1.exit = some .socketFailed := by
  obtain ⟨hseq, htracks, hpending⟩ := hready
  obtain ⟨wrapped, o', r', hwrap, hlen, hunwrap, hdone, htracks'⟩ := wrap_unwrap htracks draw p.fits
  obtain ⟨sealed, hseal, hsealed⟩ := hpeer.seal_ok hC s.seqOut (hlen.trans (by decide))
  have hmax : sealed.length ≤ MAX_FRAME_LEN := by
    rw [hsealed, Crypto.AES_TAG, MAX_FRAME_LEN]
    omega
  have hheard : Hears C session config r sealed p.bytes ⟨s.seqOut + 1, r', false⟩ := by
    refine ⟨hmax, ?_, p.fits, ⟨wrapped, ?_, ?_⟩, by rw [hseq], rfl⟩
    · rintro rfl
      rw [Crypto.AES_TAG] at hsealed
      simp at hsealed
    · rw [hseq]
      exact hpeer.open_of_seal hC hseal
    · rw [hunwrap, hpending]
  refine ⟨sealed, { s with
      seqOut := s.seqOut + 1
      vlessOut := o'
      stats := (s.stats.read p.bytes).wrote sealed },
    _, hheard, ⟨rfl, htracks', ?_⟩, ?_, fun n => ?_⟩
  · rw [if_neg (by simp)]
    exact hdone
  · simp only [Outbound.packet, h, hwrap, hseal, writeFrame_ok hmax]
    rfl
  · simp only [Outbound.packet, h, hwrap, hseal, writeFrame_fail hmax]
    exact ⟨rfl, rfl⟩

section Steps

variable {stats : PumpStats} {nextOutSeq nextInSeq : UInt64} {T : Tunnel} {a : Echo Bytes}

/-- Only the outbound half has moved. -/
theorem Refines.of_up (h : Refines C st session config stats nextOutSeq nextInSeq T a)
    {o : Outbound} {up : List Bytes}
    (hup : ({ T with outbound := o } : Tunnel).Up C session config up)
    (hexit : o.exit ≠ some .panicked) (hsmall : ∀ p ∈ up, p.length ≤ READ_BUF) :
    Refines C st session config stats nextOutSeq nextInSeq { T with outbound := o }
      { a with up } := by
  refine ⟨hup, h.down, h.got, h.serves, h.counts, h.server, hexit, h.inbound, h.openErrors, ?_⟩
  intro p hp
  rcases Echo.mem_all.1 hp with hgot | hdown | hup
  · exact h.small p (Echo.mem_all.2 (Or.inl hgot))
  · exact h.small p (Echo.mem_all.2 (Or.inr (Or.inl hdown)))
  · exact hsmall p hup

/-- **A turn of the outbound half** sends a packet, or none. -/
theorem tun_matches (hC : C.Lawful) (hpeer : PeeredWith st session)
    (h : Refines C st session config stats nextOutSeq nextInSeq T a) (e : TunRead) :
    Matches C st session config t stats nextOutSeq nextInSeq T a (.tun e) := by
  have hsmall : ∀ p ∈ a.up, p.length ≤ READ_BUF :=
    fun p hp => h.small p (Echo.mem_all.2 (Or.inr (Or.inr hp)))
  by_cases hexit : T.outbound.exit = none
  · have hstep : T.outbound.step C st config e = _ := step_running hexit e
    -- the turns that put nothing on the socket: the loop goes on, or it ends
    have hstays (stats' : PumpStats)
        (hstep : T.outbound.step C st config e = { T.outbound with stats := stats' })
        (hadmitted : ∀ reads, admitted config (e :: reads) = admitted config reads) :
        Matches C st session config t stats nextOutSeq nextInSeq T a (.tun e) := by
      refine ⟨[], by simp, ?_, fun turns => ?_⟩
      · simp only [Tunnel.step, hstep]
        exact h.of_up h.up (by simp [hexit]) hsmall
      · simp [Tunnel.admits, Tunnel.step, hstep, hexit, tunReads, Turn.tunRead?, hadmitted]
    have hends (why : Exit) (hwhy : why ≠ .panicked)
        (hstep : T.outbound.step C st config e = { T.outbound with exit := some why })
        (hadmitted : ∀ reads, admitted config (e :: reads) = []) :
        Matches C st session config t stats nextOutSeq nextInSeq T a (.tun e) := by
      refine ⟨[], by simp, ?_, fun turns => ?_⟩
      · simp only [Tunnel.step, hstep]
        exact h.of_up (h.up.mono (by simp) id (by simp)) (by simpa using hwhy) hsmall
      · simp [Tunnel.admits, Tunnel.step, hstep, hexit, tunReads, Turn.tunRead?, hadmitted]
    cases e with
    | stopped => exact hends .stop (by simp) hstep fun _ => rfl
    | eof => exact hends .eof (by simp) hstep fun _ => rfl
    | failed => exact hends .tunFailed (by simp) hstep fun _ => rfl
    | notReadable => exact hstays _ hstep fun _ => rfl
    | interrupted => exact hstays _ hstep fun _ => rfl
    | packet p draw io =>
      rcases hblack : config.blackholes p.bytes with _ | _
      · obtain ⟨far, hready, hsend, hcut⟩ := Channel.send h.up hexit unfinished_nil
        obtain ⟨sealed, s', r', hhears, hready', hok, hfail⟩ :=
          packet_heard hC hpeer hready p hblack draw
        cases io with
        | none =>
          refine ⟨[.send p.bytes], by simp, ?_, fun turns => ?_⟩
          · simp only [Tunnel.step, hstep, hok]
            refine h.of_up (hsend hhears hready') (by simp [hexit]) ?_
            intro q hq
            rcases List.mem_append.1 hq with hq | hq
            · exact hsmall q hq
            · rw [List.mem_singleton.1 hq]
              exact p.fits
          · simp only [Tunnel.admits, Tunnel.step, hstep, hok]
            simp [hexit, tunReads, Turn.tunRead?, admitted_packet, hblack, Hop.sent]
        | some n =>
          refine ⟨[], by simp, ?_, fun turns => ?_⟩
          · simp only [Tunnel.step, hstep]
            refine h.of_up ?_ (by simp [(hfail n).2]) hsmall
            dsimp only [Tunnel.Up]
            rw [(hfail n).1]
            exact hcut (unfinished_cut hhears.fits n) (by simp [(hfail n).2])
          · simp [Tunnel.admits, Tunnel.step, hstep, (hfail n).2, tunReads, Turn.tunRead?,
              admitted_packet, hblack]
      · dsimp only at hstep
        rw [packet_blackholed hblack] at hstep
        exact hstays _ hstep fun reads => by simp [admitted_packet, hblack]
  · have hstep : T.outbound.step C st config e = T.outbound := step_exited hexit e
    refine ⟨[], by simp, ?_, fun turns => ?_⟩
    · simp only [Tunnel.step, hstep]
      exact h
    · simp [Tunnel.admits, Tunnel.step, hstep, hexit]

/-! ## The server -/

/-- The counters of the server have room for the packets of the relay. -/
structure Roomy (nextOutSeq nextInSeq : UInt64) (packets : ℕ) : Prop where
  out : nextOutSeq.toNat + READ_BUF * packets < 2 ^ 64
  inn : nextInSeq.toNat + READ_BUF * packets < 2 ^ 64

theorem sum_length_le {packets : List Bytes} (h : ∀ p ∈ packets, p.length ≤ READ_BUF) :
    (packets.map List.length).sum ≤ READ_BUF * packets.length := by
  induction packets with
  | nil => simp
  | cons p ps ih =>
    have hp := h p List.mem_cons_self
    have hps := ih fun q hq => h q (List.mem_cons_of_mem p hq)
    rw [List.map_cons, List.sum_cons, List.length_cons, Nat.mul_add, Nat.mul_one]
    omega

/-- The counters behind one more packet. -/
theorem RecordLoop.Counts.answered {s : RecordLoop} {packets : List Bytes}
    (h : s.Counts config nextOutSeq nextInSeq packets) {packet : Bytes} (hroom : s.Room packet)
    (vlessReader : Option VisionReader) (vlessWriter : Option VisionWriter) :
    (s.answered config packet vlessReader vlessWriter).Counts config nextOutSeq nextInSeq
      (packets ++ [packet]) := by
  have hone : (1 : UInt64).toNat = 1 := rfl
  have hin := hroom.seqIn
  have hout := hroom.seqOut
  have hpay := hroom.payloadBytes
  have hcounted : (config.counted packet).toNat
      = if config.vless.isSome then packet.length else 0 := by
    rw [PumpConfig.counted]
    split
    · rw [UInt64.toNat_ofNat']
      exact Nat.mod_eq_of_lt (by omega)
    · rfl
  have hseqIn := h.seqIn
  have hseqOut := h.seqOut
  have hpayload := h.payloadBytes
  refine ⟨?_, ?_, ?_, ?_⟩
  · show (s.seqIn + 1).toNat = _
    rw [UInt64.toNat_add, hone, Nat.mod_eq_of_lt (by omega), List.length_append,
      List.length_singleton]
    omega
  · show (s.seqOut + 1).toNat = _
    rw [UInt64.toNat_add, hone, Nat.mod_eq_of_lt (by omega), List.length_append,
      List.length_singleton]
    omega
  · show (s.payloadBytes + config.counted packet).toNat = _
    rw [UInt64.toNat_add, hcounted, Nat.mod_eq_of_lt (by split <;> omega), hpayload]
    split
    · simp
    · rfl
  · rw [if_neg (by simp)]
    rfl

/-- There is room for a packet that is on its way up. -/
theorem RecordLoop.Counts.room {s : RecordLoop} {packets rest : List Bytes} {packet : Bytes}
    (h : s.Counts config nextOutSeq nextInSeq packets)
    (hsmall : ∀ p ∈ packets ++ packet :: rest, p.length ≤ READ_BUF)
    (hroom : Roomy nextOutSeq nextInSeq (packets ++ packet :: rest).length) : s.Room packet := by
  have hread : READ_BUF = 1500 := rfl
  have hsum := sum_length_le fun p hp => hsmall p (List.mem_append_left _ hp)
  have hpacket := hsmall packet (by simp)
  have hout := hroom.out
  have hin := hroom.inn
  rw [List.length_append, List.length_cons] at hout hin
  have hseqIn := h.seqIn
  have hseqOut := h.seqOut
  have hpayload : s.payloadBytes.toNat ≤ READ_BUF * packets.length := by
    rw [h.payloadBytes]
    split
    · exact hsum
    · exact Nat.zero_le _
  rw [hread] at *
  exact ⟨by omega, by omega, by omega⟩

/-- **A turn of the server** turns a packet round, or none. -/
theorem serve_matches (hC : C.Lawful) (hpeer : PeeredWith st session) (hconfig : config.Fits)
    (h : Refines C st session config stats nextOutSeq nextInSeq T a)
    (hroom : Roomy nextOutSeq nextInSeq a.all.length) (draw : ℕ → ℕ) (io : Option ℕ) :
    Matches C st session config t stats nextOutSeq nextInSeq T a (.serve draw io) := by
  have hidle (hstep : T.step C st session config t config.expects (.serve draw io) = T) :
      Matches C st session config t stats nextOutSeq nextInSeq T a (.serve draw io) := by
    refine ⟨[], by simp, ?_, fun turns => ?_⟩
    · rw [hstep]
      exact h
    · rw [hstep]
      rfl
  cases hended : T.server.ended with
  | some e => exact hidle (by simp [Tunnel.step, hended])
  | none =>
    obtain ⟨hunfinished, -⟩ | ⟨frame, rest, packet, up, near, hwire, hup, hhears, hline⟩ :=
      Channel.take h.up hended
    · refine hidle ?_
      rw [Tunnel.step, if_neg (by simp [hended]), Tunnel.serve]
      rcases hunfinished with hread | hread <;> rw [hread]
    · have hread : readFrame (T.outbound.wire.drop T.heard) = .ok (some (frame, rest)) := by
        rw [hwire]
        exact readFrame_frameBytes hhears.fits rest
      have hnotfailed : ∀ e, T.server.ended ≠ some (.error e) := by simp [hended]
      have hcounts := h.counts hnotfailed
      have hall : a.all = a.got ++ a.down ++ packet :: up := by rw [Echo.all, hup]
      have hpacket : T.server.Room packet :=
        hcounts.room (by rw [← hall]; exact h.small) (by rw [← hall]; exact hroom)
      obtain ⟨⟨seq, v⟩, ⟨rfl, hanswers⟩, hsend, hcut⟩ := Channel.send h.down hended unfinished_nil
      obtain ⟨resealed, writer, v', htold, hanswers', hserves', hhearing, hok, hfail⟩ :=
        frame_heard (t := t) hC hpeer hconfig h.serves hanswers hhears hpacket draw
      have hstep : T.step C st session config t config.expects (.serve draw io)
          = { T with
              heard := T.heard + (frameBytes frame).length
              server := T.server.frame C session t config.expects frame draw io } := by
        rw [Tunnel.step, if_neg (by simp [hended]), Tunnel.serve, hread]
      cases io with
      | none =>
        refine ⟨[.turn], by simp, ?_, fun turns => by rw [hstep]; rfl⟩
        have hhop : Machine.run Echo.step a [.turn] = ⟨up, a.down ++ [packet], a.got⟩ := by
          obtain ⟨_, _, _⟩ := a
          cases hup
          rfl
        rw [hstep, hok, hhop]
        refine ⟨?_, ?_, h.got, ⟨hserves'.reader, hserves'.writer, hserves'.request⟩, ?_, ?_,
          h.outbound, h.inbound, h.openErrors, ?_⟩
        · rw [← hhearing] at hline
          exact hline
        · refine hsend htold ⟨rfl, ?_⟩
          cases v' <;> exact hanswers'
        · intro _
          have hcounts' := hcounts.answered hpacket near.reader writer
          rw [List.append_assoc] at hcounts'
          exact ⟨hcounts'.seqIn, hcounts'.seqOut, hcounts'.payloadBytes, hcounts'.request⟩
        · exact h.server
        · intro p hp
          refine h.small p ?_
          rw [hall]
          simpa [Echo.all] using hp
      | some n =>
        refine ⟨[], by simp, ?_, fun turns => by rw [hstep]; rfl⟩
        rw [hstep, hfail n]
        refine ⟨?_, ?_, h.got, ⟨hserves'.reader, hserves'.writer, hserves'.request⟩, ?_, ?_,
          h.outbound, h.inbound, h.openErrors, h.small⟩
        · exact h.up.deaf (by simp) _ _ _ _
        · exact hcut (unfinished_cut htold.fits n) (by simp)
        · intro hno
          exact absurd rfl (hno _)
        · rintro e he
          cases he
          exact ⟨_, Or.inl rfl⟩

variable (t) in
/-- The server may find the socket closed or failed at any time. -/
theorem serverEnds_matches (h : Refines C st session config stats nextOutSeq nextInSeq T a)
    (e : Option FrameError) :
    Matches C st session config t stats nextOutSeq nextInSeq T a (.serverEnds e) := by
  cases hended : T.server.ended with
  | some x =>
    refine ⟨[], by simp, ?_, fun turns => ?_⟩
    · rw [Tunnel.step, if_pos (by simp [hended])]
      exact h
    · rw [Tunnel.step, if_pos (by simp [hended])]
      rfl
  | none =>
    refine ⟨[], by simp, ?_, fun turns => ?_⟩
    · rw [Tunnel.step, if_neg (by simp [hended])]
      refine ⟨h.up.deaf (by simp) _ _ _ _, h.down.mono (by simp) id (by simp), h.got,
        ⟨h.serves.reader, h.serves.writer, h.serves.request⟩, ?_, ?_, h.outbound, h.inbound,
        h.openErrors, h.small⟩
      · intro _
        have hcounts := h.counts (by simp [hended])
        exact ⟨hcounts.seqIn, hcounts.seqOut, hcounts.payloadBytes, hcounts.request⟩
      · rintro x hx
        cases e with
        | none => cases hx
        | some e =>
          cases hx
          exact ⟨e, Or.inr rfl⟩
    · rw [Tunnel.step, if_neg (by simp [hended])]
      rfl

/-! ## The inbound half -/

/-- Only the inbound half has moved. -/
theorem Refines.of_down (h : Refines C st session config stats nextOutSeq nextInSeq T a)
    {told : ℕ} {i : Inbound} {down got : List Bytes} (hall : got ++ down = a.got ++ a.down)
    (hdown : ({ T with told, inbound := i } : Tunnel).Down C st down) (hgot : i.delivered = got)
    (hexit : i.exit ≠ some .panicked) (herrors : i.stats.openErrors = stats.openErrors) :
    Refines C st session config stats nextOutSeq nextInSeq { T with told, inbound := i }
      { a with down, got } := by
  refine ⟨h.up, hdown, hgot, h.serves, ?_, h.server, h.outbound, hexit, herrors, ?_⟩
  · rw [hall]
    exact h.counts
  · rw [Echo.all, hall]
    exact h.small

/-- The inbound half on a frame it reads as a packet: the TUN takes the packet, or the
loop ends. -/
theorem frame_told {s : Inbound} {frame packet : Bytes} {r' : Listening}
    (h : Told C st s.listening frame packet r') :
    (s.frame C st frame true).1 = { s with
        seqIn := r'.seq
        vlessIn := r'.vlessIn
        delivered := s.delivered ++ [packet]
        stats := { s.stats with
          deliveredPackets := s.stats.deliveredPackets + 1
          deliveredBytes := s.stats.deliveredBytes + UInt64.ofNat packet.length } } ∧
      (s.frame C st frame false).1
        = { s with vlessIn := r'.vlessIn, exit := some .tunFailed } := by
  obtain ⟨plaintext, hopen, hunwrap⟩ := h.content
  have hopen' : st.openRecord C s.seqIn frame = .ok plaintext := hopen
  have hunwrap' : unwrap s.vlessIn plaintext = (.ok packet, r'.vlessIn) := hunwrap
  have hseq : r'.seq = s.seqIn + 1 := h.seq
  constructor
  · rw [Inbound.frame, Inbound.frameOf, if_neg h.nonempty, hseq]
    simp only [hopen', hunwrap', if_true]
  · rw [Inbound.frame, Inbound.frameOf, if_neg h.nonempty]
    simp [hopen', hunwrap']

variable (t) in
/-- **A turn of the inbound half** hands over a packet, or none. -/
theorem deliver_matches (h : Refines C st session config stats nextOutSeq nextInSeq T a)
    (tunOk : Bool) :
    Matches C st session config t stats nextOutSeq nextInSeq T a (.deliver tunOk) := by
  have hidle (hstep : T.step C st session config t config.expects (.deliver tunOk) = T) :
      Matches C st session config t stats nextOutSeq nextInSeq T a (.deliver tunOk) := by
    refine ⟨[], by simp, ?_, fun turns => ?_⟩
    · rw [hstep]
      exact h
    · rw [hstep]
      rfl
  cases hexit : T.inbound.exit with
  | some e => exact hidle (by simp [Tunnel.step, hexit])
  | none =>
    obtain ⟨hunfinished, -⟩ | ⟨frame, rest, packet, down, near, hwire, hdown, htold, hline⟩ :=
      Channel.take h.down hexit
    · refine hidle ?_
      rw [Tunnel.step, if_neg (by simp [hexit]), Tunnel.deliver]
      rcases hunfinished with hread | hread <;> rw [hread]
    · have hread : readFrame (T.server.wire.drop T.told) = .ok (some (frame, rest)) := by
        rw [hwire]
        exact readFrame_frameBytes htold.fits rest
      have hstep : T.step C st session config t config.expects (.deliver tunOk)
          = { T with
              told := T.told + (frameBytes frame).length
              inbound := (T.inbound.frame C st frame tunOk).1 } := by
        rw [Tunnel.step, if_neg (by simp [hexit]), Tunnel.deliver, hread]
        simp only [Inbound.turn_frame hexit]
      obtain ⟨htaken, hgone⟩ := frame_told htold
      cases tunOk with
      | true =>
        refine ⟨[.deliver], by simp, ?_, fun turns => by rw [hstep]; rfl⟩
        have hhop : Machine.run Echo.step a [.deliver]
            = { a with down, got := a.got ++ [packet] } := by
          obtain ⟨_, _, _⟩ := a
          cases hdown
          rfl
        rw [hstep, htaken, hhop]
        exact h.of_down (by rw [hdown]; simp) hline (by rw [← h.got]) h.inbound h.openErrors
      | false =>
        refine ⟨[], by simp, ?_, fun turns => by rw [hstep]; rfl⟩
        rw [hstep, hgone]
        exact h.of_down rfl (h.down.deaf (by simp) _ _ _ _) h.got (by simp) h.openErrors

variable (t) in
/-- The inbound half may be stopped, or find the socket closed or failed, at any time. -/
theorem inboundEnds_matches (h : Refines C st session config stats nextOutSeq nextInSeq T a)
    (e : InboundEnd) :
    Matches C st session config t stats nextOutSeq nextInSeq T a (.inboundEnds e) := by
  refine ⟨[], by simp, ?_, fun turns => rfl⟩
  cases hexit : T.inbound.exit with
  | some why =>
    have hturn : (T.inbound.turn C st e.read).1 = T.inbound := by simp [Inbound.turn, Inbound.turnOf, hexit]
    rw [Tunnel.step, hturn]
    exact h
  | none =>
    obtain ⟨why, hwhy, hturn⟩ : ∃ why, why ≠ .panicked ∧
        (T.inbound.turn C st e.read).1 = { T.inbound with exit := some why } := by
      cases e with
      | stopped => exact ⟨.stop, by simp, by simp [Inbound.turn, Inbound.turnOf, hexit, InboundEnd.read]⟩
      | eof => exact ⟨.eof, by simp, by simp [Inbound.turn, Inbound.turnOf, hexit, InboundEnd.read]⟩
      | failed => exact ⟨.socketFailed, by simp, by simp [Inbound.turn, Inbound.turnOf, hexit, InboundEnd.read]⟩
    rw [Tunnel.step, hturn]
    exact h.of_down rfl (h.down.deaf (by simp) _ _ _ _) h.got (by simpa using hwhy) h.openErrors

/-! ## Runs -/

/-- **One turn of the tunnel** is at most one hop of the relay. -/
theorem step_matches (hC : C.Lawful) (hpeer : PeeredWith st session) (hconfig : config.Fits)
    (h : Refines C st session config stats nextOutSeq nextInSeq T a)
    (hroom : Roomy nextOutSeq nextInSeq a.all.length) (turn : Turn) :
    Matches C st session config t stats nextOutSeq nextInSeq T a turn := by
  cases turn with
  | tun e => exact tun_matches hC hpeer h e
  | serve draw io => exact serve_matches hC hpeer hconfig h hroom draw io
  | serverEnds e => exact serverEnds_matches t h e
  | deliver tunOk => exact deliver_matches t h tunOk
  | inboundEnds e => exact inboundEnds_matches t h e

theorem length_sent_le (hops : List (Hop Bytes)) :
    (hops.flatMap Hop.sent).length ≤ hops.length := by
  induction hops with
  | nil => simp
  | cons h hops ih =>
    rw [List.flatMap_cons, List.length_append, List.length_cons]
    have hone : h.sent.length ≤ 1 := by cases h <;> simp [Hop.sent]
    omega

/-- **A run of the tunnel** is a run of the relay that sends what the run admits. -/
theorem run_refines (hC : C.Lawful) (hpeer : PeeredWith st session) (hconfig : config.Fits)
    (turns : List Turn) {T : Tunnel} {a : Echo Bytes}
    (h : Refines C st session config stats nextOutSeq nextInSeq T a)
    (hroom : Roomy nextOutSeq nextInSeq (a.all.length + turns.length)) :
    ∃ hops : List (Hop Bytes),
      Refines C st session config stats nextOutSeq nextInSeq
        (Machine.run (Tunnel.step C st session config t config.expects) T turns)
        (Machine.run Echo.step a hops) ∧
      hops.flatMap Hop.sent = T.admits config (tunReads turns) := by
  induction turns generalizing T a with
  | nil =>
    refine ⟨[], h, ?_⟩
    simp [Tunnel.admits, tunReads, admitted]
  | cons turn turns ih =>
    have hread : READ_BUF = 1500 := rfl
    have hout := hroom.out
    have hin := hroom.inn
    rw [List.length_cons] at hout hin
    have hnow : Roomy nextOutSeq nextInSeq a.all.length := by
      rw [hread] at hout hin
      constructor <;> rw [hread] <;> omega
    obtain ⟨hops, hlen, hstep, hadmits⟩ := step_matches (t := t) hC hpeer hconfig h hnow turn
    have hsent := length_sent_le hops
    have hnext : Roomy nextOutSeq nextInSeq
        ((Machine.run Echo.step a hops).all.length + turns.length) := by
      rw [Echo.conserved, List.length_append]
      rw [hread] at hout hin
      constructor <;> rw [hread] <;> omega
    obtain ⟨hops', hrun, hrest⟩ := ih hstep hnext
    refine ⟨hops ++ hops', ?_, ?_⟩
    · rw [Machine.run_append]
      exact hrun
    · rw [List.flatMap_append, hrest, hadmits]

/-- The tunnel the pump starts is the relay with nothing on the way. -/
theorem refines_start (hconfig : config.Fits) :
    Refines C st session config stats nextOutSeq nextInSeq
      (.start config config.expects stats nextOutSeq nextInSeq) Echo.idle := by
  have hpending : pending config.vlessOut
      = if (config.vless.map fun p => VisionReader.new p.uuid).isSome then pending config.vlessOut
        else [] := by
    cases hv : config.vless with
    | none => rw [pending_start, hv]; rfl
    | some p => rfl
  have hmap : config.expects.map VisionReader.new = config.vless.map fun p => .new p.uuid := by
    rw [PumpConfig.expects, Option.map_map]
    rfl
  have hexpects : config.expects.isSome = config.vless.isSome := by simp [PumpConfig.expects]
  refine ⟨Channel.empty unfinished_nil ⟨rfl, ?_, ?_⟩, Channel.empty unfinished_nil ⟨rfl, ?_⟩, rfl,
    ⟨by simp [Tunnel.start, RecordLoop.start, hexpects],
      by simp [Tunnel.start, RecordLoop.start, hexpects], ?_⟩,
    fun _ => ⟨rfl, rfl, ?_, rfl⟩, ?_, by simp [Tunnel.start, Outbound.start],
    by simp [Tunnel.start, Inbound.start], rfl, by simp [Echo.all, Echo.idle]⟩
  · simp only [Tunnel.start, RecordLoop.hearing, RecordLoop.start, hmap]
    exact tracks_start hconfig
  · simp only [Tunnel.start, RecordLoop.hearing, RecordLoop.start, hmap, Option.isNone_none,
      Bool.and_true]
    exact hpending
  · simp only [Tunnel.start, Inbound.listening, Inbound.start]
    cases hv : config.vless with
    | none => simp [Answers, RecordLoop.start, PumpConfig.expects, hv]
    | some p =>
      exact ⟨.new p.uuid, by simp [RecordLoop.start, PumpConfig.expects, hv],
        InStep.start p.uuid, rfl⟩
  · rintro v ⟨⟩
  · simp [Tunnel.start, RecordLoop.start, Echo.idle]
  · rintro e ⟨⟩

end Steps

/-- Everybody is still there and nobody has a frame to read. -/
structure Tunnel.Quiet (T : Tunnel) : Prop where
  server : T.server.ended = none
  inbound : T.inbound.exit = none
  heard : Unfinished (T.outbound.wire.drop T.heard)
  told : Unfinished (T.server.wire.drop T.told)

theorem Unfinished.not_frame {frame rest bytes : Bytes} (h : Unfinished bytes)
    (hframe : frame.length ≤ MAX_FRAME_LEN) : bytes ≠ frameBytes frame ++ rest := by
  rintro rfl
  have hread := readFrame_frameBytes hframe rest
  rcases h with h | h <;> rw [hread] at h <;> cases h

/-- **The tunnel, from the TUN and back to it.**  The pump of a completed client starts
against the honest server in the mode of its configuration, and the outbound half, the
server and the inbound half take their turns in any order.  What the TUN has got back
is the front of what the server has answered, and that is the front of what the pump
admitted; when nothing is left to read, all three are the same.  The server fails on
the socket only, its counters count what it has answered, and it has observed the
request the client made; no half of the pump panics and no record fails to open. -/
theorem tunnel_relays (hC : C.Lawful) (hpeer : PeeredWith st session) (hconfig : config.Fits)
    (t : Target) (stats : PumpStats) (nextOutSeq nextInSeq : UInt64) (turns : List Turn)
    (hroom : Roomy nextOutSeq nextInSeq turns.length) :
    let T := Machine.run (Tunnel.step C st session config t config.expects)
      (.start config config.expects stats nextOutSeq nextInSeq) turns
    let packets := admitted config (tunReads turns)
    ∃ answered, T.inbound.delivered <+: answered ∧ answered <+: packets ∧
      (T.Quiet → T.inbound.delivered = packets ∧ answered = packets) ∧
      ((∀ e, T.server.ended ≠ some (.error e)) →
        T.server.Counts config nextOutSeq nextInSeq answered) ∧
      T.server.Sound ∧ T.outbound.exit ≠ some .panicked ∧ T.inbound.exit ≠ some .panicked ∧
      T.inbound.stats.openErrors = stats.openErrors := by
  intro T packets
  have hstart : Refines C st session config stats nextOutSeq nextInSeq
      (.start config config.expects stats nextOutSeq nextInSeq) Echo.idle := refines_start hconfig
  obtain ⟨hops, h, hsent⟩ := run_refines (t := t) hC hpeer hconfig turns hstart
    (by simpa [Echo.all, Echo.idle] using hroom)
  have hall : (Machine.run Echo.step Echo.idle hops).all = packets := by
    rw [Echo.conserved, hsent]
    rfl
  have hparts : (Machine.run Echo.step Echo.idle hops).got
      ++ (Machine.run Echo.step Echo.idle hops).down
      ++ (Machine.run Echo.step Echo.idle hops).up = packets := hall
  refine ⟨_, ?_, ⟨_, hparts⟩, fun hquiet => ?_, h.counts, h.server, h.outbound, h.inbound,
    h.openErrors⟩
  · rw [h.got]
    exact List.prefix_append _ _
  · have hup : (Machine.run Echo.step Echo.idle hops).up = [] := by
      rcases Channel.take h.up hquiet.server with
        ⟨-, hup⟩ | ⟨f, rest, m, up, near, hwire, -, hhears, -⟩
      · exact hup
      · exact absurd hwire (hquiet.heard.not_frame hhears.fits)
    have hdown : (Machine.run Echo.step Echo.idle hops).down = [] := by
      rcases Channel.take h.down hquiet.inbound with
        ⟨-, hdown⟩ | ⟨f, rest, m, down, near, hwire, -, htold, -⟩
      · exact hdown
      · exact absurd hwire (hquiet.told.not_frame htold.fits)
    rw [hup, hdown, List.append_nil, List.append_nil] at hparts
    rw [h.got, hdown, List.append_nil]
    exact ⟨hparts, hparts⟩

/-- Three packets, of which the shield drops the second, and everybody's turns. -/
def sampleTurns : List Turn :=
  [.tun (.packet (samplePacket 4) (fun _ => 0) none), .deliver true,
    .tun (.packet (samplePacket 6) (fun _ => 0) none), .serve (fun _ => 2) none,
    .tun (.packet (samplePacket 4) (fun _ => 3) none), .deliver true, .serve (fun _ => 0) none,
    .serve (fun _ => 0) none, .deliver true]

theorem tunnel_relays_toy :
    (Machine.run (Tunnel.step Crypto.toy sampleState sampleSession ⟨true, some sampleVless⟩ .aarch64
          (some sampleVless.uuid))
        (.start ⟨true, some sampleVless⟩ (some sampleVless.uuid) .zero 3 4)
        sampleTurns).inbound.delivered
      = admitted ⟨true, some sampleVless⟩ (tunReads sampleTurns) := by
  have hfits : PumpConfig.Fits ⟨true, some sampleVless⟩ := by
    rintro p ⟨⟩
    exact ⟨by rintro f ⟨⟩; decide, by show (utf8 "example.com").length ≤ 255; decide⟩
  obtain ⟨answered, -, -, hquiet, -⟩ := tunnel_relays Crypto.toy_lawful sampleState_peered hfits
    .aarch64 .zero 3 4 sampleTurns ⟨by decide, by decide⟩
  refine (hquiet ⟨?_, ?_, ?_, ?_⟩).1
  · decide +kernel
  · decide +kernel
  · exact Or.inl (by decide +kernel)
  · exact Or.inl (by decide +kernel)

end ShadeVpn.Pump
