import ShadeVpn.Pump.Tunnel

/-!
# A client with another identity

The tunnel of `Tunnel` again, but the server expects another user than the client's
configuration names.  The handshake says nothing of that: every record opens.  It is
the Vision stream that tells, which starts with the identity.

* `tunnel_refuses` — in any order of turns the server answers nothing, and it ends with
  the identity mismatch once it has read a record.
-/

namespace ShadeVpn.Pump

open Octets Checked Transduce Handshake Transport Vless

variable {κ : Type} {C : Crypto κ UInt8} {st : HandshakeState κ UInt8}
  {session : ServerSession UInt8} {config : PumpConfig} {t : Target} {p : VlessParams} {u : Uuid}
  {stats : PumpStats} {nextOutSeq nextInSeq : UInt64}

/-! ## The first record -/

/-- The plaintext of a first record shows the identity. -/
def Shows (uuid : Uuid) (plaintext : Bytes) : Prop :=
  21 ≤ plaintext.length ∧ plaintext.take 16 = uuid.toList

/-- **The first record** of a pump shows the identity of its configuration. -/
theorem wrap_shows (hp : config.vless = some p) (draw : ℕ → ℕ) {buf out : Bytes}
    {o : Option VlessOut} (h : wrap config.vlessOut draw buf = .ok (out, o)) :
    Shows p.uuid out := by
  have hout : config.vlessOut = some
      ⟨some (requestHeader p.uuid p.flow p.command p.address p.port), .new p.uuid⟩ := by
    simp [PumpConfig.vlessOut, hp, VlessOut.new, buildRequestHeader, Except.toOption]
  obtain ⟨fs, last, -, hpad⟩ := VisionWriter.pad_eq (w := VisionWriter.new p.uuid) rfl draw
    (requestHeader p.uuid p.flow p.command p.address p.port ++ buf) true true
  have hwrapped : out = p.uuid.toList ++ (fs.flatMap Frame.encode ++ last.encode) := by
    simp only [hout, wrap, VlessOut.wrap, hpad, bind, Except.bind, Except.ok.injEq,
      Prod.mk.injEq] at h
    exact h.1.symm
  have hlast : 5 ≤ last.encode.length := by
    simp only [Frame.encode, List.length_cons, List.length_append, length_toBE]
    omega
  subst hwrapped
  constructor
  · simp only [List.length_append, List.Vector.toList_length]
    omega
  · exact List.take_left' (by simp)

/-- A server that expects another identity refuses it. -/
theorem unpad_shows (hu : u ≠ p.uuid) {plaintext : Bytes} (h : Shows p.uuid plaintext) :
    ∃ r, (VisionReader.new u).unpad plaintext = (.error (.err .uuidMismatch), r) := by
  have hne : plaintext.take 16 ≠ u.toList := by
    rw [h.2]
    exact fun heq => hu (List.Vector.toList_injective heq).symm
  refine ⟨{ VisionReader.new u with firstBuffer := false }, ?_⟩
  rw [VisionReader.unpad, if_pos (by rfl), if_neg fun hboth => hne hboth.2, if_pos ⟨by rfl, h.1⟩]

/-! ## The line to the server -/

variable (C session nextOutSeq p) in
/-- A frame the server opens first and reads the other identity in. -/
structure Betrays (frame : Bytes) : Prop where
  fits : frame.length ≤ MAX_FRAME_LEN
  nonempty : frame ≠ []
  plaintext : ∃ plaintext, session.openRecord C nextOutSeq frame = some plaintext ∧
    Shows p.uuid plaintext

/-- What the outbound half has put on the socket: nothing yet, the front of a frame it
could not finish, or first a frame that betrays it. -/
inductive Fronted (C : Crypto κ UInt8) (session : ServerSession UInt8) (config : PumpConfig)
    (p : VlessParams) (nextOutSeq : UInt64) (s : Outbound) : Prop
  | fresh (hwire : s.wire = []) (hseq : s.seqOut = nextOutSeq) (hout : s.vlessOut = config.vlessOut)
  | cut (hexit : s.exit ≠ none) (hwire : Unfinished s.wire)
  | betrayed {frame rest : Bytes} (h : Betrays C session p nextOutSeq frame)
      (hwire : s.wire = frameBytes frame ++ rest)

/-- The outbound half only ever adds to what is on the socket. -/
theorem outbound_grows (s : Outbound) (e : TunRead) :
    ∃ bytes, (s.step C st config e).wire = s.wire ++ bytes := by
  by_cases hexit : s.exit = none
  · rw [step_running hexit]
    cases e with
    | packet q draw io =>
      simp only [Outbound.packet]
      split
      · exact ⟨[], by simp⟩
      · split
        · exact ⟨[], by simp⟩
        · split
          · split <;> exact ⟨_, rfl⟩
          · exact ⟨[], by simp⟩
    | _ => exact ⟨[], by simp⟩
  · exact ⟨[], by rw [step_exited hexit, List.append_nil]⟩

/-- **The first packet** on the socket is a frame that betrays the client, or the front
of one. -/
theorem packet_betrays (hC : C.Lawful) (hpeer : PeeredWith st session) (hp : config.vless = some p)
    (hconfig : config.Fits) {s : Outbound} (hwire : s.wire = []) (hseq : s.seqOut = nextOutSeq)
    (hout : s.vlessOut = config.vlessOut) (q : Packet) (hblack : config.blackholes q.bytes = false)
    (draw : ℕ → ℕ) :
    ∃ sealed, Betrays C session p nextOutSeq sealed ∧
      (s.packet C st config q.bytes draw none).1.wire = frameBytes sealed ∧
      ∀ n, (s.packet C st config q.bytes draw (some n)).1.wire
          = (frameBytes sealed).dropLast.take n ∧
        (s.packet C st config q.bytes draw (some n)).1.exit ≠ none := by
  obtain ⟨wrapped, o', r', hwrap, hlen, -⟩ := wrap_unwrap (tracks_start hconfig) draw q.fits
  obtain ⟨sealed, hseal, hsealed⟩ := hpeer.seal_ok hC nextOutSeq (hlen.trans (by decide))
  rw [Crypto.AES_TAG] at hsealed
  have hmax : sealed.length ≤ MAX_FRAME_LEN := by
    rw [MAX_FRAME_LEN]
    omega
  have hbetrays : Betrays C session p nextOutSeq sealed := by
    refine ⟨hmax, ?_, wrapped, hpeer.open_of_seal hC hseal, wrap_shows hp draw hwrap⟩
    rintro rfl
    simp at hsealed
  rw [← hseq] at hseal
  rw [← hout] at hwrap
  refine ⟨sealed, hbetrays, ?_, fun n => ⟨?_, ?_⟩⟩
  · simp [Outbound.packet, hblack, hwrap, hseal, writeFrame_ok hmax, hwire]
  · simp [Outbound.packet, hblack, hwrap, hseal, writeFrame_fail hmax, hwire]
  · simp [Outbound.packet, hblack, hwrap, hseal, writeFrame_fail hmax]

/-- **A turn of the outbound half** keeps the front of the line. -/
theorem Fronted.step (hC : C.Lawful) (hpeer : PeeredWith st session) (hp : config.vless = some p)
    (hconfig : config.Fits) {s : Outbound} (h : Fronted C session config p nextOutSeq s)
    (e : TunRead) : Fronted C session config p nextOutSeq (s.step C st config e) := by
  by_cases hexit : s.exit = none
  · cases h with
    | cut hleft => exact absurd hexit hleft
    | betrayed hbetrays hwire =>
      obtain ⟨bytes, hgrown⟩ := outbound_grows (C := C) s e
      exact .betrayed hbetrays (by rw [hgrown, hwire, List.append_assoc])
    | fresh hwire hseq hout =>
      rw [step_running hexit]
      cases e with
      | packet q draw io =>
        rcases hblack : config.blackholes q.bytes with _ | _
        · obtain ⟨sealed, hbetrays, hok, hfail⟩ :=
            packet_betrays hC hpeer hp hconfig hwire hseq hout q hblack draw
          cases io with
          | none => exact .betrayed hbetrays (by rw [List.append_nil]; exact hok)
          | some n =>
            refine .cut (hfail n).2 ?_
            rw [(hfail n).1]
            exact unfinished_cut hbetrays.fits n
        · dsimp only
          rw [packet_blackholed hblack]
          exact .fresh hwire hseq hout
      | notReadable => exact .fresh hwire hseq hout
      | interrupted => exact .fresh hwire hseq hout
      | _ => exact .cut (by simp) (by rw [hwire]; exact unfinished_nil)
  · rw [step_exited hexit]
    exact h

/-! ## The server -/

/-- The loop on a frame that betrays the client: it ends before it has answered. -/
theorem frame_betrayed (hu : u ≠ p.uuid) (hfit : nextOutSeq.toNat + 1 < 2 ^ 64) {frame : Bytes}
    (h : Betrays C session p nextOutSeq frame) (draw : ℕ → ℕ) (io : Option ℕ) :
    (RecordLoop.start (some u) nextOutSeq nextInSeq).frame C session t (some u) frame draw io
      = { RecordLoop.start (some u) nextOutSeq nextInSeq with
          ended := some (.error (.err (.visionUnpad .uuidMismatch))) } := by
  obtain ⟨plaintext, hopen, hshows⟩ := h.plaintext
  obtain ⟨r, hunpad⟩ := unpad_shows hu hshows
  have hadd : addU64 nextOutSeq 1 = .ok (nextOutSeq + 1) := addU64_eq_ok hfit
  have hanswer : (RecordLoop.start (some u) nextOutSeq nextInSeq).answer C session t (some u) frame
      draw = .error (.err (.visionUnpad .uuidMismatch)) := by
    simp only [RecordLoop.answer, RecordLoop.answerOf, RecordLoop.start, hopen, okOr, bind,
      Except.bind, hadd, RecordLoop.reply, Option.map_some, hunpad, mapErr]
  rw [RecordLoop.frame_eq, if_neg h.nonempty, hanswer]

/-- Nothing has come of the client's records. -/
structure Refused (C : Crypto κ UInt8) (session : ServerSession UInt8) (config : PumpConfig)
    (p : VlessParams) (u : Uuid) (nextOutSeq nextInSeq : UInt64) (T : Tunnel) : Prop where
  outbound : Fronted C session config p nextOutSeq T.outbound
  server : T.server
    = { RecordLoop.start (some u) nextOutSeq nextInSeq with ended := T.server.ended }
  delivered : T.inbound.delivered = []
  unheard : T.heard = 0 ∨ T.server.ended = some (.error (.err (.visionUnpad .uuidMismatch)))

/-- **A turn of the tunnel** keeps it so. -/
theorem Refused.step (hC : C.Lawful) (hpeer : PeeredWith st session) (hp : config.vless = some p)
    (hconfig : config.Fits) (hu : u ≠ p.uuid) (hfit : nextOutSeq.toNat + 1 < 2 ^ 64) {T : Tunnel}
    (h : Refused C session config p u nextOutSeq nextInSeq T) (turn : Turn) :
    Refused C session config p u nextOutSeq nextInSeq
      (T.step C st session config t (some u) turn) := by
  have hwire : T.server.wire = [] := by
    rw [h.server]
    rfl
  cases turn with
  | tun e => exact ⟨h.outbound.step hC hpeer hp hconfig e, h.server, h.delivered, h.unheard⟩
  | serve draw io =>
    cases hended : T.server.ended with
    | some e =>
      rw [Tunnel.step, if_pos (by simp [hended])]
      exact h
    | none =>
      have hstart : T.server = RecordLoop.start (some u) nextOutSeq nextInSeq := by
        rw [h.server, hended]
        rfl
      have hheard : T.heard = 0 := by simpa [hended] using h.unheard
      rw [Tunnel.step, if_neg (by simp [hended]), Tunnel.serve, hheard, List.drop_zero]
      cases houtbound : h.outbound with
      | fresh hempty =>
        rw [hempty, readFrame, if_pos (by simp)]
        exact h
      | cut _ hunfinished =>
        rcases hunfinished with hread | hread <;> rw [hread] <;> exact h
      | betrayed hbetrays hfront =>
        rw [hfront, readFrame_frameBytes hbetrays.fits]
        dsimp only
        rw [hstart, frame_betrayed hu hfit hbetrays]
        exact ⟨h.outbound, rfl, h.delivered, Or.inr rfl⟩
  | serverEnds e =>
    cases hended : T.server.ended with
    | some x =>
      rw [Tunnel.step, if_pos (by simp [hended])]
      exact h
    | none =>
      rw [Tunnel.step, if_neg (by simp [hended])]
      refine ⟨h.outbound, ?_, h.delivered, Or.inl (by simpa [hended] using h.unheard)⟩
      have hserver := h.server
      rw [hserver]
  | deliver tunOk =>
    have hdeliver : T.deliver C st tunOk = T := by
      rw [Tunnel.deliver, hwire, List.drop_nil, readFrame, if_pos (by simp)]
    rw [Tunnel.step, hdeliver, ite_self]
    exact h
  | inboundEnds e =>
    refine ⟨h.outbound, h.server, ?_, h.unheard⟩
    have hdelivered : (T.inbound.turn C st e.read).1.delivered = T.inbound.delivered := by
      rw [Inbound.turn.eq_def, Inbound.turnOf.eq_def]
      split
      · rfl
      · cases e <;> rfl
    show (T.inbound.turn C st e.read).1.delivered = []
    rw [hdelivered, h.delivered]

/-! ## Runs -/

/-- A frame that betrays the client stays where it is. -/
theorem betrayed_stays {s : Outbound} {frame rest : Bytes}
    (hwire : s.wire = frameBytes frame ++ rest) (reads : List TunRead) :
    ∃ rest', (Machine.run (Outbound.step C st config) s reads).wire
      = frameBytes frame ++ rest' := by
  induction reads generalizing s rest with
  | nil => exact ⟨rest, hwire⟩
  | cons e reads ih =>
    obtain ⟨bytes, hgrown⟩ := outbound_grows (C := C) s e
    rw [Machine.run_cons]
    exact ih (by rw [hgrown, hwire, List.append_assoc])

/-- Whatever the pump admits first betrays it. -/
theorem admitted_betrays (hC : C.Lawful) (hpeer : PeeredWith st session)
    (hp : config.vless = some p) (hconfig : config.Fits) (reads : List TunRead) {s : Outbound}
    (hexit : s.exit = none) (hwire : s.wire = []) (hseq : s.seqOut = nextOutSeq)
    (hout : s.vlessOut = config.vlessOut) (hadmitted : admitted config reads ≠ []) :
    ∃ frame rest, Betrays C session p nextOutSeq frame ∧
      (Machine.run (Outbound.step C st config) s reads).wire = frameBytes frame ++ rest := by
  induction reads generalizing s with
  | nil => exact absurd rfl hadmitted
  | cons e reads ih =>
    have hrun : Machine.run (Outbound.step C st config) s (e :: reads)
        = Machine.run (Outbound.step C st config) (s.step C st config e) reads := rfl
    cases e with
    | packet q draw io =>
      rcases hblack : config.blackholes q.bytes with _ | _
      · obtain ⟨sealed, hbetrays, hok, -⟩ :=
          packet_betrays hC hpeer hp hconfig hwire hseq hout q hblack draw
        cases io with
        | none =>
          have hfirst : (s.step C st config (.packet q draw none)).wire
              = frameBytes sealed ++ [] := by
            rw [step_running hexit, List.append_nil]
            exact hok
          obtain ⟨rest, hstays⟩ := betrayed_stays hfirst reads
          exact ⟨sealed, rest, hbetrays, hstays⟩
        | some n => exact absurd (by simp [admitted_packet, hblack]) hadmitted
      · rw [hrun, step_running hexit]
        dsimp only
        rw [packet_blackholed hblack]
        exact ih hexit hwire hseq hout (by simpa [admitted_packet, hblack] using hadmitted)
    | notReadable =>
      rw [hrun, step_running hexit]
      exact ih hexit hwire hseq hout hadmitted
    | interrupted =>
      rw [hrun, step_running hexit]
      exact ih hexit hwire hseq hout hadmitted
    | _ => exact absurd rfl hadmitted

/-- The outbound half sees the turns at the TUN only. -/
theorem run_outbound (expects : Option Uuid) (turns : List Turn) (T : Tunnel) :
    (Machine.run (Tunnel.step C st session config t expects) T turns).outbound
      = Machine.run (Outbound.step C st config) T.outbound (tunReads turns) := by
  induction turns generalizing T with
  | nil => rfl
  | cons turn turns ih =>
    rw [Machine.run_cons, ih]
    cases turn with
    | tun e => rfl
    | serve draw io =>
      have hserve : (T.serve C session t expects draw io).outbound = T.outbound := by
        rw [Tunnel.serve]
        split <;> rfl
      rw [Tunnel.step]
      split
      · rfl
      · rw [hserve]
        rfl
    | serverEnds e =>
      rw [Tunnel.step]
      split <;> rfl
    | deliver tunOk =>
      have hdeliver : (T.deliver C st tunOk).outbound = T.outbound := by
        rw [Tunnel.deliver]
        split <;> rfl
      rw [Tunnel.step]
      split
      · rfl
      · rw [hdeliver]
        rfl
    | inboundEnds e => rfl

/-- **A client with another identity gets nothing.**  The server expects another user
than the client's configuration names.  Whatever the order of the turns, it writes
nothing, answers nothing and observes no request, and the TUN gets nothing back.  If it
has read anything it has ended with the identity mismatch, and if it is still there when
the pump has admitted a packet, its next turn ends it so. -/
theorem tunnel_refuses (hC : C.Lawful) (hpeer : PeeredWith st session) (hp : config.vless = some p)
    (hconfig : config.Fits) (hu : u ≠ p.uuid) (t : Target) (stats : PumpStats)
    (nextOutSeq nextInSeq : UInt64) (hfit : nextOutSeq.toNat + 1 < 2 ^ 64) (turns : List Turn) :
    let T := Machine.run (Tunnel.step C st session config t (some u))
      (.start config (some u) stats nextOutSeq nextInSeq) turns
    T.server.wire = [] ∧ T.server.seqOut = nextInSeq ∧ T.server.vlessRequest = none ∧
      T.inbound.delivered = [] ∧
      (T.heard ≠ 0 → T.server.ended = some (.error (.err (.visionUnpad .uuidMismatch)))) ∧
      (T.server.ended = none → admitted config (tunReads turns) ≠ [] → ∀ draw io,
        (T.step C st session config t (some u) (.serve draw io)).server.ended
          = some (.error (.err (.visionUnpad .uuidMismatch)))) := by
  intro T
  have h : Refused C session config p u nextOutSeq nextInSeq T :=
    Machine.run_inv (I := Refused C session config p u nextOutSeq nextInSeq)
      (fun T turn hT => hT.step hC hpeer hp hconfig hu hfit turn) turns
      ⟨.fresh rfl rfl rfl, rfl, rfl, Or.inl rfl⟩
  refine ⟨?_, ?_, ?_, h.delivered, fun hheard => h.unheard.resolve_left hheard, ?_⟩
  · rw [h.server]
    rfl
  · rw [h.server]
    rfl
  · rw [h.server]
    rfl
  · intro hended hadmitted draw io
    obtain ⟨frame, rest, hbetrays, hwire⟩ := admitted_betrays hC hpeer hp hconfig (tunReads turns)
      (s := Outbound.start config stats nextOutSeq) rfl rfl rfl rfl hadmitted
    have hwire' : T.outbound.wire = frameBytes frame ++ rest := by
      rw [run_outbound]
      exact hwire
    have hstart : T.server = RecordLoop.start (some u) nextOutSeq nextInSeq := by
      rw [h.server, hended]
      rfl
    have hheard : T.heard = 0 := by simpa [hended] using h.unheard
    rw [Tunnel.step, if_neg (by simp [hended]), Tunnel.serve, hheard, List.drop_zero, hwire',
      readFrame_frameBytes hbetrays.fits]
    dsimp only
    rw [hstart, frame_betrayed hu hfit hbetrays]

theorem tunnel_refuses_toy :
    let T := Machine.run (Tunnel.step Crypto.toy sampleState sampleSession ⟨true, some sampleVless⟩
        .aarch64 (some (List.Vector.replicate 16 8)))
      (.start ⟨true, some sampleVless⟩ (some (List.Vector.replicate 16 8)) .zero 3 4) sampleTurns
    T.server.wire = [] ∧ T.inbound.delivered = [] ∧
      T.server.ended = some (.error (.err (.visionUnpad .uuidMismatch))) := by
  have hfits : PumpConfig.Fits ⟨true, some sampleVless⟩ := by
    rintro p ⟨⟩
    exact ⟨by rintro f ⟨⟩; decide, by show (utf8 "example.com").length ≤ 255; decide⟩
  obtain ⟨hwire, -, -, hdelivered, hheard, -⟩ := tunnel_refuses Crypto.toy_lawful
    sampleState_peered rfl hfits (u := List.Vector.replicate 16 8) (by decide) .aarch64 .zero 3 4
    (by decide) sampleTurns
  exact ⟨hwire, hdelivered, hheard (by decide +kernel)⟩

end ShadeVpn.Pump
