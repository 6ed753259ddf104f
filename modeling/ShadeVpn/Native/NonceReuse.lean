import ShadeVpn.Lib.Machine
import ShadeVpn.Native.Ledger
import ShadeVpn.Native.Steps

/-!
# Sequence numbers over whole runs

The session refines the ledger: every step of it, whatever the socket and the
TUN do, is a step of the ledger (`step_refines`).  A record's sequence number is
the number its counter stood on, so a run repeats none exactly if every record
is sealed with a clean history behind its counter.

* `sealed_distinct_iff` — when a run uses no sequence number twice.
* `not_distinct_failedProbe` — a probe whose write fails, and a second probe.
-/

namespace ShadeVpn.Native

open Octets Checked Handshake Transport Vless Pump

variable {κ : Type} {C : Crypto κ UInt8}

/-! ## The session as a ledger -/

/-- What the ledger knows of a handshake. -/
def Handle.lease (h : Handle κ) : Lease := ⟨h.id, h.base⟩

/-- What the ledger knows of the pump: the run of an outbound loop that goes on. -/
def TunnelPump.run (p : TunnelPump κ) : Option Run :=
  p.threads.bind fun t =>
    if t.outExit = none then some ⟨t.handle.lease, t.number, p.seqOut⟩ else none

/-- The ledger of a world. -/
def World.ledger (w : World κ) : Ledger where
  current := w.session.handshake.map Handle.lease
  next := w.session.nextOutSeq
  run := w.session.pump.run
  created := w.session.created
  starts := w.session.pump.starts
  log := w.sealed

/-- A step appends what it sealed. -/
theorem World.sealed_after (w : World κ) (o : Outcome κ) :
    (w.after o).sealed = w.sealed ++ o.effects.filterMap Effect.record? := by
  simp [World.after, World.sealed]

/-- An outcome the ledger does not see. -/
theorem step_quiet {w : World κ} {o : Outcome κ}
    (hhandshake : o.session.handshake.map Handle.lease = w.session.handshake.map Handle.lease)
    (hnext : o.session.nextOutSeq = w.session.nextOutSeq)
    (hrun : o.session.pump.run = w.session.pump.run)
    (hcreated : o.session.created = w.session.created)
    (hstarts : o.session.pump.starts = w.session.pump.starts)
    (heffects : o.effects.filterMap Effect.record? = []) : w.ledger.Step (w.after o).ledger := by
  have heq : (w.after o).ledger = w.ledger := by
    simp only [World.ledger, World.sealed_after, heffects, List.append_nil]
    simp [World.after, hhandshake, hnext, hrun, hcreated, hstarts]
  rw [heq]
  exact .stay _

/-! ## Every step is a step of the ledger -/

theorem connect_refines (w : World κ) (r : ConnectRequest κ) (io : Option String) :
    w.ledger.Step (w.after (w.session.connect C r io)).ledger := by
  rw [Session.connect.eq_def]
  split
  · exact step_quiet rfl rfl rfl rfl rfl rfl
  · split
    · exact step_quiet rfl rfl rfl rfl rfl rfl
    · exact step_quiet rfl rfl rfl rfl rfl rfl
    · simpa [World.ledger, World.sealed, World.after, Handle.lease]
        using Ledger.Step.install w.ledger

theorem teardown_refines (w : World κ) (result : Except SessionError Unit) :
    w.ledger.Step (w.after ⟨w.session.teardown, [], result⟩).ledger := by
  simpa [World.ledger, World.sealed, World.after, Session.teardown, TunnelPump.halted,
    TunnelPump.run] using Ledger.Step.drop w.ledger

theorem complete_refines (w : World κ) (response : Option Bytes) :
    w.ledger.Step (w.after (w.session.complete C response)).ledger := by
  rw [Session.complete.eq_def]
  split
  · next h hh =>
    split
    · exact step_quiet (by rw [hh]; rfl) rfl rfl rfl rfl rfl
    · exact teardown_refines w _
  · exact step_quiet rfl rfl rfl rfl rfl rfl
  · exact step_quiet rfl rfl rfl rfl rfl rfl

theorem probe_refines (w : World κ) (io : ProbeIo) :
    w.ledger.Step (w.after (w.session.probe C io)).ledger := by
  rcases probe_cases C w.session io with ⟨hs, he⟩ | ⟨h, written, nextIn, opened, hh, hreply, hs, he⟩
  · exact step_quiet (by rw [hs]) (by rw [hs]) (by rw [hs]) (by rw [hs]) (by rw [hs]) (by rw [he]; rfl)
  · have hlog : (w.after (w.session.probe C io)).sealed = w.sealed
        ++ [⟨h.id, w.session.nextOutSeq, .probe written, w.session.pump.starts, PROBE⟩] := by
      simp [World.sealed_after, he, hreply.record?]
    have heq : (w.after (w.session.probe C io)).ledger = { w.ledger with
        next := if written then w.ledger.next + 1 else w.ledger.next
        log := w.ledger.log
          ++ [⟨h.lease.id, w.ledger.next, .probe written, w.ledger.starts, PROBE⟩] } := by
      simp only [World.ledger, hlog]
      simp [World.after, hs, Handle.lease]
    rw [heq]
    exact .probe _ _ (by simp [World.ledger, hh]) written PROBE

/-- A start that succeeds puts a new run on the session's counter; one that is
refused leaves the ledger alone. -/
theorem startPump_refines (w : World κ) (h : w.session.pump.Consistent) (blockIpv6 : Bool)
    (io : StartIo) : w.ledger.Step (w.after (w.session.startPump blockIpv6 io)).ledger := by
  rw [Session.startPump]
  split
  · exact step_quiet rfl rfl rfl rfl rfl rfl
  · next hd hh =>
    split_ifs
    · exact step_quiet rfl rfl rfl rfl rfl rfl
    · exact step_quiet rfl rfl rfl rfl rfl rfl
    · split
      · exact step_quiet rfl rfl rfl rfl rfl rfl
      · simp only [TunnelPump.start]
        split_ifs with hrunning
        · exact step_quiet rfl rfl rfl rfl rfl rfl
        · split
          · -- refused after the numbers were stored: no loop is left that would use them
            have hnone : ∀ seq, (w.session.pump.threads.bind fun t =>
                if t.outExit = none then some (Run.mk t.handle.lease t.number seq) else none)
                  = none := by
              intro seq
              rw [Option.bind_eq_none_iff]
              intro t ht
              rw [if_neg (h.outExit (by simpa using hrunning) t ht)]
            refine step_quiet rfl rfl ?_ rfl rfl rfl
            simp only [TunnelPump.run, hnone]
          · have hstep := Ledger.Step.start w.ledger hd.lease (by simp [World.ledger, hh])
            simpa [World.ledger, World.sealed, World.after, TunnelPump.run] using hstep

/-- The run a pump's threads show the ledger. -/
theorem run_eq {p : TunnelPump κ} {t : PumpThreads κ} (ht : p.threads = some t) :
    p.run = if t.outExit = none then some ⟨t.handle.lease, t.number, p.seqOut⟩ else none := by
  simp [TunnelPump.run, ht]

theorem outbound_refines (w : World κ) (e : TunRead) :
    w.ledger.Step (w.after (w.session.outboundTurn C e)).ledger := by
  rcases ht : w.session.pump.threads with _ | t
  · rw [outboundTurn_none ht]
    exact step_quiet rfl rfl rfl rfl rfl rfl
  · rcases outboundTurn_eq (C := C) ht e with
      heq | ⟨out, record, pump, t', hturn, heq, ht', hhandle, hnumber, hexit', hseq', hstarts, -⟩
    · rw [heq]
      exact step_quiet rfl rfl rfl rfl rfl rfl
    · have hledger : (w.after (w.session.outboundTurn C e)).ledger = { w.ledger with
          run := if out.exit = none then some ⟨t.handle.lease, t.number, out.seqOut⟩ else none
          log := w.ledger.log ++ record.toList.map fun r =>
            ⟨t.handle.lease.id, r.seq, .packet, t.number, r.plaintext⟩ } := by
        have hrun := run_eq ht'
        rw [hexit', hhandle, hnumber, hseq'] at hrun
        rw [heq]
        cases record <;>
          simp [World.ledger, World.sealed, World.after, hrun, hstarts, Handle.lease]
      have hbefore : w.ledger.run
          = if t.outExit = none then some ⟨t.handle.lease, t.number, w.session.pump.seqOut⟩
            else none := run_eq ht
      have hcases := turn_cases C t.handle.state t.config
        (Outbound.mk w.session.pump.seqOut t.vlessOut w.session.pump.stats t.wire t.outExit) e
      rw [hturn] at hcases
      rw [hledger]
      rcases hcases with ⟨hnone, ⟨hexit, hseq⟩ | ⟨-, hexit⟩⟩ | ⟨hgoing, wrapped, hsome, hnext⟩
      · -- nothing sealed, the loop as it was
        obtain rfl : record = none := hnone
        rw [hexit, hseq, ← hbefore]
        simpa using Ledger.Step.stay w.ledger
      · -- nothing sealed, the loop left
        obtain rfl : record = none := hnone
        rw [if_neg hexit]
        simpa using Ledger.Step.halt w.ledger
      · -- a record sealed, the loop goes on only if it was written
        obtain rfl : record = some ⟨w.session.pump.seqOut, wrapped⟩ := hsome
        rw [if_pos hgoing] at hbefore
        rcases hnext with ⟨hexit, hseq⟩ | hexit
        · rw [if_pos hexit, hseq]
          exact Ledger.Step.packet w.ledger _ hbefore true wrapped
        · rw [if_neg hexit]
          exact Ledger.Step.packet w.ledger _ hbefore false wrapped

theorem inbound_refines (w : World κ) (e : SocketRead) :
    w.ledger.Step (w.after (w.session.inboundTurn C e)).ledger := by
  rcases ht : w.session.pump.threads with _ | t
  · rw [inboundTurn_none ht]
    exact step_quiet rfl rfl rfl rfl rfl rfl
  · obtain ⟨pump, t', plaintext, heq, ht', hhandle, hnumber, hexit, hseq, hstarts, -⟩ :=
      inboundTurn_eq (C := C) ht e
    have hrun : pump.run = w.session.pump.run := by
      rw [run_eq ht', run_eq ht, hexit, hhandle, hnumber, hseq]
    rw [heq]
    exact step_quiet rfl rfl hrun rfl hstarts (by cases plaintext <;> rfl)

/-- **The session refines the ledger.** -/
theorem step_refines (w : World κ) (h : w.session.pump.Consistent) (op : Op κ) :
    w.ledger.Step (w.step C op).ledger := by
  cases op with
  | connect r io => exact connect_refines w r io
  | complete response => exact complete_refines w response
  | probe io => exact probe_refines w io
  | startPump blockIpv6 io => exact startPump_refines w h blockIpv6 io
  | stopPump => exact step_quiet (o := ⟨_, [], .ok ()⟩) rfl rfl rfl rfl rfl rfl
  | disconnect => exact teardown_refines w _
  | outbound e => exact outbound_refines w e
  | inbound e => exact inbound_refines w e

/-! ## When a run repeats no number -/

/-- What every world keeps: its pump is consistent and its ledger good. -/
def World.Sound (w : World κ) : Prop := w.session.pump.Consistent ∧ w.ledger.Good

theorem sound_new : (World.new : World κ).Sound :=
  ⟨⟨fun h => absurd rfl h, by rintro t ⟨⟩⟩, Ledger.good_empty⟩

theorem World.Sound.step {w : World κ} (h : w.Sound) (op : Op κ) : (w.step C op).Sound :=
  ⟨consistent_step h.1 op, h.2.step (step_refines w h.1 op)⟩

variable (C) in
/-- Every record the step seals is sealed with a clean history behind its counter. -/
def SealsClean (w : World κ) (op : Op κ) : Prop :=
  ∀ r, Effect.sealed r ∈ (w.session.step C op).effects → Allowed w.sealed r

/-- A step of the ledger adds one record at most. -/
theorem Ledger.Step.log_eq {g g' : Ledger} (h : g.Step g') :
    g'.log = g.log ∨ ∃ x, g'.log = g.log ++ [x] := by
  cases h with
  | probe l hl written pt => exact Or.inr ⟨_, rfl⟩
  | packet r hr written pt => exact Or.inr ⟨_, rfl⟩
  | _ => exact Or.inl rfl

/-- The records a step seals, read off the log. -/
theorem sealsClean_iff {w : World κ} (h : w.Sound) (op : Op κ) :
    SealsClean C w op ↔ ∀ x, (w.step C op).sealed = w.sealed ++ [x] → Allowed w.sealed x := by
  have hlog : (w.step C op).sealed
      = w.sealed ++ (w.session.step C op).effects.filterMap Effect.record? :=
    World.sealed_after w (w.session.step C op)
  have hstep : (w.step C op).sealed = w.sealed ∨ ∃ x, (w.step C op).sealed = w.sealed ++ [x] :=
    (step_refines w h.1 op).log_eq
  rw [hlog] at hstep
  simp only [SealsClean, ← mem_records, hlog, List.append_cancel_left_eq]
  rcases hstep with hnone | ⟨x, hone⟩
  · rw [List.append_right_eq_self.1 hnone]
    simp
  · rw [List.append_cancel_left hone]
    simp

/-- **When a session reuses no nonce.**  In a run of native operations in any
order, with pump turns in between and whatever the socket and the TUN do, no two
records of one handshake state carry the same sequence number if and only if
every record is sealed with a clean history behind its counter: a probe's record
when all records before it are probes whose write succeeded; a packet's record
when they are such probes from before this pump start, or packets of this run. -/
theorem sealed_distinct_iff (C : Crypto κ UInt8) (ops : List (Op κ)) :
    Distinct (Machine.run (World.step C) World.new ops).sealed ↔
      Machine.Along (World.step C) (SealsClean C) World.new ops := by
  have hnew : Distinct (World.new : World κ).sealed := by simp [Distinct, World.sealed, World.new]
  refine Machine.run_iff_along (I := World.Sound) (P := fun w => Distinct w.sealed)
    (fun w op h => h.step op) (fun w op hd => ?_) (fun w op h hd => ?_) ops sound_new hnew
  · have hlog := World.sealed_after w (w.session.step C op)
    have hd' : Distinct (w.sealed ++ (w.session.step C op).effects.filterMap Effect.record?) :=
      hlog ▸ hd
    rw [Distinct, List.map_append] at hd'
    exact hd'.of_append_left
  · rw [sealsClean_iff h]
    exact h.2.distinct_iff hd (step_refines w h.1 op)

/-! ## A repeated number -/

/-- A probe whose write fails leaves its number to the next probe. -/
theorem not_distinct_failedProbe :
    ¬ Distinct (Machine.run (World.step Crypto.toy) World.new
      [.connect sampleRequest none, .complete (some sampleResponse),
        .probe ⟨none, some 0, .ok none⟩, .probe ⟨none, none, .ok none⟩]).sealed := by
  decide +kernel

-- a pump that is stopped and started again numbers its records from the same place
example : ¬ Distinct (Machine.run (World.step Crypto.toy) World.new
    [.connect sampleRequest none, .complete (some sampleResponse),
      .startPump true ⟨none, none, true⟩, .outbound (.packet (samplePacket 4) (fun _ => 0) none),
      .stopPump, .outbound .stopped, .inbound .stopped, .startPump true ⟨none, none, true⟩,
      .outbound (.packet (samplePacket 4) (fun _ => 0) none)]).sealed := by
  decide +kernel

end ShadeVpn.Native
