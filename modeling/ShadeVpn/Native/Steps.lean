import ShadeVpn.Native.Session

/-!
# What a step of the session can do

One lemma for each kind of step, which the results about runs use in place of
the definitions.

* `probe_cases` — a probe seals at most one record and opens at most one.
* `outboundTurn_eq`, `inboundTurn_eq` — a turn of a pump thread is a turn of its
  half on the state the two halves share.
* `consistent_step` — `alive` counts the halves that have not signed off, so a
  pump that is not running has no loop left.
-/

namespace ShadeVpn.Native

open Octets Checked Handshake Transport Vless Pump

variable {κ : Type} {C : Crypto κ UInt8}

/-- The records among some effects. -/
theorem mem_records {es : List Effect} {r : Sealed} :
    r ∈ es.filterMap Effect.record? ↔ Effect.sealed r ∈ es := by
  rw [List.mem_filterMap]
  constructor
  · rintro ⟨e, he, hr⟩
    cases e with
    | sealed r' =>
      cases hr
      exact he
    | opened handle pt => cases hr
  · exact fun hr => ⟨_, hr, rfl⟩

/-! ## What a probe can do -/

/-- What a probe that sealed a record read back: nothing that opened, or a
record, which moves `next_in_seq` on only if it is the probe. -/
inductive ProbeReply (s : Session κ) (h : Handle κ) : Bool → UInt64 → List Effect → Prop
  | nothing (written : Bool) : ProbeReply s h written s.nextInSeq []
  | mismatch (pt : Bytes) (hne : pt ≠ PROBE) :
    ProbeReply s h true s.nextInSeq [.opened h.id pt]
  | echo : ProbeReply s h true (s.nextInSeq + 1) [.opened h.id PROBE]

/-- **What a probe can do**: nothing, or seal a record at `next_out_seq`, which
moves on only if the write succeeded, and open at most one. -/
theorem probe_cases (C : Crypto κ UInt8) (s : Session κ) (io : ProbeIo) :
    (s.probe C io).session = s ∧ (s.probe C io).effects = [] ∨
      ∃ h written nextIn opened, s.handshake = some h ∧ ProbeReply s h written nextIn opened ∧
        (s.probe C io).session = { s with
          nextOutSeq := if written then s.nextOutSeq + 1 else s.nextOutSeq
          nextInSeq := nextIn } ∧
        (s.probe C io).effects
          = .sealed ⟨h.id, s.nextOutSeq, .probe written, s.pump.starts, PROBE⟩ :: opened := by
  rw [Session.probe]
  split
  · exact Or.inl ⟨rfl, rfl⟩
  · next h hh =>
    split_ifs
    · exact Or.inl ⟨rfl, rfl⟩
    · exact Or.inl ⟨rfl, rfl⟩
    · split
      · exact Or.inl ⟨rfl, rfl⟩
      · dsimp only
        split
        · exact Or.inl ⟨rfl, rfl⟩
        · right
          split
          · exact ⟨h, false, _, _, hh, .nothing false, rfl, rfl⟩
          · split
            · exact ⟨h, true, _, _, hh, .nothing true, rfl, rfl⟩
            · exact ⟨h, true, _, _, hh, .nothing true, rfl, rfl⟩
            · split
              · exact ⟨h, true, _, _, hh, .nothing true, rfl, rfl⟩
              · next pt _ =>
                split_ifs with hpt
                · exact ⟨h, true, _, _, hh, .mismatch pt hpt, rfl, rfl⟩
                · obtain rfl : pt = PROBE := not_not.1 hpt
                  exact ⟨h, true, _, _, hh, .echo, rfl, rfl⟩

/-- A probe passes only on a completed handshake and a socket. -/
theorem probe_ok {s : Session κ} {io : ProbeIo} (h : (s.probe C io).result = .ok ()) :
    ∃ hd, s.handshake = some hd ∧ hd.state.completed = true ∧ s.socket = true := by
  rw [Session.probe] at h
  split at h
  · cases h
  · next hd hhd =>
    split_ifs at h with hdone hsocket
    exact ⟨hd, hhd, by simpa using hdone, by simpa using hsocket⟩

/-- What a probe opens is no seal. -/
theorem ProbeReply.record? {s : Session κ} {h : Handle κ} {written : Bool} {nextIn : UInt64}
    {opened : List Effect} (hreply : ProbeReply s h written nextIn opened) :
    opened.filterMap Effect.record? = [] := by
  cases hreply <;> rfl

/-! ## The threads and `alive` -/

/-- Does a half still count as alive?  One that panicked never signs off. -/
def unfinished : Option Exit → ℕ
  | none => 1
  | some .panicked => 1
  | some _ => 0

/-- `alive` counts the halves that have not signed off, and `running` is set while
there are any. -/
structure TunnelPump.Consistent (p : TunnelPump κ) : Prop where
  running : p.alive ≠ 0 → p.running = true
  alive : ∀ t ∈ p.threads, p.alive = unfinished t.outExit + unfinished t.inExit

/-- A pump that is not running has no outbound loop left. -/
theorem TunnelPump.Consistent.outExit {p : TunnelPump κ} (h : p.Consistent)
    (hrunning : p.running = false) : ∀ t ∈ p.threads, t.outExit ≠ none := by
  intro t ht hexit
  have halive := h.alive t ht
  rw [hexit, unfinished] at halive
  have := h.running (by omega)
  rw [hrunning] at this
  cases this

theorem unfinished_some {why : Exit} (h : why ≠ .panicked) : unfinished (some why) = 0 := by
  cases why <;> first | rfl | exact absurd rfl h

@[simp] theorem signOff_threads (p : TunnelPump κ) (before after : Option Exit) (halts : Exit) :
    (p.signOff before after halts).threads = p.threads := by
  rw [TunnelPump.signOff.eq_def]
  split
  · rw [TunnelPump.finish]
    split_ifs <;> rfl
  · rfl

@[simp] theorem signOff_starts (p : TunnelPump κ) (before after : Option Exit) (halts : Exit) :
    (p.signOff before after halts).starts = p.starts := by
  rw [TunnelPump.signOff.eq_def]
  split
  · rw [TunnelPump.finish]
    split_ifs <;> rfl
  · rfl

@[simp] theorem signOff_seqOut (p : TunnelPump κ) (before after : Option Exit) (halts : Exit) :
    (p.signOff before after halts).seqOut = p.seqOut := by
  rw [TunnelPump.signOff.eq_def]
  split
  · rw [TunnelPump.finish]
    split_ifs <;> rfl
  · rfl

@[simp] theorem signOff_stop (p : TunnelPump κ) (before after : Option Exit) (halts : Exit) :
    (p.signOff before after halts).stop = p.stop := by
  rw [TunnelPump.signOff.eq_def]
  split
  · rw [TunnelPump.finish]
    split_ifs <;> rfl
  · rfl

/-- A half signs off.  `threads` hold its exit already, `alive` still counts it as
it was before; `other` is what the other half counts. -/
theorem consistent_signOff {p : TunnelPump κ} {t : PumpThreads κ} {before after : Option Exit}
    {other : ℕ} (halts : Exit) (hthreads : p.threads = some t)
    (hhalves : unfinished t.outExit + unfinished t.inExit = unfinished after + other)
    (halive : p.alive = unfinished before + other) (hleft : before ≠ none → after = before)
    (hrunning : p.alive ≠ 0 → p.running = true) : (p.signOff before after halts).Consistent := by
  have hsame : before = after → p.Consistent := by
    rintro rfl
    refine ⟨hrunning, fun t' ht' => ?_⟩
    obtain rfl : t = t' := Option.some.inj (hthreads.symm.trans ht')
    rw [hhalves, halive]
  rw [TunnelPump.signOff.eq_def]
  split
  · next why =>
    rw [unfinished] at halive
    -- halting the socket changes neither `alive` nor the threads
    have hfinish : ∀ q : TunnelPump κ, q.alive = p.alive → q.running = p.running →
        q.threads = p.threads → (q.finish why).Consistent := by
      intro q hqalive hqrunning hqthreads
      have hmem : ∀ t' ∈ q.threads, t = t' := fun t' ht' =>
        Option.some.inj (hthreads.symm.trans (hqthreads.symm.trans ht'))
      have hrun : q.running = true := hqrunning.trans (hrunning (by omega))
      rw [TunnelPump.finish]
      split_ifs with hpanic hone
      · subst hpanic
        refine ⟨fun _ => hrun, fun t' ht' => ?_⟩
        rw [← hmem t' ht', hhalves, hqalive, halive]
        rfl
      · refine ⟨fun h => absurd rfl h, fun t' ht' => ?_⟩
        rw [← hmem t' ht', hhalves, unfinished_some hpanic]
        show 0 = 0 + other
        omega
      · refine ⟨fun _ => hrun, fun t' ht' => ?_⟩
        rw [← hmem t' ht', hhalves, unfinished_some hpanic]
        show q.alive - 1 = 0 + other
        omega
    split_ifs
    · exact hfinish _ rfl rfl rfl
    · exact hfinish _ rfl rfl rfl
  · next hmatch =>
    refine hsame ?_
    rcases hb : before with _ | why
    · rcases ha : after with _ | why
      · rfl
      · exact absurd ha (hmatch why hb)
    · rw [← hb]
      exact (hleft (by simp [hb])).symm

/-! ## Turns of the pump threads -/

/-- What an outbound turn does: nothing when the loop must not see the stop flag
yet, else a turn of the outbound half. -/
theorem outboundTurn_eq {s : Session κ} {t : PumpThreads κ} (ht : s.pump.threads = some t)
    (e : TunRead) :
    s.outboundTurn C e = ⟨s, [], .ok ()⟩ ∨
      ∃ out record pump t',
        (Outbound.mk s.pump.seqOut t.vlessOut s.pump.stats t.wire t.outExit).turn
          C t.handle.state t.config e = (out, record) ∧
        s.outboundTurn C e = ⟨{ s with pump }, record.toList.map fun r =>
          .sealed ⟨t.handle.id, r.seq, .packet, t.number, r.plaintext⟩, .ok ()⟩ ∧
        pump.threads = some t' ∧ t'.handle = t.handle ∧ t'.number = t.number ∧
        t'.outExit = out.exit ∧ pump.seqOut = out.seqOut ∧ pump.starts = s.pump.starts ∧
        (s.pump.Consistent → pump.Consistent) := by
  rw [Session.outboundTurn.eq_def, ht]
  dsimp only
  split_ifs
  · exact Or.inl rfl
  · right
    rcases hturn : (Outbound.mk s.pump.seqOut t.vlessOut s.pump.stats t.wire t.outExit).turn
      C t.handle.state t.config e with ⟨out, record⟩
    have hleft : t.outExit ≠ none → out.exit = t.outExit := by
      intro h
      rw [Outbound.turn.eq_def, if_pos (Option.isSome_iff_ne_none.2 h)] at hturn
      exact (congrArg (fun o => o.1.exit) hturn).symm
    refine ⟨out, record, _, _, rfl, rfl, signOff_threads .., rfl, rfl, rfl, signOff_seqOut ..,
      signOff_starts .., fun hc => ?_⟩
    exact consistent_signOff _ rfl rfl (hc.alive t ht) hleft hc.running

/-- What an inbound turn does: a turn of the inbound half, which seals nothing and
leaves the outbound half alone. -/
theorem inboundTurn_eq {s : Session κ} {t : PumpThreads κ} (ht : s.pump.threads = some t)
    (e : SocketRead) :
    ∃ (pump : TunnelPump κ) (t' : PumpThreads κ) (plaintext : Option Bytes), s.inboundTurn C e
        = ⟨{ s with pump }, plaintext.toList.map (.opened t.handle.id), .ok ()⟩ ∧
      pump.threads = some t' ∧ t'.handle = t.handle ∧ t'.number = t.number ∧
      t'.outExit = t.outExit ∧ pump.seqOut = s.pump.seqOut ∧ pump.starts = s.pump.starts ∧
      (s.pump.Consistent → pump.Consistent) := by
  rw [Session.inboundTurn.eq_def, ht]
  dsimp only
  split_ifs
  · exact ⟨s.pump, t, none, rfl, ht, rfl, rfl, rfl, rfl, rfl, id⟩
  · rcases hturn : (Inbound.mk s.pump.seqIn t.vlessIn s.pump.stats t.delivered t.inExit).turn
      C t.handle.state e with ⟨inb, plaintext⟩
    have hleft : t.inExit ≠ none → inb.exit = t.inExit := by
      intro h
      rw [Inbound.turn.eq_def, Inbound.turnOf.eq_def, if_pos (Option.isSome_iff_ne_none.2 h)] at hturn
      exact (congrArg (fun o => o.1.exit) hturn).symm
    refine ⟨_, _, plaintext, rfl, signOff_threads .., rfl, rfl, rfl, signOff_seqOut ..,
      signOff_starts .., fun hc => ?_⟩
    exact consistent_signOff _ rfl (Nat.add_comm ..) ((hc.alive t ht).trans (Nat.add_comm ..))
      hleft hc.running

/-- Without threads there is no turn. -/
theorem outboundTurn_none {s : Session κ} (ht : s.pump.threads = none) (e : TunRead) :
    s.outboundTurn C e = ⟨s, [], .ok ()⟩ := by
  rw [Session.outboundTurn.eq_def, ht]

theorem inboundTurn_none {s : Session κ} (ht : s.pump.threads = none) (e : SocketRead) :
    s.inboundTurn C e = ⟨s, [], .ok ()⟩ := by
  rw [Session.inboundTurn.eq_def, ht]

/-- A turn changes only the pump, and not its stop flag. -/
theorem outboundTurn_pump (s : Session κ) (e : TunRead) :
    ∃ pump, (s.outboundTurn C e).session = { s with pump } ∧ pump.stop = s.pump.stop := by
  rw [Session.outboundTurn.eq_def]
  split
  · exact ⟨s.pump, rfl, rfl⟩
  · dsimp only
    split_ifs
    · exact ⟨s.pump, rfl, rfl⟩
    · exact ⟨_, rfl, signOff_stop ..⟩

theorem inboundTurn_pump (s : Session κ) (e : SocketRead) :
    ∃ pump, (s.inboundTurn C e).session = { s with pump } ∧ pump.stop = s.pump.stop := by
  rw [Session.inboundTurn.eq_def]
  split
  · exact ⟨s.pump, rfl, rfl⟩
  · dsimp only
    split_ifs
    · exact ⟨s.pump, rfl, rfl⟩
    · exact ⟨_, rfl, signOff_stop ..⟩

/-- A turn leaves the pump its handshake, and what it seals it seals under it. -/
theorem outboundTurn_threads (s : Session κ) (e : TunRead) :
    (∀ t ∈ (s.outboundTurn C e).session.pump.threads, ∃ t' ∈ s.pump.threads, t.handle = t'.handle) ∧
      ∀ r, Effect.sealed r ∈ (s.outboundTurn C e).effects →
        ∃ t' ∈ s.pump.threads, r.handle = t'.handle.id := by
  rcases ht : s.pump.threads with _ | t
  · rw [outboundTurn_none ht]
    refine ⟨?_, by simp⟩
    intro t' ht'
    rw [ht] at ht'
    cases ht'
  · rcases outboundTurn_eq (C := C) ht e with heq | ⟨_, record, pump, t', -, heq, ht', hhandle, -⟩
    · rw [heq]
      exact ⟨fun t' ht' => ⟨t', by rw [← ht]; exact ht', rfl⟩, by simp⟩
    · rw [heq]
      refine ⟨?_, ?_⟩
      · intro u hu
        rw [show pump.threads = some t' from ht'] at hu
        cases hu
        exact ⟨t, rfl, hhandle⟩
      · intro r hr
        obtain ⟨record, -, hrecord⟩ := List.mem_map.1 hr
        cases hrecord
        exact ⟨t, rfl, rfl⟩

theorem inboundTurn_threads (s : Session κ) (e : SocketRead) :
    (∀ t ∈ (s.inboundTurn C e).session.pump.threads, ∃ t' ∈ s.pump.threads, t.handle = t'.handle) ∧
      ∀ r, Effect.sealed r ∉ (s.inboundTurn C e).effects := by
  rcases ht : s.pump.threads with _ | t
  · rw [inboundTurn_none ht]
    refine ⟨?_, by simp⟩
    intro t' ht'
    rw [ht] at ht'
    cases ht'
  · obtain ⟨pump, t', plaintext, heq, ht', hhandle, -⟩ := inboundTurn_eq (C := C) ht e
    rw [heq]
    refine ⟨?_, ?_⟩
    · intro u hu
      rw [show pump.threads = some t' from ht'] at hu
      cases hu
      exact ⟨t, rfl, hhandle⟩
    · intro r hr
      obtain ⟨_, -, hopened⟩ := List.mem_map.1 hr
      cases hopened

/-! ## Turns that shut the socket down -/

/-- A half that leaves its loop shuts the socket down: the halt handle is there, and
the half's own write failed, or it is the last one and has not panicked. -/
def TunnelPump.Halts (p : TunnelPump κ) (before after : Option Exit) (halts : Exit) : Prop :=
  p.halt = true ∧ before = none ∧ ∃ why ∈ after, why = halts ∨ why ≠ .panicked ∧ p.alive = 1

variable (C) in
/-- The outbound half shuts the socket down in this turn. -/
def Session.OutboundHalts (s : Session κ) (e : TunRead) (t : PumpThreads κ) : Prop :=
  (e = .stopped → s.pump.stop = true) ∧
    s.pump.Halts t.outExit ((Outbound.mk s.pump.seqOut t.vlessOut s.pump.stats t.wire t.outExit).turn
      C t.handle.state t.config e).1.exit .socketFailed

variable (C) in
/-- The inbound half shuts the socket down in this turn. -/
def Session.InboundHalts (s : Session κ) (e : SocketRead) (t : PumpThreads κ) : Prop :=
  (e = .stopped → s.pump.stop = true) ∧
    s.pump.Halts t.inExit ((Inbound.mk s.pump.seqIn t.vlessIn s.pump.stats t.delivered t.inExit).turn
      C t.handle.state e).1.exit .tunFailed

/-- Signing off takes the halt handle exactly if the half shuts the socket down. -/
theorem signOff_takes_halt {p : TunnelPump κ} {before after : Option Exit} {halts : Exit}
    (hhalt : p.halt = true) : (p.signOff before after halts).halt = false ↔
      before = none ∧ ∃ why ∈ after, why = halts ∨ why ≠ .panicked ∧ p.alive = 1 := by
  rw [TunnelPump.signOff.eq_def]
  split
  · next why =>
    rw [TunnelPump.finish.eq_def]
    by_cases hown : why = halts
    · simp only [hown, if_true, true_and]
      split_ifs <;> simp
    · simp only [hown, if_false, true_and]
      split_ifs <;> simp_all
  · next hneither =>
    refine iff_of_false (by simp [hhalt]) ?_
    rintro ⟨rfl, why, hwhy, -⟩
    exact hneither why rfl hwhy

theorem outboundTurn_takes_halt (s : Session κ) (e : TunRead) :
    s.pump.halt = true ∧ (s.outboundTurn C e).session.pump.halt = false ↔
      ∃ t ∈ s.pump.threads, s.OutboundHalts C e t := by
  rcases ht : s.pump.threads with _ | t
  · rw [outboundTurn_none ht]
    simp
  · rw [Session.outboundTurn.eq_def, ht]
    dsimp only
    split_ifs with hskip
    · -- the loop does not see a stop flag that is not set
      refine iff_of_false (by simp) ?_
      rintro ⟨_, ⟨⟩, hstop, -⟩
      cases e <;> simp_all
    · have hstop : e = .stopped → s.pump.stop = true := by
        rintro rfl
        simpa using hskip
      constructor
      · rintro ⟨hhalt, hgone⟩
        have hexit := (signOff_takes_halt (by exact hhalt)).1 hgone
        exact ⟨t, rfl, hstop, hhalt, hexit⟩
      · rintro ⟨_, ⟨⟩, -, hhalt, hexit⟩
        exact ⟨hhalt, (signOff_takes_halt (by exact hhalt)).2 hexit⟩

theorem inboundTurn_takes_halt (s : Session κ) (e : SocketRead) :
    s.pump.halt = true ∧ (s.inboundTurn C e).session.pump.halt = false ↔
      ∃ t ∈ s.pump.threads, s.InboundHalts C e t := by
  rcases ht : s.pump.threads with _ | t
  · rw [inboundTurn_none ht]
    simp
  · rw [Session.inboundTurn.eq_def, ht]
    dsimp only
    split_ifs with hskip
    · refine iff_of_false (by simp) ?_
      rintro ⟨_, ⟨⟩, hstop, -⟩
      cases e <;> simp_all
    · have hstop : e = .stopped → s.pump.stop = true := by
        rintro rfl
        simpa using hskip
      constructor
      · rintro ⟨hhalt, hgone⟩
        have hexit := (signOff_takes_halt (by exact hhalt)).1 hgone
        exact ⟨t, rfl, hstop, hhalt, hexit⟩
      · rintro ⟨_, ⟨⟩, -, hhalt, hexit⟩
        exact ⟨hhalt, (signOff_takes_halt (by exact hhalt)).2 hexit⟩

/-! ## Every pump is consistent -/

theorem consistent_halted {p : TunnelPump κ} (h : p.Consistent) : p.halted.Consistent :=
  ⟨h.running, h.alive⟩

theorem consistent_start {p : TunnelPump κ} (h : p.Consistent) (handle : Handle κ)
    (config : PumpConfig) (nextOutSeq nextInSeq : UInt64) (io : StartIo) :
    (p.start handle config nextOutSeq nextInSeq io).2.Consistent := by
  rw [TunnelPump.start]
  split_ifs
  · exact h
  · dsimp only
    split
    · exact ⟨fun _ => rfl, h.alive⟩
    · refine ⟨fun _ => rfl, ?_⟩
      rintro t ⟨⟩
      rfl

/-- **A step keeps the pump consistent.** -/
theorem consistent_step {s : Session κ} (h : s.pump.Consistent) (op : Op κ) :
    (s.step C op).session.pump.Consistent := by
  cases op with
  | connect r io =>
    rw [Session.step, Session.connect.eq_def]
    split
    · exact h
    · split <;> exact h
  | complete response =>
    rw [Session.step, Session.complete.eq_def]
    split
    · split
      · exact h
      · exact consistent_halted h
    · exact h
    · exact h
  | probe io =>
    rcases probe_cases C s io with ⟨hs, -⟩ | ⟨hd, written, nextIn, opened, -, -, hs, -⟩
    · rw [Session.step, hs]
      exact h
    · rw [Session.step, hs]
      exact h
  | startPump blockIpv6 io =>
    rw [Session.step, Session.startPump]
    split
    · exact h
    · split_ifs
      · exact h
      · exact h
      · split
        · exact h
        · exact consistent_start h _ _ _ _ _
  | stopPump => exact consistent_halted h
  | disconnect => exact consistent_halted h
  | outbound e =>
    rcases ht : s.pump.threads with _ | t
    · rw [Session.step, outboundTurn_none ht]
      exact h
    · rcases outboundTurn_eq (C := C) ht e with
        heq | ⟨out, record, pump, t', -, heq, -, -, -, -, -, -, hc⟩
      · rw [Session.step, heq]
        exact h
      · rw [Session.step, heq]
        exact hc h
  | inbound e =>
    rcases ht : s.pump.threads with _ | t
    · rw [Session.step, inboundTurn_none ht]
      exact h
    · obtain ⟨pump, t', plaintext, heq, -, -, -, -, -, -, hc⟩ := inboundTurn_eq (C := C) ht e
      rw [Session.step, heq]
      exact hc h

end ShadeVpn.Native
