import ShadeVpn.Lib.Machine
import ShadeVpn.Native.Steps

/-!
# The session's counters and its handshake

`next_out_seq` and `next_in_seq` are fields of the session, not of the handshake
they number.  A teardown clears them; a connect does not.  So they count the
records of the current handshake only while every connect finds them at zero,
and while no probe opens a record that is not its echo.

* `counters_match_iff` — when the counters belong to the current handshake, over
  every history of native operations, pumps of earlier handshakes included.
* `not_counters_match_reconnect` — a probe and a second connect.
-/

namespace ShadeVpn.Native

open Octets Checked Handshake Transport Vless Pump

variable {κ : Type} {C : Crypto κ UInt8}

/-! ## What is counted -/

/-- The handshake state an effect is about. -/
def Effect.handle : Effect → ℕ
  | .sealed r => r.handle
  | .opened handle _ => handle

/-- A probe record that was written under handshake state `id`. -/
def Effect.isProbeWritten (id : ℕ) : Effect → Bool
  | .sealed r => r.handle = id && r.origin = .probe true
  | .opened _ _ => false

/-- A record that was opened under handshake state `id`. -/
def Effect.isOpened (id : ℕ) : Effect → Bool
  | .sealed _ => false
  | .opened handle _ => handle = id

/-- The number of probe records written under a handshake state. -/
def probesWritten (log : List Effect) (id : ℕ) : ℕ := log.countP (Effect.isProbeWritten id)

/-- The number of records opened under a handshake state. -/
def recordsOpened (log : List Effect) (id : ℕ) : ℕ := log.countP (Effect.isOpened id)

theorem probesWritten_append (log log' : List Effect) (id : ℕ) :
    probesWritten (log ++ log') id = probesWritten log id + probesWritten log' id :=
  List.countP_append

theorem recordsOpened_append (log log' : List Effect) (id : ℕ) :
    recordsOpened (log ++ log') id = recordsOpened log id + recordsOpened log' id :=
  List.countP_append

/-- Effects under other handshake states are not counted. -/
theorem counts_of_others {log : List Effect} {id : ℕ} (h : ∀ x ∈ log, x.handle ≠ id) :
    probesWritten log id = 0 ∧ recordsOpened log id = 0 := by
  constructor
  · refine List.countP_eq_zero.2 fun x hx => ?_
    cases x with
    | sealed r => simp [Effect.isProbeWritten, show r.handle ≠ id from h _ hx]
    | opened => simp [Effect.isProbeWritten]
  · refine List.countP_eq_zero.2 fun x hx => ?_
    cases x with
    | sealed => simp [Effect.isOpened]
    | opened handle pt => simp [Effect.isOpened, show handle ≠ id from h _ hx]

/-- No pump was started under the session's handshake.  The pump keeps the threads of
its last start, and a handshake that was replaced does not come back. -/
def Session.Unpumped (s : Session κ) : Prop :=
  ∀ h ∈ s.handshake, ∀ t ∈ s.pump.threads, t.handle.id ≠ h.id

instance (s : Session κ) : Decidable s.Unpumped :=
  inferInstanceAs (Decidable (∀ h ∈ s.handshake, ∀ t ∈ s.pump.threads, _))

/-- Before a pump is started under it, the counters of a session that holds a
handshake count the probes written and the records opened under it. -/
def CountersMatch (w : World κ) : Prop :=
  w.session.Unpumped → ∀ h ∈ w.session.handshake,
    w.session.nextOutSeq = UInt64.ofNat (probesWritten w.log h.id) ∧
    w.session.nextInSeq = UInt64.ofNat (recordsOpened w.log h.id)

instance (w : World κ) : Decidable (CountersMatch w) :=
  inferInstanceAs (Decidable (_ → ∀ h ∈ w.session.handshake, _ ∧ _))

variable (C) in
/-- The step keeps the counters with the handshake: a connect that succeeds finds
both at zero, and a probe before the handshake's pump opens nothing but its echo. -/
def KeepsCounters (w : World κ) (op : Op κ) : Prop :=
  match op with
  | .connect r none => ∀ st, initiate C r.params r.ephemeral r.unixTime = .ok st →
      w.session.nextOutSeq = 0 ∧ w.session.nextInSeq = 0
  | .probe io => w.session.Unpumped →
      ∀ handle pt, Effect.opened handle pt ∈ (w.session.probe C io).effects → pt = PROBE
  | _ => True

/-! ## Handshake states are made once -/

/-- Every handshake state in use or in the log was made before. -/
structure World.Made (w : World κ) : Prop where
  log : ∀ x ∈ w.log, x.handle < w.session.created
  handshake : ∀ h ∈ w.session.handshake, h.id < w.session.created
  threads : ∀ t ∈ w.session.pump.threads, t.handle.id < w.session.created

theorem made_new : (World.new : World κ).Made :=
  ⟨by simp [World.new], by rintro h ⟨⟩, by rintro t ⟨⟩⟩

theorem World.Made.count_eq_zero {w : World κ} (h : w.Made) :
    probesWritten w.log w.session.created = 0 ∧ recordsOpened w.log w.session.created = 0 :=
  counts_of_others fun x hx => (h.log x hx).ne

/-- An outcome that makes no handshake state. -/
theorem World.Made.after {w : World κ} (h : w.Made) {o : Outcome κ}
    (hcreated : o.session.created = w.session.created)
    (heffects : ∀ x ∈ o.effects, x.handle < w.session.created)
    (hhandshake : ∀ hd ∈ o.session.handshake, hd.id < w.session.created)
    (hthreads : ∀ t ∈ o.session.pump.threads, t.handle.id < w.session.created) :
    (w.after o).Made := by
  constructor
  · intro x hx
    show _ < o.session.created
    rw [hcreated]
    rcases List.mem_append.1 hx with hx | hx
    · exact h.log x hx
    · exact heffects x hx
  · intro hd hhd
    show _ < o.session.created
    rw [hcreated]
    exact hhandshake hd hhd
  · intro t ht
    show _ < o.session.created
    rw [hcreated]
    exact hthreads t ht

theorem World.Made.step {w : World κ} (h : w.Made) (op : Op κ) : (w.step C op).Made := by
  have hquiet : ∀ result, (w.after ⟨w.session, [], result⟩).Made := fun result =>
    h.after rfl (by simp) h.handshake h.threads
  have hteardown : ∀ result, (w.after ⟨w.session.teardown, [], result⟩).Made := fun result =>
    h.after rfl (by simp) (by rintro hd ⟨⟩) h.threads
  cases op with
  | connect r io =>
    rw [World.step, Session.step, Session.connect.eq_def]
    split
    · exact hquiet _
    · split
      · exact hquiet _
      · exact hquiet _
      · have hlt := Nat.lt_succ_self w.session.created
        refine ⟨fun x hx => ?_, ?_, fun t ht => (h.threads t ht).trans hlt⟩
        · exact (h.log x (by simpa [World.after] using hx)).trans hlt
        · rintro hd ⟨⟩
          exact hlt
  | complete response =>
    rw [World.step, Session.step, Session.complete.eq_def]
    split
    · next hd hhd =>
      split
      · refine h.after rfl (by simp) ?_ h.threads
        rintro hd' ⟨⟩
        exact h.handshake hd hhd
      · exact hteardown _
    · exact hquiet _
    · exact hquiet _
  | probe io =>
    rcases probe_cases C w.session io with
      ⟨hs, he⟩ | ⟨hd, written, nextIn, opened, hhd, hreply, hs, he⟩
    · exact h.after (by rw [Session.step, hs]) (by simp [Session.step, he])
        (by rw [Session.step, hs]; exact h.handshake) (by rw [Session.step, hs]; exact h.threads)
    · refine h.after (by rw [Session.step, hs]) ?_ (by rw [Session.step, hs]; exact h.handshake)
        (by rw [Session.step, hs]; exact h.threads)
      rw [Session.step, he]
      have hlt := h.handshake hd hhd
      cases hreply <;> simpa [Effect.handle] using hlt
  | startPump blockIpv6 io =>
    rw [World.step, Session.step, Session.startPump]
    split
    · exact hquiet _
    · next hd hhd =>
      split_ifs
      · exact hquiet _
      · exact hquiet _
      · split
        · exact hquiet _
        · refine h.after rfl (by simp) h.handshake ?_
          dsimp only
          rw [TunnelPump.start]
          split_ifs
          · exact h.threads
          · dsimp only
            split
            · exact h.threads
            · rintro t ⟨⟩
              exact h.handshake hd hhd
  | stopPump => exact h.after rfl (by simp [Session.step]) h.handshake h.threads
  | disconnect => exact hteardown _
  | outbound e =>
    rcases ht : w.session.pump.threads with _ | t
    · rw [World.step, Session.step, outboundTurn_none ht]
      exact hquiet _
    · have hlt := h.threads t ht
      rcases outboundTurn_eq (C := C) ht e with
        heq | ⟨out, record, pump, t', -, heq, ht', hhandle, -⟩
      · rw [World.step, Session.step, heq]
        exact hquiet _
      · rw [World.step, Session.step, heq]
        refine h.after rfl ?_ h.handshake ?_
        · intro x hx
          obtain ⟨r, -, rfl⟩ := List.mem_map.1 hx
          exact hlt
        · intro t'' ht''
          obtain rfl : t' = t'' := Option.some.inj (ht'.symm.trans ht'')
          rwa [hhandle]
  | inbound e =>
    rcases ht : w.session.pump.threads with _ | t
    · rw [World.step, Session.step, inboundTurn_none ht]
      exact hquiet _
    · have hlt := h.threads t ht
      obtain ⟨pump, t', plaintext, heq, ht', hhandle, -⟩ := inboundTurn_eq (C := C) ht e
      rw [World.step, Session.step, heq]
      refine h.after rfl ?_ h.handshake ?_
      · intro x hx
        obtain ⟨pt, -, rfl⟩ := List.mem_map.1 hx
        exact hlt
      · intro t'' ht''
        obtain rfl : t' = t'' := Option.some.inj (ht'.symm.trans ht'')
        rwa [hhandle]

/-! ## One step -/

/-- The handshake of a session and that of its pump's threads, by number. -/
def Session.handles (s : Session κ) : Option ℕ × Option ℕ :=
  (s.handshake.map Handle.id, s.pump.threads.map fun t => t.handle.id)

theorem Session.unpumped_iff {s : Session κ} :
    s.Unpumped ↔ ∀ i ∈ s.handles.1, ∀ j ∈ s.handles.2, j ≠ i := by
  simp [Session.Unpumped, Session.handles]

/-- An outcome that leaves the counters and the handshakes alone, and whose effects
are not about the session's handshake. -/
theorem CountersMatch.after {w : World κ} (hw : CountersMatch w) {o : Outcome κ}
    (hhandles : o.session.handles = w.session.handles)
    (hout : o.session.nextOutSeq = w.session.nextOutSeq)
    (hin : o.session.nextInSeq = w.session.nextInSeq)
    (heffects : ∀ x ∈ o.effects, ∃ t ∈ w.session.pump.threads, x.handle = t.handle.id) :
    CountersMatch (w.after o) := by
  intro hfree h hh
  have hfree : w.session.Unpumped := by
    rwa [Session.unpumped_iff, ← hhandles, ← Session.unpumped_iff]
  obtain ⟨h', hh', hid⟩ : ∃ h' ∈ w.session.handshake, h'.id = h.id :=
    Option.map_eq_some_iff.1 ((congrArg Prod.fst hhandles).symm.trans
      (Option.map_eq_some_iff.2 ⟨h, hh, rfl⟩))
  obtain ⟨hprobes, hopens⟩ : probesWritten o.effects h.id = 0 ∧ recordsOpened o.effects h.id = 0 := by
    refine counts_of_others fun x hx heq => ?_
    obtain ⟨t, ht, hxt⟩ := heffects x hx
    exact hfree h' hh' t ht (by rw [← hxt, heq, hid])
  obtain ⟨hout', hin'⟩ := hw hfree h' hh'
  rw [hid] at hout' hin'
  refine ⟨?_, ?_⟩
  · rw [World.after, probesWritten_append, hprobes, Nat.add_zero]
    exact hout.trans hout'
  · rw [World.after, recordsOpened_append, hopens, Nat.add_zero]
    exact hin.trans hin'

/-- An outcome without effects that leaves the counters and the handshakes alone. -/
theorem CountersMatch.quiet {w : World κ} (hw : CountersMatch w) {o : Outcome κ}
    (hhandles : o.session.handles = w.session.handles)
    (hout : o.session.nextOutSeq = w.session.nextOutSeq)
    (hin : o.session.nextInSeq = w.session.nextInSeq) (heffects : o.effects = []) :
    CountersMatch (w.after o) :=
  hw.after hhandles hout hin (by simp [heffects])

/-- An outcome that leaves no handshake. -/
theorem countersMatch_of_none {w : World κ} (h : w.session.handshake = none) : CountersMatch w := by
  intro _ hd hhd
  rw [h] at hhd
  cases hhd

/-- An outcome that leaves a pump started under the session's handshake. -/
theorem countersMatch_of_pumped {w : World κ} {h : Handle κ} {t : PumpThreads κ}
    (hh : w.session.handshake = some h) (ht : w.session.pump.threads = some t)
    (hid : t.handle.id = h.id) : CountersMatch w :=
  fun hfree => absurd hid (hfree h hh t ht)

/-- A connect: the new handshake has no records yet, and no pump. -/
theorem countersMatch_connect {w : World κ} (hm : w.Made) (hw : CountersMatch w)
    (r : ConnectRequest κ) (io : Option String) :
    CountersMatch (w.step C (.connect r io)) ↔ KeepsCounters C w (.connect r io) := by
  rw [World.step, Session.step, Session.connect.eq_def]
  cases io with
  | some reason => exact iff_of_true (hw.quiet rfl rfl rfl rfl) trivial
  | none =>
    rw [KeepsCounters]
    dsimp only
    split
    · next he =>
      exact iff_of_true (hw.quiet rfl rfl rfl rfl) fun st hst => by rw [he] at hst; cases hst
    · next he =>
      exact iff_of_true (hw.quiet rfl rfl rfl rfl) fun st hst => by rw [he] at hst; cases hst
    · next st he =>
      obtain ⟨hprobes, hopened⟩ := hm.count_eq_zero
      constructor
      · intro h _ _
        have := h ?_ _ rfl
        · simpa [World.after, hprobes, hopened] using this
        · rintro hd ⟨⟩ t ht
          exact (hm.threads t ht).ne
      · intro h _ hd hhd
        obtain rfl := Option.some.inj hhd
        simpa [World.after, hprobes, hopened] using h st he

/-- A probe: each counter moves with its records, unless a record opened to
something else. -/
theorem countersMatch_probe {w : World κ} (hw : CountersMatch w) (io : ProbeIo) :
    CountersMatch (w.step C (.probe io)) ↔ KeepsCounters C w (.probe io) := by
  rcases probe_cases C w.session io with
    ⟨hs, he⟩ | ⟨h, written, nextIn, opened, hh, hreply, hs, he⟩
  · have hsame : (w.session.step C (.probe io)).session = w.session := by rw [Session.step.eq_def, hs]
    refine iff_of_true (hw.quiet ?_ ?_ ?_ he) fun _ handle pt hmem => ?_
    · rw [hsame]
    · rw [hsame]
    · rw [hsame]
    · rw [he] at hmem
      cases hmem
  · have hstep : CountersMatch (w.step C (.probe io)) ↔
        (w.session.Unpumped →
          (if written then w.session.nextOutSeq + 1 else w.session.nextOutSeq)
              = UInt64.ofNat (probesWritten w.log h.id) + (if written then 1 else 0) ∧
            nextIn = UInt64.ofNat (recordsOpened w.log h.id) + UInt64.ofNat opened.length) := by
      have hprobes : probesWritten (w.log ++ (w.session.probe C io).effects) h.id
          = probesWritten w.log h.id + if written then 1 else 0 := by
        cases hreply <;>
          simp [he, probesWritten, List.countP_append, List.countP_cons, Effect.isProbeWritten]
      have hopens : recordsOpened (w.log ++ (w.session.probe C io).effects) h.id
          = recordsOpened w.log h.id + opened.length := by
        cases hreply <;>
          simp [he, recordsOpened, List.countP_append, Effect.isOpened]
      have hh' : ((w.session.probe C io).session).handshake = some h := by rw [hs]; exact hh
      have hfree' : (w.session.probe C io).session.Unpumped ↔ w.session.Unpumped := by
        rw [hs]
        exact Iff.rfl
      constructor
      · intro hstep hfree
        have := hstep (hfree'.2 hfree) h hh'
        simp only [World.step, World.after, Session.step, hs, hprobes, hopens] at this
        rw [UInt64.ofNat_add, UInt64.ofNat_add] at this
        cases written <;> simpa using this
      · intro hstep hfree hd hhd
        obtain rfl : h = hd := Option.some.inj (hh'.symm.trans hhd)
        have := hstep (hfree'.1 hfree)
        simp only [World.step, World.after, Session.step, hs, hprobes, hopens]
        rw [UInt64.ofNat_add, UInt64.ofNat_add]
        cases written <;> simpa using this
    rw [hstep, KeepsCounters, he]
    refine forall_congr' fun hfree => ?_
    obtain ⟨hprobes, hopened⟩ := hw hfree h hh
    cases hreply with
    | nothing written => cases written <;> simp [hprobes, hopened]
    | mismatch pt hne => simp [hprobes, hopened, hne]
    | echo => simp [hprobes, hopened]

/-- **One step** keeps the counters with the handshake exactly under its condition. -/
theorem countersMatch_step {w : World κ} (hm : w.Made) (hw : CountersMatch w) (op : Op κ) :
    CountersMatch (w.step C op) ↔ KeepsCounters C w op := by
  cases op with
  | connect r io => exact countersMatch_connect hm hw r io
  | probe io => exact countersMatch_probe hw io
  | complete response =>
    refine iff_of_true ?_ trivial
    rw [World.step, Session.step, Session.complete.eq_def]
    split
    · next h hh =>
      split
      · exact hw.quiet (by simp [Session.handles, hh]) rfl rfl rfl
      · exact countersMatch_of_none rfl
    · exact hw.quiet rfl rfl rfl rfl
    · exact hw.quiet rfl rfl rfl rfl
  | startPump blockIpv6 io =>
    refine iff_of_true ?_ trivial
    rw [World.step, Session.step, Session.startPump]
    split
    · exact hw.quiet rfl rfl rfl rfl
    · next h hh =>
      split_ifs
      · exact hw.quiet rfl rfl rfl rfl
      · exact hw.quiet rfl rfl rfl rfl
      · split
        · exact hw.quiet rfl rfl rfl rfl
        · simp only [TunnelPump.start]
          split_ifs
          · exact hw.quiet rfl rfl rfl rfl
          · split
            · exact hw.quiet rfl rfl rfl rfl
            · exact countersMatch_of_pumped hh rfl rfl
  | stopPump => exact iff_of_true (hw.quiet rfl rfl rfl rfl) trivial
  | disconnect => exact iff_of_true (countersMatch_of_none rfl) trivial
  | outbound e =>
    refine iff_of_true ?_ trivial
    rcases ht : w.session.pump.threads with _ | t
    · rw [World.step, Session.step, outboundTurn_none ht]
      exact hw.quiet rfl rfl rfl rfl
    · rcases outboundTurn_eq (C := C) ht e with
        heq | ⟨out, record, pump, t', -, heq, ht', hhandle, -⟩
      · rw [World.step, Session.step, heq]
        exact hw.quiet rfl rfl rfl rfl
      · rw [World.step, Session.step, heq]
        refine hw.after (by simp [Session.handles, ht, ht', hhandle]) rfl rfl fun x hx => ?_
        obtain ⟨r, -, rfl⟩ := List.mem_map.1 hx
        exact ⟨t, ht, rfl⟩
  | inbound e =>
    refine iff_of_true ?_ trivial
    rcases ht : w.session.pump.threads with _ | t
    · rw [World.step, Session.step, inboundTurn_none ht]
      exact hw.quiet rfl rfl rfl rfl
    · obtain ⟨pump, t', plaintext, heq, ht', hhandle, -⟩ := inboundTurn_eq (C := C) ht e
      rw [World.step, Session.step, heq]
      refine hw.after (by simp [Session.handles, ht, ht', hhandle]) rfl rfl fun x hx => ?_
      obtain ⟨pt, -, rfl⟩ := List.mem_map.1 hx
      exact ⟨t, ht, rfl⟩

/-! ## Every history -/

/-- **When the counters belong to the handshake.**  In a run of native operations
the counters of the session count, in every state before a pump start under its
handshake, the probes written and the records opened under it, if and only if
every connect that installs a handshake finds both at zero and every record that
a probe opens before that start is its echo. -/
theorem counters_match_iff (C : Crypto κ UInt8) (ops : List (Op κ)) :
    Machine.Always (World.step C) CountersMatch World.new ops ↔
      Machine.Along (World.step C) (KeepsCounters C) World.new ops :=
  Machine.always_iff_along (I := World.Made) (fun _ op hm => hm.step op)
    (fun _ op hm hw => countersMatch_step hm hw op) ops made_new (countersMatch_of_none rfl)

/-- A second connect without a teardown finds the probes of the first in the counters. -/
theorem not_counters_match_reconnect :
    ¬ Machine.Always (World.step Crypto.toy) CountersMatch World.new
      [.connect sampleRequest none, .complete (some sampleResponse), .probe ⟨none, none, .ok none⟩,
        .connect sampleRequest none] := by
  intro h
  have hlast := h.last
  revert hlast
  decide +kernel

end ShadeVpn.Native
