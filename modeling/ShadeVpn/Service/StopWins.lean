import ShadeVpn.Service.VpnService

/-!
# Stop wins

When the last command was a STOP and all threads have finished, the native session
is to be down.  A connect thread that a STOP has overtaken looks at the generation
only before a retry and before the pump start; when it is on its way to
`nativeConnectTunnel`, the STOP's teardown can come before it stores its session.

`TunnelPump::stop` sets a flag and waits for nobody: the pump runs until both halves
have seen it, and for ever if a half has panicked or a start has failed behind its
store to `running`.

* `stopWins_of_inTime` — a STOP wins in every run where no connect stores a session
  behind the teardown of the last STOP, and the last thread ends behind the pump's halves.
* `not_stopWins` — a connect that does, and leaves its session behind.
-/

namespace ShadeVpn.Native

open Octets Checked Handshake Transport Vless Pump

variable {κ : Type} {C : Crypto κ UInt8} {ι : Type} [DecidableEq ι]

/-! ## A pump that counts its halves -/

/-- A pump that runs has threads, and `alive` still counts one of them. -/
structure TunnelPump.Counted (p : TunnelPump κ) : Prop where
  consistent : p.Consistent
  counts : p.running = true → p.alive ≠ 0
  started : p.running = true → p.threads ≠ none

/-- Both halves have left their loops, and neither by a panic. -/
def TunnelPump.Left (p : TunnelPump κ) : Prop :=
  ∀ t ∈ p.threads, unfinished t.outExit = 0 ∧ unfinished t.inExit = 0

instance (p : TunnelPump κ) : Decidable p.Left :=
  inferInstanceAs (Decidable (∀ t ∈ p.threads, _))

/-- A pump whose halves have left does not run. -/
theorem TunnelPump.Counted.stopped {p : TunnelPump κ} (h : p.Counted) (hleft : p.Left) :
    p.running = false := by
  rw [← Bool.not_eq_true]
  intro hrunning
  obtain ⟨t, ht⟩ := Option.ne_none_iff_exists'.1 (h.started hrunning)
  have halive := h.consistent.alive t ht
  rw [(hleft t ht).1, (hleft t ht).2] at halive
  exact h.counts hrunning halive

theorem counted_halted {p : TunnelPump κ} (h : p.Counted) : p.halted.Counted :=
  ⟨consistent_halted h.consistent, h.counts, h.started⟩

/-- The threads may see another state of their handshake. -/
theorem counted_now {p : TunnelPump κ} (h : p.Counted)
    (cells : ℕ → Option (HandshakeState κ UInt8)) : (p.now cells).Counted := by
  refine ⟨⟨h.consistent.running, ?_⟩, h.counts, fun hrunning hnone => ?_⟩
  · intro t ht
    obtain ⟨t', ht', rfl⟩ := Option.map_eq_some_iff.1 ht
    exact h.consistent.alive t' ht'
  · exact h.started hrunning (Option.map_eq_none_iff.1 hnone)

/-- A half that signs off only ever clears `running`, and it does so when it is the last. -/
theorem signOff_running {p : TunnelPump κ} {before after : Option Exit} {halts : Exit}
    (h : (p.signOff before after halts).running = true) :
    p.running = true ∧ (p.alive ≠ 0 → (p.signOff before after halts).alive ≠ 0) := by
  rw [TunnelPump.signOff.eq_def] at h ⊢
  split at h
  · next why =>
    have hfinish : ∀ q : TunnelPump κ, (q.finish why).running = true →
        q.running = true ∧ (q.alive ≠ 0 → (q.finish why).alive ≠ 0) := by
      intro q hq
      rw [TunnelPump.finish] at hq ⊢
      split_ifs at hq ⊢ with hpanic hone
      · exact ⟨hq, id⟩
      · refine ⟨hq, fun hne => ?_⟩
        show q.alive - 1 ≠ 0
        omega
    split_ifs at h ⊢ <;> exact hfinish _ h
  · exact ⟨h, id⟩

/-- A pump start on a socket that can be cloned. -/
theorem counted_start {p : TunnelPump κ} (h : p.Counted) (handle : Handle κ)
    (config : PumpConfig) (nextOutSeq nextInSeq : UInt64) {io : StartIo}
    (hclone : io.outClone = none) :
    (p.start handle config nextOutSeq nextInSeq io).2.Counted := by
  refine ⟨consistent_start h.consistent handle config nextOutSeq nextInSeq io, ?_, ?_⟩
  · rw [TunnelPump.start, hclone]
    split_ifs
    · exact h.counts
    · exact fun _ => by simp
  · rw [TunnelPump.start, hclone]
    split_ifs
    · exact h.started
    · exact fun _ => by simp

/-- A turn of a pump thread. -/
def Session.turned (C : Crypto κ UInt8) (s : Session κ) (e : TunRead ⊕ SocketRead) : TunnelPump κ :=
  (e.elim (s.outboundTurn C ·) (s.inboundTurn C ·)).session.pump

/-- What a turn does to `running`, to `alive` and to the threads: nothing, or a half signs off. -/
theorem turned_cases (s : Session κ) (e : TunRead ⊕ SocketRead) :
    s.turned C e = s.pump ∨ ∃ (p : TunnelPump κ) (before after : Option Exit) (halts : Exit),
      s.turned C e = p.signOff before after halts ∧ p.running = s.pump.running ∧
        p.alive = s.pump.alive ∧ p.threads ≠ none := by
  rcases e with e | e
  · show (s.outboundTurn C e).session.pump = _ ∨ ∃ p before after halts,
      (s.outboundTurn C e).session.pump = _ ∧ _
    rw [Session.outboundTurn.eq_def]
    split
    · exact Or.inl rfl
    · dsimp only
      split_ifs
      · exact Or.inl rfl
      · exact Or.inr ⟨_, _, _, _, rfl, rfl, rfl, by simp⟩
  · show (s.inboundTurn C e).session.pump = _ ∨ ∃ p before after halts,
      (s.inboundTurn C e).session.pump = _ ∧ _
    rw [Session.inboundTurn.eq_def]
    split
    · exact Or.inl rfl
    · dsimp only
      split_ifs
      · exact Or.inl rfl
      · exact Or.inr ⟨_, _, _, _, rfl, rfl, rfl, by simp⟩

/-- No turn sets `running`. -/
theorem turned_running {s : Session κ} {e : TunRead ⊕ SocketRead}
    (h : (s.turned C e).running = true) : s.pump.running = true := by
  rcases turned_cases (C := C) s e with hsame | ⟨p, before, after, halts, hturned, hrunning, -, -⟩
  · rwa [hsame] at h
  · rw [hturned] at h
    rw [← hrunning]
    exact (signOff_running h).1

theorem counted_turned {s : Session κ} (h : s.pump.Counted) (e : TunRead ⊕ SocketRead) :
    (s.turned C e).Counted := by
  have hconsistent : (s.turned C e).Consistent := by
    rcases e with e | e
    · exact consistent_step (C := C) h.consistent (.outbound e)
    · exact consistent_step (C := C) h.consistent (.inbound e)
  refine ⟨hconsistent, fun hrunning => ?_, fun hrunning => ?_⟩
  · have hbefore := turned_running hrunning
    rcases turned_cases (C := C) s e with hsame | ⟨p, before, after, halts, hturned, -, halive, -⟩
    · rw [hsame]
      exact h.counts hbefore
    · rw [hturned] at hrunning ⊢
      exact (signOff_running hrunning).2 (halive ▸ h.counts hbefore)
  · have hbefore := turned_running hrunning
    rcases turned_cases (C := C) s e with hsame | ⟨p, before, after, halts, hturned, -, -, hthreads⟩
    · rw [hsame]
      exact h.started hbefore
    · rw [hturned, signOff_threads]
      exact hthreads

/-- The clone a pump start behind its checks makes of its socket fails with this. -/
def ThreadState.outClone : ThreadState κ → Option String
  | .reading _ _ io => io.outClone
  | _ => none

/-- What a step can do to the pump. -/
inductive Shared.PumpStep (C : Crypto κ UInt8) (s : Shared ι κ) (i : ι) : TunnelPump κ → Prop
  | same : PumpStep C s i s.session.pump
  | halted : PumpStep C s i s.session.pump.halted
  | turned (e : TunRead ⊕ SocketRead) : PumpStep C s i (s.current.turned C e)
  | started {h : Handle κ} {blockIpv6 : Bool} {io : StartIo}
    (here : s.thread i = .reading h blockIpv6 io) :
    PumpStep C s i (s.session.startPumpOn (h.now s.cells) blockIpv6 io).session.pump

theorem Shared.Moves.pumpStep {s s' : Shared ι κ} {i : ι} (hmove : Shared.Moves C s i s') :
    Shared.PumpStep C s i s'.session.pump := by
  cases hmove with
  | dropRejected here free => exact .halted
  | drop here free => exact .halted
  | stop here free => exact .halted
  | read here => exact .started here
  | @outbound e here => exact .turned (.inl e)
  | @inbound e here => exact .turned (.inr e)
  | @sealed h io here =>
    obtain ⟨⟨nextOut, nextIn, hsession⟩, -⟩ := probeOn_keeps (C := C) s.session (h.now s.cells) io
    show Shared.PumpStep C s i (s.session.probeOn C (h.now s.cells) io).session.pump
    rw [hsession]
    exact .same
  | _ => exact .same

omit [DecidableEq ι] in
/-- A step keeps the count, unless a pump start cannot clone its socket. -/
theorem Shared.PumpStep.counted {s : Shared ι κ} {i : ι} {p : TunnelPump κ}
    (hstep : Shared.PumpStep C s i p) (h : s.session.pump.Counted)
    (hclone : (s.thread i).outClone = none) : p.Counted := by
  cases hstep with
  | same => exact h
  | halted => exact counted_halted h
  | turned e => exact counted_turned (counted_now h s.cells) e
  | started here =>
    rw [here] at hclone
    exact counted_start h _ _ _ _ hclone

omit [DecidableEq ι] in
/-- Only a pump start sets `running`. -/
theorem Shared.PumpStep.running {s : Shared ι κ} {i : ι} {p : TunnelPump κ}
    (hstep : Shared.PumpStep C s i p) (hreads : (s.thread i).reads = none)
    (hrunning : p.running = true) : s.session.pump.running = true := by
  cases hstep with
  | same => exact hrunning
  | halted => exact hrunning
  | turned e => exact turned_running (s := s.current) hrunning
  | started here =>
    rw [here] at hreads
    cases hreads

/-! ## A native session that is down -/

/-- No handshake, no socket, and a pump that has been told to stop, with no pump start
behind its checks. -/
structure Shared.Down (s : Shared ι κ) : Prop where
  handshake : s.session.handshake = none
  socket : s.session.socket = false
  stop : s.session.pump.stop = true
  reads : ∀ i, (s.thread i).reads = none

/-- A step that leaves the session as it is, or what is left of it. -/
theorem Shared.Down.frame {s s' : Shared ι κ} (h : s.Down) {i : ι} {t : ThreadState κ}
    (reads : t.reads = none) (hthread : s'.thread = Function.update s.thread i t)
    (hhandshake : s'.session.handshake = s.session.handshake)
    (hsocket : s'.session.socket = s.session.socket)
    (hstop : s'.session.pump.stop = s.session.pump.stop) : s'.Down := by
  constructor
  · rw [hhandshake, h.handshake]
  · rw [hsocket, h.socket]
  · rw [hstop, h.stop]
  · rw [hthread]
    exact (Function.forall_update_iff s.thread (fun _ u => u.reads = none)).2
      ⟨reads, fun j _ => h.reads j⟩

omit [DecidableEq ι] in
/-- Nothing passes its checks on a session that is down. -/
theorem Shared.Down.gate {s : Shared ι κ} (h : s.Down) {clone : Option String} {hd : Handle κ} :
    s.current.gate clone ≠ .ok hd := by
  intro hgate
  obtain ⟨hd', hhd', -⟩ := Option.map_eq_some_iff.1 (gate_ok hgate).1
  rw [h.handshake] at hhd'
  cases hhd'

/-- A teardown takes the session down. -/
theorem Shared.Locked.drop {s s' : Shared ι κ} (h : s.Locked) {i : ι} {t : ThreadState κ}
    (free : s.lock = none) (reads : t.reads = none)
    (hthread : s'.thread = Function.update s.thread i t) (hsession : s'.session = s.session.drop) :
    s'.Down := by
  constructor
  · rw [hsession]
    rfl
  · rw [hsession]
    rfl
  · rw [hsession]
    rfl
  · rw [hthread]
    refine (Function.forall_update_iff s.thread (fun _ u => u.reads = none)).2 ⟨reads, ?_⟩
    intro j hij
    exact ThreadState.reads_none (h.not_holds (i := i) (Or.inl free) hij)

omit [DecidableEq ι] in
/-- A turn of a pump thread leaves a session down. -/
theorem Shared.Down.after {s : Shared ι κ} (h : s.Down) {o : Outcome κ}
    (hpump : ∃ pump, o.session = { s.current with pump } ∧ pump.stop = s.current.pump.stop) :
    (s.after o).Down := by
  obtain ⟨pump, hsession, hstop⟩ := hpump
  have hnone : s.current.handshake = none := by
    simp only [Shared.current, Session.now, h.handshake, Option.map_none]
  constructor
  · simp only [Shared.after, hsession, hnone]
  · simp only [Shared.after, hsession]
    exact h.socket
  · simp only [Shared.after, hsession, hstop]
    exact h.stop
  · exact h.reads

/-- **A session that is down stays down** until a connect stores a session. -/
theorem Shared.Down.step {s s' : Shared ι κ} (h : s.Down) (hlocked : s.Locked) {i : ι}
    (hmove : Shared.Moves C s i s')
    (hstores : ∀ r state, s.thread i = .connecting r none →
      initiate C r.params r.ephemeral r.unixTime = .ok state → s.lock ≠ none) : s'.Down := by
  cases hmove with
  | idle => exact h
  | unreached here e => exact h.frame rfl rfl rfl rfl rfl
  | install here hinit free => exact absurd free (hstores _ _ here hinit)
  | storeVless here => exact h.frame rfl rfl rfl rfl rfl
  | noClone here e => exact h.frame rfl rfl rfl rfl rfl
  | clone here hh free => exact h.frame rfl rfl rfl rfl rfl
  | accepted here => exact h.frame rfl rfl rfl rfl rfl
  | refused here => exact h.frame rfl rfl rfl rfl rfl
  | advance here hmove hgoing => exact h.frame rfl rfl rfl rfl rfl
  | dropRejected here free => exact hlocked.drop free rfl rfl rfl
  | drop here free => exact hlocked.drop free rfl rfl rfl
  | clear here => exact h.frame rfl rfl rfl rfl rfl
  | noProbe here e => exact h.frame rfl rfl rfl rfl rfl
  | probe here free hgate => exact absurd hgate h.gate
  | @sealed hd io here =>
    obtain ⟨⟨nextOut, nextIn, hsession⟩, -⟩ := probeOn_keeps (C := C) s.session (hd.now s.cells) io
    refine h.frame rfl rfl ?_ ?_ ?_
    · simp only [Shared.goto, Shared.after, hsession]
    · simp only [Shared.goto, Shared.after, hsession]
    · simp only [Shared.goto, Shared.after, hsession]
  | noStart here e => exact h.frame rfl rfl rfl rfl rfl
  | start here free hgate => exact absurd hgate h.gate
  | read here =>
    have := h.reads i
    rw [here] at this
    cases this
  | stop here free => exact h.frame rfl rfl rfl rfl h.stop.symm
  | outbound here =>
    exact (h.after (outboundTurn_pump s.current _)).frame rfl rfl rfl rfl rfl
  | inbound here =>
    exact (h.after (inboundTurn_pump s.current _)).frame rfl rfl rfl rfl rfl

end ShadeVpn.Native

namespace ShadeVpn.Service

open Octets Checked Handshake Transport Pump Native

variable {ι κ : Type} [DecidableEq ι] {C : Crypto κ UInt8} {os : Platform}

/-! ## The property and the condition -/

/-- When the last command was a STOP and all its connect and disconnect threads have
finished, the session has no handshake, no socket and no running pump. -/
def ShadeVpnService.StopWins (s : ShadeVpnService ι κ) : Prop :=
  s.stopping.isSome → (∀ i, (s.thread i).done = true) →
    s.native.session.handshake = none ∧ s.native.session.socket = false ∧
      s.native.session.pump.running = false

/-- The disconnect thread of a STOP has its teardown before it. -/
def ShadeVpnService.awaits (s : ShadeVpnService ι κ) (d : ι) : Bool :=
  match s.thread d with
  | .disconnect t =>
    match t.stage, s.native.thread d with
    | .disconnect, _ => true
    | .disconnected, .disconnecting => true
    | _, _ => false
  | _ => false

/-- The next step of the thread is its last. -/
def ServiceThread.ending : ServiceThread → Bool
  | .connect ⟨_, _, _, _, [], .ended⟩ => true
  | .disconnect ⟨_, [], .ended⟩ => true
  | _ => false

variable (C) in
/-- A step of thread `i`: it stores no session behind the teardown of the last STOP, it
starts no pump on a socket that cannot be cloned, and if it is the last to end behind a
STOP, both halves of the pump have left their loops before it. -/
structure ShadeVpnService.StepInTime (s : ShadeVpnService ι κ) (i : ι) : Prop where
  stores : s.stores C i = true → ∀ d ∈ s.stopping, s.awaits d = true
  clones : (s.native.thread i).outClone = none
  ends : s.stopping.isSome = true → (s.thread i).ending = true →
    (∀ j, j ≠ i → (s.thread j).done = true) → s.native.session.pump.Left

variable (C) in
/-- The condition on a step of the service. -/
def ShadeVpnService.InTime (s : ShadeVpnService ι κ) : Event ι κ → Prop
  | .step i _ => s.StepInTime C i
  | _ => True

instance [Fintype ι] (s : ShadeVpnService ι κ) (i : ι) : Decidable (s.StepInTime C i) :=
  decidable_of_iff
    ((s.stores C i = true → ∀ d ∈ s.stopping, s.awaits d = true) ∧
      (s.native.thread i).outClone.isNone = true ∧
      (s.stopping.isSome = true → (s.thread i).ending = true →
        (∀ j, j ≠ i → (s.thread j).done = true) → s.native.session.pump.Left))
    ⟨fun ⟨stores, clones, ends⟩ => ⟨stores, Option.isNone_iff_eq_none.1 clones, ends⟩,
      fun h => ⟨h.stores, Option.isNone_iff_eq_none.2 h.clones, h.ends⟩⟩

instance [Fintype ι] (s : ShadeVpnService ι κ) : DecidablePred (s.InTime C)
  | .step i _ => inferInstanceAs (Decidable (s.StepInTime C i))
  | .start _ _ _ | .stop _ | .turn _ => isTrue trivial

/-! ## What every such run keeps -/

/-- The session lock is with its holder, and behind the teardown of the last STOP the
session is down. -/
structure ShadeVpnService.Stopped (s : ShadeVpnService ι κ) : Prop where
  locked : s.native.Locked
  down : ∀ d ∈ s.stopping, s.awaits d = true ∨ s.native.Down

omit [DecidableEq ι] in
theorem awaits_congr {s s' : ShadeVpnService ι κ} {d : ι} (hthread : s'.thread d = s.thread d)
    (hnative : s'.native.thread d = s.native.thread d) : s'.awaits d = s.awaits d := by
  unfold ShadeVpnService.awaits
  rw [hthread, hnative]

theorem entry_reads (op : Op κ) : op.entry.reads = none := by
  cases op <;> rfl

theorem entry_not_holds (op : Op κ) : ¬ op.entry.Holds := by
  cases op <;> exact id

/-- A step outside the native layer. -/
theorem ShadeVpnService.Stopped.beside {s s' : ShadeVpnService ι κ} (h : s.Stopped) {i : ι}
    (hbeside : s.Beside i s') (hown : ∀ d ∈ s.stopping, d = i → s.awaits d = true →
      s'.awaits d = true) : s'.Stopped := by
  have hlocked : s'.native.Locked := by
    rcases hbeside.native with hsame | ⟨op, hcall⟩
    · rw [hsame]
      exact h.locked
    · rw [hcall]
      exact h.locked.kept (entry_not_holds op) rfl rfl
  refine ⟨hlocked, ?_⟩
  rw [hbeside.stopping]
  intro d hd
  rcases h.down d hd with hawaits | hdown
  · left
    by_cases hdi : d = i
    · exact hown d hd hdi hawaits
    · rw [awaits_congr (hbeside.thread d hdi)]
      · exact hawaits
      · rcases hbeside.native with hsame | ⟨op, hcall⟩
        · rw [hsame]
        · rw [hcall]
          exact Function.update_of_ne hdi _ _
  · right
    rcases hbeside.native with hsame | ⟨op, hcall⟩
    · rw [hsame]
      exact hdown
    · rw [hcall]
      exact hdown.frame (entry_reads op) rfl rfl rfl rfl

/-- A disconnect thread before its teardown is still before it after a native step, or
has just made it. -/
theorem awaits_native {s : ShadeVpnService ι κ} (hlocked : s.native.Locked) (i : ι) {d : ι}
    (hawaits : s.awaits d = true) :
    (s.nativeStep C i).awaits d = true ∨ (s.nativeStep C i).native.Down := by
  have hmove := Shared.step_moves (C := C) s.native i
  by_cases hdi : d = i
  · subst hdi
    unfold ShadeVpnService.awaits at hawaits
    split at hawaits
    · next t here =>
      split at hawaits
      · next hstage =>
        left
        simp only [ShadeVpnService.awaits, ShadeVpnService.nativeStep, here, hstage]
      · next hstage hat =>
        show _ ∨ (s.native.step C d).Down
        generalize hs' : s.native.step C d = s' at hmove
        cases hmove with
        | idle =>
          left
          simp only [ShadeVpnService.awaits, ShadeVpnService.nativeStep, here, hstage, hs', hat]
        | drop here free => exact Or.inr (hlocked.drop free rfl rfl rfl)
        | _ => simp_all
      · cases hawaits
    · cases hawaits
  · left
    have hsame : (s.native.step C i).thread d = s.native.thread d := by
      rw [hmove.thread, Function.update_of_ne hdi]
    have hcongr : (s.nativeStep C i).awaits d = s.awaits d := awaits_congr rfl hsame
    rw [hcongr]
    exact hawaits

/-- A step of a native call: behind the teardown of the last STOP it stores no session. -/
theorem ShadeVpnService.Stopped.native {s : ShadeVpnService ι κ} (h : s.Stopped) {i : ι}
    (hintime : s.stores C i = true → ∀ d ∈ s.stopping, s.awaits d = true) :
    (s.nativeStep C i).Stopped := by
  have hmove := Shared.step_moves (C := C) s.native i
  refine ⟨h.locked.step hmove, ?_⟩
  intro d hd
  rcases h.down d hd with hawaits | hdown
  · exact awaits_native h.locked i hawaits
  · by_cases hstores : s.stores C i = true
    · exact awaits_native h.locked i (hintime hstores d hd)
    · right
      apply hdown.step h.locked hmove
      intro r state here hinit free
      apply hstores
      simp [ShadeVpnService.stores, here, hinit, free, Except.toBool]

variable (os) in
/-- **A step keeps the session down** behind the teardown of the last STOP. -/
theorem ShadeVpnService.Stopped.step {s : ShadeVpnService ι κ} (h : s.Stopped) (e : Event ι κ)
    (hintime : s.InTime C e) : (s.step C os e).Stopped := by
  cases e with
  | start i rawProfile blockIpv6 =>
    unfold ShadeVpnService.step
    dsimp only
    split_ifs
    · exact ⟨h.locked, by rintro d ⟨⟩⟩
    · exact h
  | stop i =>
    unfold ShadeVpnService.step
    dsimp only
    split_ifs
    · refine ⟨h.locked, ?_⟩
      rintro d ⟨⟩
      left
      simp only [ShadeVpnService.awaits, ShadeVpnService.goto, Function.update_self]
    · exact h
  | turn e =>
    refine ⟨h.locked, ?_⟩
    intro d hd
    rcases h.down d hd with hawaits | hdown
    · exact Or.inl hawaits
    · right
      rcases e with e | e
      · exact hdown.after (outboundTurn_pump s.native.current e)
      · exact hdown.after (inboundTurn_pump s.native.current e)
  | step i env =>
    have hmove : ShadeVpnService.Moves C s i (s.threadStep C os i env) := s.threadStep_moves i env
    show (s.threadStep C os i env).Stopped
    generalize s.threadStep C os i env = s' at hmove
    cases hmove with
    | finished => exact h
    | native busy => exact h.native hintime.stores
    | writes here act acts =>
      refine h.beside (s.beside_perform i _ act) ?_
      rintro d - rfl hawaits
      simp only [ShadeVpnService.awaits, here] at hawaits
      cases hawaits
    | stopWrites here act acts =>
      refine h.beside (s.beside_perform i _ act) ?_
      rintro d - rfl hawaits
      simp only [ShadeVpnService.awaits, here] at hawaits
      simp only [ShadeVpnService.awaits, ShadeVpnService.goto, Function.update_self, perform_native]
      exact hawaits
    | connect here ready back hcont =>
      refine h.beside hcont.beside ?_
      rintro d - rfl hawaits
      simp only [ShadeVpnService.awaits, here] at hawaits
      cases hawaits
    | @disconnect t here ready result back =>
      refine h.beside (s.disconnectStep_beside i t) ?_
      rintro d - rfl hawaits
      have hstage : t.stage = .disconnect := by
        simp only [ShadeVpnService.awaits, here, back] at hawaits
        split at hawaits
        · assumption
        · next hat => cases hat
        · cases hawaits
      simp only [ShadeVpnService.disconnectStep, hstage, ShadeVpnService.awaits,
        ShadeVpnService.goto, ShadeVpnService.call, Shared.goto, Function.update_self, Op.entry]

omit [DecidableEq ι] in
/-- When its disconnect thread has finished, the teardown of the last STOP is made. -/
theorem ShadeVpnService.Stopped.gone {s : ShadeVpnService ι κ} (h : s.Stopped)
    (hsome : s.stopping.isSome = true) (hdone : ∀ i, (s.thread i).done = true) : s.native.Down := by
  obtain ⟨d, hd⟩ := Option.isSome_iff_exists.1 hsome
  refine (h.down d hd).resolve_left fun hawaits => ?_
  have hfinished := hdone d
  unfold ShadeVpnService.awaits at hawaits
  split at hawaits
  · next here =>
    rw [here] at hfinished
    cases hfinished
  · cases hawaits

/-! ## The end of the last thread -/

/-- A connect thread is done only with its last step, which touches nothing else. -/
theorem ShadeVpnService.Continues.ends {s s' : ShadeVpnService ι κ} {i : ι} {t : ConnectThread}
    {result : Except SessionError Unit} (h : s.Continues i t result s')
    (here : s.thread i = .connect t) (hdone : (s'.thread i).done = true) :
    t.stage = .ended ∧ s'.native = s.native := by
  have hgoing : ∀ u : ConnectThread,
      (Function.update s.thread i (.connect u) i).done = true → t.stage = .ended ∧ s'.native = s.native := by
    intro u hu
    rw [Function.update_self] at hu
    cases hu
  cases h with
  | wait =>
    rw [here] at hdone
    cases hdone
  | finish hstage => exact ⟨hstage, rfl⟩
  | _ => exact hgoing _ hdone

theorem ShadeVpnService.disconnectStep_ends {s : ShadeVpnService ι κ} {i : ι} {t : DisconnectThread}
    (hdone : ((s.disconnectStep i t).thread i).done = true) :
    t.stage = .ended ∧ (s.disconnectStep i t).native = s.native := by
  unfold ShadeVpnService.disconnectStep at hdone ⊢
  cases hstage : t.stage with
  | ended => exact ⟨rfl, rfl⟩
  | closing tun =>
    rw [hstage] at hdone
    cases tun <;>
      simp [ShadeVpnService.goto, ShadeVpnService.close, ServiceThread.done] at hdone
  | _ =>
    rw [hstage] at hdone
    simp [ShadeVpnService.goto, ShadeVpnService.call, ServiceThread.done] at hdone

/-- With its session down behind a STOP, the pump counts its halves, and does not run when
all connect and disconnect threads have finished. -/
structure ShadeVpnService.Settled (s : ShadeVpnService ι κ) : Prop where
  stopped : s.Stopped
  counted : s.native.session.pump.Counted
  settled : s.stopping.isSome = true → (∀ i, (s.thread i).done = true) →
    s.native.session.pump.running = false

/-- A step of a thread, behind which all threads have finished. -/
theorem ShadeVpnService.Settled.rests {s s' : ShadeVpnService ι κ} (h : s.Settled) {i : ι}
    (hintime : s.StepInTime C i) (hmove : ShadeVpnService.Moves C s i s')
    (hsome : s'.stopping.isSome = true) (hdone : ∀ j, (s'.thread j).done = true) :
    s'.native.session.pump.running = false := by
  -- thread `i` ends last: the halves have left before it
  have hlast : ∀ u, s.thread i = u → u.ending = true → s'.native = s.native → s.Beside i s' →
      s'.native.session.pump.running = false := by
    rintro u rfl hending hnative hbeside
    rw [hnative]
    refine h.counted.stopped (hintime.ends (hbeside.stopping ▸ hsome) hending ?_)
    intro j hij
    rw [← hbeside.thread j hij]
    exact hdone j
  cases hmove with
  | finished => exact h.settled hsome hdone
  | native busy =>
    rw [← Bool.not_eq_true]
    intro hrunning
    have hdown := h.stopped.gone hsome hdone
    have hbefore := (Shared.step_moves (C := C) s.native i).pumpStep.running (hdown.reads i) hrunning
    rw [h.settled hsome hdone] at hbefore
    cases hbefore
  | writes here act acts =>
    have hi := hdone i
    simp only [ShadeVpnService.goto, Function.update_self] at hi
    cases hi
  | stopWrites here act acts =>
    have hi := hdone i
    simp only [ShadeVpnService.goto, Function.update_self] at hi
    cases hi
  | @connect t here ready result back s' hcont =>
    obtain ⟨hstage, hnative⟩ := hcont.ends here (hdone i)
    obtain ⟨generation, blockIpv6, fd, backoff, acts, stage⟩ := t
    subst ready hstage
    exact hlast _ here rfl hnative hcont.beside
  | @disconnect t here ready result back =>
    obtain ⟨hstage, hnative⟩ := disconnectStep_ends (hdone i)
    have hbeside := s.disconnectStep_beside i t
    obtain ⟨generation, acts, stage⟩ := t
    subst ready hstage
    exact hlast _ here rfl hnative hbeside

variable (os) in
/-- **A step keeps the service settled.** -/
theorem ShadeVpnService.Settled.step {s : ShadeVpnService ι κ} (h : s.Settled) (e : Event ι κ)
    (hintime : s.InTime C e) : (s.step C os e).Settled := by
  have hstopped := h.stopped.step os e hintime
  cases e with
  | start i rawProfile blockIpv6 =>
    unfold ShadeVpnService.step at hstopped ⊢
    dsimp only at hstopped ⊢
    split_ifs at hstopped ⊢
    · exact ⟨hstopped, h.counted, fun hsome => by cases hsome⟩
    · exact h
  | stop i =>
    unfold ShadeVpnService.step at hstopped ⊢
    dsimp only at hstopped ⊢
    split_ifs at hstopped ⊢
    · refine ⟨hstopped, h.counted, fun _ hdone => ?_⟩
      have hi := hdone i
      simp only [ShadeVpnService.goto, Function.update_self] at hi
      cases hi
    · exact h
  | turn e =>
    have hturned : (s.step C os (.turn e)).native.session.pump = s.native.current.turned C e := by
      cases e <;> rfl
    refine ⟨hstopped, ?_, fun hsome hdone => ?_⟩
    · rw [hturned]
      exact counted_turned (counted_now h.counted s.native.cells) e
    · rw [hturned, ← Bool.not_eq_true]
      intro hrunning
      have hbefore : s.native.session.pump.running = true :=
        turned_running (s := s.native.current) hrunning
      rw [h.settled hsome hdone] at hbefore
      cases hbefore
  | step i env =>
    have hmove : ShadeVpnService.Moves C s i (s.step C os (.step i env)) := s.threadStep_moves i env
    generalize s.step C os (.step i env) = s' at hmove hstopped
    refine ⟨hstopped, ?_, h.rests hintime hmove⟩
    have hbeside : s.Beside i s' → s'.native.session.pump.Counted := by
      intro hbeside
      rcases hbeside.native with hsame | ⟨op, hcall⟩
      · rw [hsame]
        exact h.counted
      · rw [hcall]
        exact h.counted
    cases hmove with
    | finished => exact h.counted
    | native busy =>
      exact (Shared.step_moves (C := C) s.native i).pumpStep.counted h.counted hintime.clones
    | writes here act acts => exact hbeside (s.beside_perform i _ act)
    | stopWrites here act acts => exact hbeside (s.beside_perform i _ act)
    | connect here ready back hcont => exact hbeside hcont.beside
    | @disconnect t here ready result back => exact hbeside (s.disconnectStep_beside i t)

omit [DecidableEq ι] in
theorem settled_new (nativeVersion : String) :
    (ShadeVpnService.new nativeVersion : ShadeVpnService ι κ).Settled where
  stopped := ⟨fun i hi => hi.elim, by rintro d ⟨⟩⟩
  counted := ⟨⟨fun h => absurd rfl h, by rintro t ⟨⟩⟩, fun h => (by cases h), fun h => (by cases h)⟩
  settled := fun h => by cases h

/-- **Stop wins** in runs where no connect stores a session behind the teardown of the
last STOP, no pump start fails to clone its socket, and the last thread to end behind a
STOP ends behind both halves of the pump: commands, steps of the connect and the
disconnect threads and turns of the pump threads in any order, whatever the libraries and
the platform answer. -/
theorem stopWins_of_inTime (nativeVersion : String) {es : List (Event ι κ)}
    (h : Machine.Along (ShadeVpnService.step C os) (ShadeVpnService.InTime C)
      (ShadeVpnService.new nativeVersion) es) :
    Machine.Always (ShadeVpnService.step C os) ShadeVpnService.StopWins
      (ShadeVpnService.new nativeVersion) es := by
  have hsettled := Machine.always_of_along (fun s e hs hintime => hs.step os e hintime) es
    (settled_new nativeVersion) h
  refine hsettled.imp fun s hs => ?_
  intro hsome hdone
  have hdown := hs.stopped.gone hsome hdone
  exact ⟨hdown.handshake, hdown.socket, hs.settled hsome hdone⟩

/-- A START that connects and starts its pump, and a STOP whose disconnect thread ends when
both halves of the pump have seen the stop flag. -/
def stoppedRun : List (Event Bool UInt8) :=
  .start false (some "vless://sample") false :: Event.steps false sampleEnv 41 ++
    .stop true :: Event.steps true {} 9 ++
      [.turn (.inl .stopped), .turn (.inr .stopped)] ++ Event.steps true {} 1

/-- A STOP that makes its teardown before the connect it has overtaken stores its session. -/
def overtakenRun : List (Event Bool UInt8) :=
  .start false (some "vless://sample") false :: Event.steps false sampleEnv 15 ++
    .stop true :: Event.steps true {} 10 ++ Event.steps false sampleEnv 21

theorem stopWins_of_inTime_stopped :
    Machine.Always (ShadeVpnService.step Crypto.toy samplePlatform)
      ShadeVpnService.StopWins (ShadeVpnService.new "shadevpn-native/0.7.0") stoppedRun ∧
    let s := Machine.run (ShadeVpnService.step Crypto.toy samplePlatform)
      (ShadeVpnService.new "shadevpn-native/0.7.0") stoppedRun
    s.stopping = some true ∧ (∀ i, (s.thread i).done = true) ∧ s.starts = [⟨[1], some 1⟩] ∧
      s.native.session.handshake.isNone = true ∧ s.native.session.pump.running = false :=
  ⟨stopWins_of_inTime _ (by decide +kernel), by decide +kernel⟩

/-- A connect that a STOP has overtaken can leave its session behind. -/
theorem not_stopWins : ¬ ∀ es : List (Event Bool UInt8),
    Machine.Always (ShadeVpnService.step Crypto.toy samplePlatform)
      ShadeVpnService.StopWins (ShadeVpnService.new "shadevpn-native/0.7.0") es := by
  intro h
  have hwins := (h overtakenRun).last
  have hleft : (Machine.run (ShadeVpnService.step Crypto.toy samplePlatform)
      (ShadeVpnService.new "shadevpn-native/0.7.0")
      overtakenRun).native.session.handshake.isSome = true := by decide +kernel
  rw [(hwins (by decide +kernel) (by decide +kernel)).1] at hleft
  cases hleft

end ShadeVpn.Service
