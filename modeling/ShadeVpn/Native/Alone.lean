import ShadeVpn.Native.Threads

/-!
# A call alone

A call that nobody interrupts does what the session's operation does, so the
session with its atomic operations is the native layer with one caller.

* `probe_eq_gate`, `startPump_eq_gate` — an operation is its checks and what is behind them.
* `Session.now_now` — the handshakes as they are now, which the threads work on.
* `alone` — the call and the operation.
-/

namespace ShadeVpn.Native

open Octets Checked Handshake Transport Vless Pump

variable {κ : Type} {C : Crypto κ UInt8} {ι : Type} [DecidableEq ι]

/-! ## Operations in parts -/

theorem probe_eq_gate (s : Session κ) (io : ProbeIo) :
    s.probe C io = match s.gate io.clone with
      | .error e => ⟨s, [], .error e⟩
      | .ok h => s.probeOn C h io := by
  unfold Session.probe Session.gate Session.probeOn
  rcases s.handshake with _ | h
  · rfl
  · dsimp only
    split_ifs
    · rfl
    · rfl
    · rcases io.clone with _ | os <;> rfl

theorem startPump_eq_gate (s : Session κ) (blockIpv6 : Bool) (io : StartIo) :
    s.startPump blockIpv6 io = match s.gate io.sessionClone with
      | .error e => ⟨s, [], .error e⟩
      | .ok h => s.startPumpOn h blockIpv6 io := by
  unfold Session.startPump Session.gate Session.startPumpOn
  rcases s.handshake with _ | h
  · rfl
  · dsimp only
    split_ifs
    · rfl
    · rfl
    · rcases io.sessionClone with _ | os <;> rfl

/-! ### Handshakes as they are now -/

section Now

variable (cells : ℕ → Option (HandshakeState κ UInt8))

@[simp] theorem Handle.now_now (h : Handle κ) : (h.now cells).now cells = h.now cells := by
  unfold Handle.now
  rcases cells h.id with _ | st <;> rfl

/-- Only the handshake's own cell tells what it is now. -/
theorem Handle.now_update (h : Handle κ) {id : ℕ} {st : HandshakeState κ UInt8}
    (hsame : h.id = id → (h.now cells).state = st) :
    h.now (Function.update cells id (some st)) = h.now cells := by
  unfold Handle.now at hsame ⊢
  by_cases hid : h.id = id
  · rw [← hid, Function.update_self, ← hsame hid]
    rfl
  · rw [Function.update_of_ne hid]

theorem TunnelPump.now_update (p : TunnelPump κ) {id : ℕ} {st : HandshakeState κ UInt8}
    (hsame : ∀ t ∈ p.threads, t.handle.id = id → (t.handle.now cells).state = st) :
    p.now (Function.update cells id (some st)) = p.now cells := by
  unfold TunnelPump.now
  rcases hp : p.threads with _ | t
  · rfl
  · rw [Option.map_some, Option.map_some, Handle.now_update cells t.handle (hsame t hp)]

/-- A pump whose handshake is up to date. -/
theorem TunnelPump.now_eq {p : TunnelPump κ}
    (h : ∀ t ∈ p.threads, t.handle.now cells = t.handle) : p.now cells = p := by
  unfold TunnelPump.now
  rcases hp : p.threads with _ | t
  · rw [Option.map_none, ← hp]
  · rw [Option.map_some, h t hp, ← hp]

theorem TunnelPump.now_handle {p : TunnelPump κ} :
    ∀ t ∈ (p.now cells).threads, t.handle.now cells = t.handle := by
  intro t ht
  obtain ⟨t', -, rfl⟩ := Option.mem_map.1 ht
  exact Handle.now_now cells t'.handle

@[simp] theorem Session.now_now (s : Session κ) : (s.now cells).now cells = s.now cells := by
  unfold Session.now
  rw [TunnelPump.now_eq cells (TunnelPump.now_handle cells)]
  rcases s.handshake with _ | h
  · rfl
  · simp only [Option.map_some, Handle.now_now]

/-- An outcome with its handshakes as they are now. -/
def Outcome.now (o : Outcome κ) : Outcome κ := { o with session := o.session.now cells }

theorem probeOn_now (s : Session κ) (h : Handle κ) (io : ProbeIo) :
    (s.now cells).probeOn C h io = (s.probeOn C h io).now cells := by
  unfold Session.probeOn
  dsimp only [Session.now, TunnelPump.now]
  rcases h.state.sealRecord C s.nextOutSeq PROBE with e | sealed
  · rfl
  · dsimp only
    rcases (writeFrame sealed io.write).1 with e | ⟨⟩
    · rfl
    · dsimp only
      rcases io.read with e | _ | echoed
      · rfl
      · rfl
      · dsimp only
        rcases h.state.openRecord C s.nextInSeq echoed with e | opened
        · rfl
        · dsimp only
          split_ifs <;> rfl

theorem startPumpOn_now (s : Session κ) {h : Handle κ} (hnow : h.now cells = h) (blockIpv6 : Bool)
    (io : StartIo) :
    (s.now cells).startPumpOn h blockIpv6 io = (s.startPumpOn h blockIpv6 io).now cells := by
  unfold Session.startPumpOn
  dsimp only [Session.now, TunnelPump.now, TunnelPump.start]
  split_ifs
  · rfl
  · rcases io.outClone with _ | os
    · simp only [Outcome.now, Session.now, TunnelPump.now, Option.map_some, hnow]
    · rfl

/-- An outcome that only replaces the pump, by one whose handshake is up to date. -/
theorem Outcome.now_pump {s : Session κ} {pump : TunnelPump κ} {t : PumpThreads κ}
    (ht : pump.threads = some t) (hnow : t.handle.now cells = t.handle) (effects : List Effect)
    (result : Except SessionError Unit) :
    Outcome.now cells ⟨{ s.now cells with pump }, effects, result⟩
      = ⟨{ s.now cells with pump }, effects, result⟩ := by
  have hpump : pump.now cells = pump := by
    apply TunnelPump.now_eq
    intro t' ht'
    rw [ht] at ht'
    cases ht'
    exact hnow
  have hsession := congrArg Session.handshake (Session.now_now cells s)
  simp only [Outcome.now, Session.now, hpump] at hsession ⊢
  rw [hsession]

theorem outboundTurn_now (s : Session κ) (e : TunRead) :
    ((s.now cells).outboundTurn C e).now cells = (s.now cells).outboundTurn C e := by
  rcases ht : (s.now cells).pump.threads with _ | t
  · rw [outboundTurn_none ht, Outcome.now, Session.now_now]
  · have hnow := TunnelPump.now_handle cells t ht
    rcases outboundTurn_eq (C := C) ht e with
      heq | ⟨_, _, pump, t', -, heq, ht', hhandle, -⟩
    · rw [heq, Outcome.now, Session.now_now]
    · rw [heq]
      exact Outcome.now_pump cells ht' (by rw [hhandle, hnow]) _ _

theorem inboundTurn_now (s : Session κ) (e : SocketRead) :
    ((s.now cells).inboundTurn C e).now cells = (s.now cells).inboundTurn C e := by
  rcases ht : (s.now cells).pump.threads with _ | t
  · rw [inboundTurn_none ht, Outcome.now, Session.now_now]
  · have hnow := TunnelPump.now_handle cells t ht
    obtain ⟨pump, t', _, heq, ht', hhandle, -⟩ := inboundTurn_eq (C := C) ht e
    rw [heq]
    exact Outcome.now_pump cells ht' (by rw [hhandle, hnow]) _ _

end Now

/-! ### Runs of one thread -/

variable (C) in
/-- Thread `i` comes from `s` to a state with `P` when nobody comes in between. -/
def Shared.Reaches (s : Shared ι κ) (i : ι) (P : Shared ι κ → Prop) : Prop :=
  ∃ n, P (Machine.run (Shared.act C) s (Act.steps i n))

/-- The session lock is free, and a running pump has a handshake that was made, one
that is completed where it is the session's. -/
structure Shared.Steady (s : Shared ι κ) : Prop where
  lock : s.lock = none
  known : ∀ h ∈ s.session.handshake, s.cells h.id = some (h.now s.cells).state
  made : ∀ t ∈ s.session.pump.threads, t.handle.id < s.session.created
  done : ∀ h ∈ s.session.handshake, ∀ t ∈ s.session.pump.threads, t.handle.id = h.id →
    t.handle.now s.cells = h.now s.cells ∧ (h.now s.cells).state.completed = true

/-- Thread `i` has come from `s` to `s'` and done `o`. -/
structure Shared.Did (s : Shared ι κ) (i : ι) (o : Outcome κ) (s' : Shared ι κ) : Prop where
  session : s'.current = o.session
  result : s'.thread i = .returned o.result
  log : s'.past.log = s.past.log ++ o.effects
  lock : s'.lock = none

section Alone

variable {s s' : Shared ι κ} {i : ι} {P : Shared ι κ → Prop}

theorem Shared.Reaches.here (h : P s) : s.Reaches C i P := ⟨0, h⟩

theorem Shared.Reaches.step (hstep : s.step C i = s') (h : s'.Reaches C i P) :
    s.Reaches C i P := by
  obtain ⟨n, hn⟩ := h
  rw [← hstep] at hn
  exact ⟨n + 1, hn⟩

omit [DecidableEq ι] in
/-- A call whose outcome says what the handshakes were when they were made. -/
theorem Shared.Did.of_now {o : Outcome κ} (hsession : s'.session = o.session)
    (hcells : s'.cells = s.cells) (hresult : s'.thread i = .returned o.result)
    (hlog : s'.past.log = s.past.log ++ o.effects) (hlock : s'.lock = none) :
    s.Did i (o.now s.cells) s' := by
  constructor
  · rw [Shared.current, hsession, hcells]
    rfl
  · exact hresult
  · exact hlog
  · exact hlock

/-- A call that returns and has changed nothing. -/
theorem Shared.Steady.unchanged (h : s.Steady) (result : Except SessionError Unit) :
    (s.goto i (.returned result)).Reaches C i (s.Did i ⟨s.current, [], result⟩) := by
  apply Shared.Reaches.here
  constructor
  · rfl
  · exact Shared.goto_thread _ _ _
  · exact (List.append_nil _).symm
  · exact h.lock

theorem Shared.connect_alone (h : s.Steady) {r : ConnectRequest κ} {io : Option String}
    (here : s.thread i = .connecting r io) :
    s.Reaches C i (s.Did i (s.current.connect C r io)) := by
  have hstep := Shared.step.eq_def C s i
  rw [here] at hstep
  unfold Session.connect
  rcases io with _ | text
  · dsimp only at hstep ⊢
    rcases hinit : initiate C r.params r.ephemeral r.unixTime with e | st
    · rw [hinit] at hstep
      cases e with
      | err e => exact .step hstep (h.unchanged _)
      | addOverflow => exact .step hstep (h.unchanged _)
      | subOverflow => exact .step hstep (h.unchanged _)
      | shlOverflow => exact .step hstep (h.unchanged _)
      | panic => exact .step hstep (h.unchanged _)
    · rw [hinit] at hstep
      dsimp only at hstep
      rw [h.lock, if_neg (by simp)] at hstep
      apply Shared.Reaches.step hstep
      apply Shared.Reaches.step (by rw [Shared.step.eq_def, Shared.goto_thread])
      apply Shared.Reaches.here
      have hpump : s.session.pump.now (Function.update s.cells s.session.created (some st))
          = s.session.pump.now s.cells := by
        apply TunnelPump.now_update
        intro t ht hid
        exact absurd hid (h.made t ht).ne
      constructor
      · simp only [Shared.current, Session.now, Shared.goto, Shared.storeVless, Shared.install,
          Session.install, Option.map_some, Handle.now, Function.update_self, Option.getD_some,
            hpump]
      · exact Shared.goto_thread _ _ _
      · exact (List.append_nil _).symm
      · exact h.lock
  · exact .step hstep (h.unchanged _)

omit [DecidableEq ι] in
/-- What passes the checks is the handshake as it is now. -/
theorem Shared.gate_now {clone : Option String} {hd : Handle κ}
    (hgate : s.current.gate clone = .ok hd) : hd.now s.cells = hd := by
  obtain ⟨hd', -, rfl⟩ := Option.map_eq_some_iff.1 (gate_ok hgate).1
  exact Handle.now_now s.cells hd'

theorem Shared.probe_alone (h : s.Steady) {io : ProbeIo} (here : s.thread i = .probing io) :
    s.Reaches C i (s.Did i (s.current.probe C io)) := by
  have hstep := Shared.step.eq_def C s i
  rw [here] at hstep
  dsimp only at hstep
  rw [h.lock, if_neg (by simp)] at hstep
  rw [probe_eq_gate]
  rcases hgate : s.current.gate io.clone with e | hd
  · rw [hgate] at hstep
    exact .step hstep (h.unchanged _)
  · rw [hgate] at hstep
    have hnow := probeOn_now (C := C) s.cells s.session hd io
    apply Shared.Reaches.step hstep
    apply Shared.Reaches.step (by rw [Shared.step.eq_def, Shared.goto_thread])
    apply Shared.Reaches.here
    dsimp only [Shared.current]
    rw [hnow]
    simp only [Shared.goto, Shared.gate_now hgate]
    exact .of_now rfl rfl (Function.update_self _ _ _) rfl rfl

theorem Shared.startPump_alone (h : s.Steady) {blockIpv6 : Bool} {io : StartIo}
    (here : s.thread i = .starting blockIpv6 io) :
    s.Reaches C i (s.Did i (s.current.startPump blockIpv6 io)) := by
  have hstep := Shared.step.eq_def C s i
  rw [here] at hstep
  dsimp only at hstep
  rw [h.lock, if_neg (by simp)] at hstep
  rw [startPump_eq_gate]
  rcases hgate : s.current.gate io.sessionClone with e | hd
  · rw [hgate] at hstep
    exact .step hstep (h.unchanged _)
  · rw [hgate] at hstep
    have hnow := startPumpOn_now s.cells s.session (Shared.gate_now hgate) blockIpv6 io
    apply Shared.Reaches.step hstep
    apply Shared.Reaches.step (by rw [Shared.step.eq_def, Shared.goto_thread])
    apply Shared.Reaches.here
    dsimp only [Shared.current]
    rw [hnow]
    simp only [Shared.goto, Shared.gate_now hgate]
    exact .of_now rfl rfl (Function.update_self _ _ _) rfl rfl

theorem Shared.disconnect_alone (h : s.Steady) (here : s.thread i = .disconnecting) :
    s.Reaches C i (s.Did i ⟨s.current.teardown, [], .ok ()⟩) := by
  have hstep := Shared.step.eq_def C s i
  rw [here] at hstep
  dsimp only at hstep
  rw [h.lock, if_neg (by simp)] at hstep
  apply Shared.Reaches.step hstep
  apply Shared.Reaches.step (by rw [Shared.step.eq_def, Shared.goto_thread])
  apply Shared.Reaches.here
  constructor
  · rfl
  · exact Shared.goto_thread _ _ _
  · exact (List.append_nil _).symm
  · rfl

/-- A turn is one step. -/
theorem Shared.turn_alone (h : s.Steady) {e : TunRead ⊕ SocketRead}
    (here : s.thread i = .turning e) :
    s.Reaches C i (s.Did i
      (e.elim (s.current.outboundTurn C ·) (s.current.inboundTurn C ·))) := by
  have hstep := Shared.step.eq_def C s i
  rw [here] at hstep
  rcases e with e | e
  · apply Shared.Reaches.step hstep
    apply Shared.Reaches.here
    constructor
    · exact congrArg Outcome.session (outboundTurn_now s.cells s.session e)
    · exact Shared.goto_thread _ _ _
    · rfl
    · exact h.lock
  · apply Shared.Reaches.step hstep
    apply Shared.Reaches.here
    constructor
    · exact congrArg Outcome.session (inboundTurn_now s.cells s.session e)
    · exact Shared.goto_thread _ _ _
    · rfl
    · exact h.lock

theorem Shared.stop_alone (h : s.Steady) (here : s.thread i = .stopping) :
    s.Reaches C i
      (s.Did i ⟨{ s.current with pump := s.current.pump.halted }, [], .ok ()⟩) := by
  have hstep := Shared.step.eq_def C s i
  rw [here] at hstep
  dsimp only at hstep
  rw [h.lock, if_neg (by simp)] at hstep
  apply Shared.Reaches.step hstep
  apply Shared.Reaches.here
  constructor
  · rfl
  · exact Shared.goto_thread _ _ _
  · exact (List.append_nil _).symm
  · rfl

theorem Shared.step_completing {h : Handle κ} {bytes : Bytes} {created : ℕ} {stage : CallStage}
    (here : s.thread i = .completing h bytes created stage)
    (hgoing : ∀ result, stage ≠ .returned result) :
    s.step C i =
      (s.advance h.id (stage.advance C (h.now s.cells).state bytes).1
        (stage.advance C (h.now s.cells).state bytes).2).goto i
        (.completing h bytes created (stage.advance C (h.now s.cells).state bytes).2) := by
  rw [Shared.step.eq_def, here]
  cases stage with
  | returned result => exact absurd rfl (hgoing result)
  | entered => rfl
  | holding => rfl
  | confirming => rfl
  | rejecting => rfl

/-- Where the steps of a `complete` lead, a thread alone comes too, and all it has
changed is its handshake. -/
theorem Shared.completing_alone {h : Handle κ} {bytes : Bytes} {created : ℕ}
    {st' : HandshakeState κ UInt8} {result : Except HandshakeError Unit} (n : ℕ) :
    ∀ {s : Shared ι κ} {st : HandshakeState κ UInt8} {stage : CallStage},
      s.thread i = .completing h bytes created stage → s.cells h.id = some st →
      (fun p : HandshakeState κ UInt8 × CallStage => p.2.advance C p.1 bytes)^[n] (st, stage)
        = (st', .returned result) →
      (∀ s' : Shared ι κ, s'.thread i = .completing h bytes created (.returned result) →
        s'.cells = Function.update s.cells h.id (some st') → s'.session = s.session →
        s'.lock = s.lock → s'.past.log = s.past.log → s'.Reaches C i P) →
      s.Reaches C i P := by
  induction n with
  | zero =>
    intro s st stage here hcell hiter hdone
    obtain ⟨rfl, rfl⟩ := Prod.mk.inj hiter
    apply hdone s here
    · rw [← hcell, Function.update_eq_self]
    · rfl
    · rfl
    · rfl
  | succ n ih =>
    intro s st stage here hcell hiter hdone
    rw [Function.iterate_succ_apply] at hiter
    by_cases hgoing : ∀ result, stage ≠ .returned result
    · have hstep := Shared.step_completing (C := C) here hgoing
      simp only [Handle.now, hcell, Option.getD_some] at hstep
      have hhere : (s.step C i).thread i
          = .completing h bytes created (stage.advance C st bytes).2 := by
        rw [hstep]
        exact Shared.goto_thread _ _ _
      have hcell' : (s.step C i).cells h.id = some (stage.advance C st bytes).1 := by
        rw [hstep]
        exact Function.update_self _ _ _
      apply Shared.Reaches.step rfl
      apply ih hhere hcell' hiter
      rw [hstep]
      intro s' hthread hcells hsession hlock hlog
      apply hdone s' hthread
      · rw [hcells]
        exact Function.update_idem _ _ _
      · exact hsession
      · exact hlock
      · exact hlog
    · simp only [not_forall, not_not] at hgoing
      obtain ⟨other, rfl⟩ := hgoing
      exact ih here hcell hiter hdone

theorem Shared.complete_alone (h : s.Steady) {response : Option Bytes}
    (here : s.thread i = .cloning response) :
    s.Reaches C i (s.Did i (s.current.complete C response)) := by
  have hstep := Shared.step.eq_def C s i
  rw [here] at hstep
  dsimp only at hstep
  rw [h.lock, if_neg (by simp)] at hstep
  rcases response with _ | bytes
  · exact .step hstep (h.unchanged _)
  · rcases hh : s.session.handshake with _ | hd
    · rw [hh] at hstep
      have hnone : s.current.handshake = none := by
        simp only [Shared.current, Session.now, hh, Option.map_none]
      simp only [Session.complete, hnone]
      exact .step hstep (h.unchanged _)
    · rw [hh] at hstep
      have hsome : s.current.handshake = some (hd.now s.cells) := by
        simp only [Shared.current, Session.now, hh, Option.map_some]
      have hiter := alone_eq_complete C (hd.now s.cells).state bytes
      apply Shared.Reaches.step hstep
      apply Shared.completing_alone 4 (Shared.goto_thread _ _ _) (h.known hd hh) hiter
      intro s' hthread hcells hsession hlock hlog
      replace hcells : s'.cells = Function.update s.cells hd.id _ := hcells
      replace hsession : s'.session = s.session := hsession
      replace hlock : s'.lock = none := hlock.trans h.lock
      have hpump : s'.session.pump.now s'.cells = s.session.pump.now s.cells := by
        rw [hcells, hsession]
        apply TunnelPump.now_update
        intro t ht hid
        obtain ⟨hsame, hdone⟩ := h.done hd hh t ht hid
        rw [hsame, complete_of_completed hdone]
      simp only [Session.complete, hsome]
      rcases hres : (hd.now s.cells).state.complete C bytes with ⟨e | ⟨⟩, st⟩
      · rw [hres] at hthread
        have hrefuse := Shared.step.eq_def C s' i
        rw [hthread] at hrefuse
        apply Shared.Reaches.step hrefuse
        have hdrop := Shared.step.eq_def C (s'.goto i (.rejected hd.id s.session.created e)) i
        rw [Shared.goto_thread] at hdrop
        dsimp only at hdrop
        rw [if_neg (by simp [Shared.goto, hlock])] at hdrop
        apply Shared.Reaches.step hdrop
        apply Shared.Reaches.step (by rw [Shared.step.eq_def, Shared.goto_thread])
        apply Shared.Reaches.here
        constructor
        · have hcurrent : Session.now s'.session.teardown s'.cells = { s.session.teardown with
              pump := (s'.session.pump.now s'.cells).halted } := by
            rw [← hsession]
            rfl
          rw [hpump] at hcurrent
          exact hcurrent
        · exact Shared.goto_thread _ _ _
        · rw [List.append_nil]
          exact hlog
        · rfl
      · rw [hres] at hthread hcells
        have haccept := Shared.step.eq_def C s' i
        rw [hthread] at haccept
        apply Shared.Reaches.step haccept
        apply Shared.Reaches.here
        constructor
        · have hcell : s'.cells hd.id = some st := by
            rw [hcells]
            exact Function.update_self _ _ _
          have hcurrent : (s'.goto i (.returned (.ok ()))).current
              = { s.session with
                  handshake := s.session.handshake.map (·.now s'.cells)
                  pump := s'.session.pump.now s'.cells } := by
            rw [← hsession]
            rfl
          rw [hcurrent, hpump, hh, Option.map_some]
          simp only [Handle.now, hcell, Option.getD_some]
          rfl
        · exact Shared.goto_thread _ _ _
        · rw [List.append_nil]
          exact hlog
        · exact hlock

/-- **A call alone.**  From a steady state, a call that nobody interrupts leaves the
session, the log and the result of the session's operation. -/
theorem alone (h : s.Steady) {result : Except SessionError Unit}
    (idle : s.thread i = .returned result) (op : Op κ) :
    ∃ n, s.Did i (s.current.step C op)
      (Machine.run (Shared.act C) s (Act.calls i op n)) := by
  have hcall : s.act C (.call i op) = s.goto i op.entry := by
    simp only [Shared.act, idle]
  have hsteady : (s.goto i op.entry).Steady := ⟨h.lock, h.known, h.made, h.done⟩
  have here : (s.goto i op.entry).thread i = op.entry := Shared.goto_thread _ _ _
  have hreach : (s.goto i op.entry).Reaches C i
      ((s.goto i op.entry).Did i (s.current.step C op)) := by
    cases op with
    | connect r io => exact Shared.connect_alone hsteady here
    | complete response => exact Shared.complete_alone hsteady here
    | probe io => exact Shared.probe_alone hsteady here
    | startPump blockIpv6 io => exact Shared.startPump_alone hsteady here
    | stopPump => exact Shared.stop_alone hsteady here
    | disconnect => exact Shared.disconnect_alone hsteady here
    | outbound e => exact Shared.turn_alone hsteady here
    | inbound e => exact Shared.turn_alone hsteady here
  obtain ⟨n, hdid⟩ := hreach
  refine ⟨n, ?_⟩
  rw [Act.calls, Machine.run_cons, hcall]
  exact ⟨hdid.session, hdid.result, hdid.log, hdid.lock⟩

end Alone

end ShadeVpn.Native
