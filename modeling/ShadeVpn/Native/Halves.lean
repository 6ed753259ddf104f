import ShadeVpn.Native.Steps

/-!
# How the halves of a pump end

The two threads of one `TunnelPump::start` and the callers of `stop`, taken apart
into the steps that they can see of each other: a turn of a loop, the halt a half
makes on its way out, the three steps of `thread_finished`, and the two of `stop`.

The last half to end halts the socket, and so does a half whose own write failed.
A half that ends first for another reason does not.

* `leave_alone` — the steps behind a loop are those of `TunnelPump.signOff`.
* `finished_socketShut` — when a half that has finished leaves no live socket.
-/

namespace ShadeVpn.Native

open Octets Checked Handshake Transport Vless Pump

/-! ## The machine -/

/-- The threads of a pump. -/
inductive Half where
  | outbound
  | inbound
  deriving DecidableEq, Repr

instance : Fintype Half := ⟨{.outbound, .inbound}, fun half => by cases half <;> decide⟩

/-- The failed write that makes a half halt the socket itself. -/
def Half.halts : Half → Exit
  | .outbound => .socketFailed
  | .inbound => .tunFailed

/-- Where a half stands. -/
inductive HalfStage where
  | looping
  /-- Its own write failed; `halt_socket` is next. -/
  | halting
  /-- It has left its loop; the `fetch_sub` of `thread_finished` is next. -/
  | leaving
  /-- It was the last; the store to `running` is next. -/
  | last
  /-- `halt_socket` is next, the last step of the last half. -/
  | lastHalting
  | finished
  | panicked
  deriving DecidableEq, Repr

/-- A started pump: its shared state, its socket, its halves, and the number of
`stop` calls that have set the flag and not halted the socket yet. -/
structure Halves (κ : Type) where
  pump : TunnelPump κ
  socketShut : Bool
  stage : Half → HalfStage
  stopping : ℕ

variable {κ : Type} (C : Crypto κ UInt8)

/-- `halt_socket`. -/
def Halves.haltSocket (s : Halves κ) : Halves κ :=
  { s with
    pump := { s.pump with halt := false }
    socketShut := s.socketShut || s.pump.halt }

/-- Where a half is after a turn of its loop. -/
def Half.stageAfter (half : Half) : Option Exit → HalfStage
  | none => .looping
  | some .panicked => .panicked
  | some why => if why = half.halts then .halting else .leaving

/-- A turn of the outbound loop, on the shared state and that of its thread. -/
def TunnelPump.outboundLoop (p : TunnelPump κ) (t : PumpThreads κ) (e : TunRead) :
    TunnelPump κ × Option Exit × Option SealedRecord :=
  let (out, record) := (Outbound.mk p.seqOut t.vlessOut p.stats t.wire t.outExit).turn
    C t.handle.state t.config e
  ({ p with
      seqOut := out.seqOut
      stats := out.stats
      threads := some { t with vlessOut := out.vlessOut, wire := out.wire, outExit := out.exit } },
    out.exit, record)

/-- A turn of the inbound loop. -/
def TunnelPump.inboundLoop (p : TunnelPump κ) (t : PumpThreads κ) (e : SocketRead) :
    TunnelPump κ × Option Exit × Option Bytes :=
  let (inb, plaintext) := (Inbound.mk p.seqIn t.vlessIn p.stats t.delivered t.inExit).turn
    C t.handle.state e
  ({ p with
      seqIn := inb.seqIn
      stats := inb.stats
      threads := some { t with
        vlessIn := inb.vlessIn, delivered := inb.delivered, inExit := inb.exit } },
    inb.exit, plaintext)

/-- What a half goes on with behind its loop, one access to shared state at a time. -/
def Halves.leave (s : Halves κ) (half : Half) : Halves κ :=
  match s.stage half with
  | .looping => s
  | .halting => { s.haltSocket with stage := Function.update s.stage half .leaving }
  | .leaving =>
    { s with
      pump := { s.pump with alive := s.pump.alive - 1 }
      stage := Function.update s.stage half (if s.pump.alive = 1 then .last else .finished) }
  | .last =>
    { s with
      pump := { s.pump with running := false }
      stage := Function.update s.stage half .lastHalting }
  | .lastHalting => { s.haltSocket with stage := Function.update s.stage half .finished }
  | .finished => s
  | .panicked => s

/-- The loop would leave for a stop flag that is not set. -/
def premature (stop : Bool) : TunRead ⊕ SocketRead → Bool
  | .inl .stopped => !stop
  | .inr .stopped => !stop
  | _ => false

/-- What a started pump can do next.  A turn of a loop comes with what it meets. -/
inductive HalvesEvent where
  | outbound (e : TunRead)
  | inbound (e : SocketRead)
  | leave (half : Half)
  | stopFlag
  | stopHalt

/-- One step.  A loop can see the stop flag only once it is set. -/
def Halves.step (s : Halves κ) : HalvesEvent → Halves κ
  | .outbound e =>
    match s.pump.threads with
    | none => s
    | some t =>
      if s.stage .outbound ≠ .looping ∨ premature s.pump.stop (.inl e) then s
      else
        let (pump, exit, _) := s.pump.outboundLoop C t e
        { s with pump, stage := Function.update s.stage .outbound (Half.stageAfter .outbound exit) }
  | .inbound e =>
    match s.pump.threads with
    | none => s
    | some t =>
      if s.stage .inbound ≠ .looping ∨ premature s.pump.stop (.inr e) then s
      else
        let (pump, exit, _) := s.pump.inboundLoop C t e
        { s with pump, stage := Function.update s.stage .inbound (Half.stageAfter .inbound exit) }
  | .leave half => s.leave half
  | .stopFlag => { s with pump := { s.pump with stop := true }, stopping := s.stopping + 1 }
  | .stopHalt => if s.stopping = 0 then s else { s.haltSocket with stopping := s.stopping - 1 }

/-- A pump that has just been started. -/
def Halves.started (p : TunnelPump κ) : Halves κ := ⟨p, false, fun _ => .looping, 0⟩

/-! ## The steps together -/

variable {C}

/-- A turn of the session's outbound thread is a turn of the loop and a sign-off. -/
theorem outboundTurn_eq_loop {s : Session κ} {t : PumpThreads κ} (ht : s.pump.threads = some t)
    {e : TunRead} (h : premature s.pump.stop (.inl e) = false) :
    (s.outboundTurn C e).session = { s with
      pump := (s.pump.outboundLoop C t e).1.signOff t.outExit (s.pump.outboundLoop C t e).2.1
        .socketFailed } := by
  rw [Session.outboundTurn.eq_def, ht]
  cases e with
  | stopped =>
    rw [premature] at h
    dsimp only
    rw [if_neg (by simp [h])]
    rfl
  | notReadable => rfl
  | eof => rfl
  | interrupted => rfl
  | failed => rfl
  | packet p draw io => rfl

theorem inboundTurn_eq_loop {s : Session κ} {t : PumpThreads κ} (ht : s.pump.threads = some t)
    {e : SocketRead} (h : premature s.pump.stop (.inr e) = false) :
    (s.inboundTurn C e).session = { s with
      pump := (s.pump.inboundLoop C t e).1.signOff t.inExit (s.pump.inboundLoop C t e).2.1
        .tunFailed } := by
  rw [Session.inboundTurn.eq_def, ht]
  cases e with
  | stopped =>
    rw [premature] at h
    dsimp only
    rw [if_neg (by simp [h])]
    rfl
  | frame bytes tunOk => rfl
  | eof => rfl
  | failed => rfl

/-- `thread_finished`, alone: three steps at most. -/
theorem finish_alone {s : Halves κ} {half : Half} (h : s.stage half = .leaving) {why : Exit}
    (hpanic : why ≠ .panicked) :
    ((fun s => Halves.leave s half)^[3] s).pump = s.pump.finish why ∧
      ((fun s => Halves.leave s half)^[3] s).stage half = .finished := by
  simp only [Function.iterate_succ, Function.iterate_zero, Function.comp, id]
  rw [TunnelPump.finish, if_neg hpanic]
  by_cases hone : s.pump.alive = 1
  · simp [Halves.leave, h, hone, Halves.haltSocket]
  · simp [Halves.leave, h, hone]

/-- **A half that nobody interrupts signs off**: four steps at most. -/
theorem leave_alone {s : Halves κ} {half : Half} {why : Exit}
    (h : s.stage half = half.stageAfter (some why)) :
    ((fun s => Halves.leave s half)^[4] s).pump = s.pump.signOff none (some why) half.halts := by
  unfold TunnelPump.signOff
  by_cases hpanic : why = .panicked
  · subst hpanic
    have hstage : s.stage half = .panicked := h
    have hhalts : Exit.panicked ≠ half.halts := by cases half <;> decide
    simp only [Function.iterate_succ, Function.iterate_zero, Function.comp, id, Halves.leave, hstage,
      if_neg hhalts, TunnelPump.finish, if_true]
  · by_cases hhalts : why = half.halts
    · -- the half halts the socket first
      have hstage : s.stage half = .halting := by
        rw [h]
        cases half <;> subst hhalts <;> rfl
      have hleaving : (s.leave half).stage half = .leaving := by
        simp [Halves.leave, hstage]
      have hpump : (s.leave half).pump = { s.pump with halt := false } := by
        simp [Halves.leave, hstage, Halves.haltSocket]
      rw [Function.iterate_succ_apply, (finish_alone hleaving hpanic).1, hpump]
      dsimp only
      rw [if_pos hhalts]
    · have hstage : s.stage half = .leaving := by
        rw [h]
        cases half <;> cases why <;> first | rfl | exact absurd rfl hpanic | exact absurd rfl hhalts
      obtain ⟨hpump, hend⟩ := finish_alone hstage hpanic
      rw [Function.iterate_succ_apply', Halves.leave, hend]
      dsimp only
      rw [hpump, if_neg hhalts]

/-- The stop flag and the halt of one `stop` call. -/
theorem stop_alone (s : Halves κ) :
    ((s.step C .stopFlag).step C .stopHalt).pump = s.pump.halted := rfl

/-! ## What a step can do -/

/-- What a step does to the stages, the halt handle and the socket. -/
inductive Halves.Moves (s : Halves κ) : Halves κ → Prop
  | idle : Moves s s
  | turn (half : Half) (pump : TunnelPump κ) (exit : Option Exit)
    (looping : s.stage half = .looping) (halt : pump.halt = s.pump.halt)
    (alive : pump.alive = s.pump.alive) :
    Moves s { s with pump, stage := Function.update s.stage half (half.stageAfter exit) }
  | leave (half : Half) : Moves s (s.leave half)
  | stopFlag :
    Moves s { s with pump := { s.pump with stop := true }, stopping := s.stopping + 1 }
  | stopHalt : Moves s { s.haltSocket with stopping := s.stopping - 1 }

theorem Halves.step_moves (s : Halves κ) (e : HalvesEvent) : s.Moves (s.step C e) := by
  cases e with
  | outbound e =>
    rcases ht : s.pump.threads with _ | t
    · simp only [Halves.step, ht]
      exact .idle
    · simp only [Halves.step, ht]
      split_ifs with h
      · exact .idle
      · exact .turn .outbound _ _ (not_not.1 (not_or.1 h).1) rfl rfl
  | inbound e =>
    rcases ht : s.pump.threads with _ | t
    · simp only [Halves.step, ht]
      exact .idle
    · simp only [Halves.step, ht]
      split_ifs with h
      · exact .idle
      · exact .turn .inbound _ _ (not_not.1 (not_or.1 h).1) rfl rfl
  | leave half => exact .leave half
  | stopFlag => exact .stopFlag
  | stopHalt =>
    rw [Halves.step]
    split_ifs
    · exact .idle
    · exact .stopHalt

/-- A half is past its loop and past the halt of its own. -/
def HalfStage.Left : HalfStage → Prop
  | .looping => False
  | .halting => False
  | _ => True

/-- Whoever has left its loop leaves no live socket, and whoever is about to halt it can. -/
structure Halves.Safe (s : Halves κ) : Prop where
  left : ∀ half, (s.stage half).Left → s.socketShut = true
  halting : ∀ half, s.stage half = .halting → s.socketShut = true ∨ s.pump.halt = true

/-- What a stage adds to `alive`. -/
def HalfStage.alive : HalfStage → ℕ
  | .looping => 1
  | .halting => 1
  | .leaving => 1
  | .panicked => 1
  | _ => 0

@[simp] theorem HalfStage.alive_looping : HalfStage.looping.alive = 1 := rfl

/-- `alive` counts the halves in front of their `fetch_sub`. -/
def Halves.Counted (s : Halves κ) : Prop :=
  s.pump.alive = (s.stage .outbound).alive + (s.stage .inbound).alive

/-! ## Finished halves and the socket -/

/-- The half has ended. -/
def HalfStage.Ended (stage : HalfStage) : Prop := stage = .finished ∨ stage = .panicked

/-- A half that has ended leaves no live socket. -/
def Halves.Halted (s : Halves κ) : Prop := ∀ half, (s.stage half).Ended → s.socketShut = true

variable (C) in
/-- A half leaves its loop in this step and the socket stays live: it has not
been shut, and the half is not about to halt it. -/
def Halves.LeavesLive (s : Halves κ) (e : HalvesEvent) : Prop :=
  ∃ half, s.stage half = .looping ∧ (s.step C e).stage half ≠ .looping ∧
    s.socketShut = false ∧ ¬ ((s.step C e).stage half = .halting ∧ s.pump.halt = true)

instance (s : Halves κ) (e : HalvesEvent) : Decidable (s.LeavesLive C e) := by
  unfold Halves.LeavesLive
  infer_instance

theorem Halves.Safe.halted {s : Halves κ} (h : s.Safe) : s.Halted := by
  rintro half (hend | hend) <;> exact h.left half (by rw [hend]; trivial)

theorem Halves.started_safe (p : TunnelPump κ) : (Halves.started p).Safe :=
  ⟨fun _ h => h.elim, fun _ h => by cases h⟩

/-- Once the socket is shut, a pump stays safe. -/
theorem Halves.safe_of_shut {s : Halves κ} (h : s.socketShut = true) : s.Safe :=
  ⟨fun _ _ => h, fun _ _ => .inl h⟩

theorem Halves.Safe.haltSocket {s : Halves κ} (h : s.Safe) : s.haltSocket.Safe := by
  constructor
  · intro half hleft
    show (s.socketShut || s.pump.halt) = true
    rw [h.left half hleft, Bool.true_or]
  · intro half hhalting
    left
    show (s.socketShut || s.pump.halt) = true
    rcases h.halting half hhalting with hshut | hhalt
    · rw [hshut, Bool.true_or]
    · rw [hhalt, Bool.or_true]

theorem Halves.Safe.leave {s : Halves κ} (h : s.Safe) (half : Half) : (s.leave half).Safe := by
  unfold Halves.leave
  split
  · exact h
  · next hstage =>
    apply Halves.safe_of_shut
    show (s.socketShut || s.pump.halt) = true
    rcases h.halting half hstage with hshut | hhalt
    · rw [hshut, Bool.true_or]
    · rw [hhalt, Bool.or_true]
  · next hstage => exact Halves.safe_of_shut (h.left half (by rw [hstage]; trivial))
  · next hstage => exact Halves.safe_of_shut (h.left half (by rw [hstage]; trivial))
  · next hstage =>
    apply Halves.safe_of_shut
    show (s.socketShut || s.pump.halt) = true
    rw [h.left half (by rw [hstage]; trivial), Bool.true_or]
  · exact h
  · exact h

/-- **A step keeps a pump safe** unless a half leaves a live socket in it. -/
theorem Halves.Safe.step {s : Halves κ} (h : s.Safe) {e : HalvesEvent}
    (hlive : ¬ s.LeavesLive C e) :
    (s.step C e).Safe := by
  unfold Halves.LeavesLive at hlive
  have hmove := Halves.step_moves (C := C) s e
  generalize s.step C e = s' at hmove hlive
  cases hmove with
  | idle => exact h
  | turn half pump exit looping halt alive =>
    by_cases hshut : s.socketShut = true
    · exact Halves.safe_of_shut hshut
    · have hnew : half.stageAfter exit = .looping ∨
          half.stageAfter exit = .halting ∧ s.pump.halt = true := by
        by_contra hbad
        rw [not_or] at hbad
        exact hlive ⟨half, looping, by simpa using hbad.1, by simpa using hshut, by simpa using hbad.2⟩
      constructor
      · intro other hleft
        by_cases hother : other = half
        · subst hother
          simp only [Function.update_self] at hleft
          rcases hnew with hnew | ⟨hnew, -⟩ <;> rw [hnew] at hleft <;> exact hleft.elim
        · simp only [Function.update_of_ne hother] at hleft
          exact h.left other hleft
      · intro other hhalting
        by_cases hother : other = half
        · subst hother
          simp only [Function.update_self] at hhalting
          rcases hnew with hnew | ⟨-, hhalt⟩
          · rw [hnew] at hhalting
            cases hhalting
          · exact .inr (halt.trans hhalt)
        · simp only [Function.update_of_ne hother] at hhalting
          rcases h.halting other hhalting with hs | hh
          · exact absurd hs hshut
          · exact .inr (halt.trans hh)
  | leave half => exact h.leave half
  | stopFlag => exact ⟨h.left, h.halting⟩
  | stopHalt => exact ⟨h.haltSocket.left, h.haltSocket.halting⟩

theorem alive_stageAfter (half : Half) (exit : Option Exit) : (half.stageAfter exit).alive = 1 := by
  cases exit with
  | none => rfl
  | some why => cases half <;> cases why <;> rfl

theorem Halves.Counted.leave {s : Halves κ} (h : s.Counted) (half : Half) :
    (s.leave half).Counted := by
  unfold Halves.Counted at h ⊢
  unfold Halves.leave
  split
  · exact h
  · next hstage => cases half <;> simp [Halves.haltSocket, h, hstage, HalfStage.alive]
  · next hstage =>
    by_cases hone : s.pump.alive = 1
    · cases half <;> simp_all [HalfStage.alive]
    · cases half <;> simp_all [HalfStage.alive]
  · next hstage => cases half <;> simp [h, hstage, HalfStage.alive]
  · next hstage => cases half <;> simp [Halves.haltSocket, h, hstage, HalfStage.alive]
  · exact h
  · exact h

theorem Halves.Counted.step {s : Halves κ} (h : s.Counted) (e : HalvesEvent) :
    (s.step C e).Counted := by
  have hmove := Halves.step_moves (C := C) s e
  generalize s.step C e = s' at hmove
  cases hmove with
  | idle => exact h
  | turn half pump exit looping halt alive =>
    have hone := alive_stageAfter half exit
    unfold Halves.Counted at h ⊢
    cases half <;> simp [alive, h, looping, hone]
  | leave half => exact h.leave half
  | stopFlag => exact h
  | stopHalt => exact h

theorem alive_of_not_left {stage : HalfStage} (h : ¬ stage.Left) : stage.alive = 1 := by
  cases stage <;> first | rfl | exact absurd trivial h

/-- A half that left a live socket ends on one if it goes on alone. -/
theorem Halves.leave_ends {s : Halves κ} {half : Half} {exit : Option Exit}
    (hnew : s.stage half = half.stageAfter exit) (hloop : s.stage half ≠ .looping)
    (hshut : s.socketShut = false) (hhalt : ¬ (s.stage half = .halting ∧ s.pump.halt = true))
    (halive : s.pump.alive = 2) : ∃ n, ¬ ((fun s => Halves.leave s half)^[n] s).Halted := by
  have hlive : ∀ {s' : Halves κ}, (s'.stage half).Ended → s'.socketShut = false → ¬ s'.Halted := by
    intro s' hend hshut' hhalted
    rw [hhalted half hend] at hshut'
    cases hshut'
  -- from in front of `thread_finished` it is one step
  have hleaving : ∀ {s' : Halves κ}, s'.stage half = .leaving → s'.socketShut = false →
      s'.pump.alive = 2 → ¬ (s'.leave half).Halted := by
    intro s' hstage hshut' halive'
    apply hlive
    · left
      simp [Halves.leave, hstage, halive']
    · simp [Halves.leave, hstage, hshut']
  have hcases : s.stage half = .halting ∨ s.stage half = .leaving ∨ s.stage half = .panicked := by
    rw [hnew] at hloop ⊢
    cases exit with
    | none => exact absurd rfl hloop
    | some why => cases half <;> cases why <;> simp [Half.stageAfter, Half.halts]
  rcases hcases with hstage | hstage | hstage
  · have hgone : s.pump.halt = false := by simpa [hstage] using hhalt
    refine ⟨2, hleaving ?_ ?_ ?_⟩
    · simp [Halves.leave, hstage]
    · simp [Halves.leave, hstage, Halves.haltSocket, hshut, hgone]
    · simp [Halves.leave, hstage, Halves.haltSocket, halive]
  · exact ⟨1, hleaving hstage hshut halive⟩
  · exact ⟨0, hlive (.inr hstage) hshut⟩

/-- A half that leaves a live socket can end on it. -/
theorem Halves.LeavesLive.ends {s : Halves κ} (hsafe : s.Safe) (hcounted : s.Counted)
    {e : HalvesEvent} (h : s.LeavesLive C e) :
    ∃ half n, ¬ ((fun s => Halves.leave s half)^[n] (s.step C e)).Halted := by
  obtain ⟨half, hloop, hnew, hshut, hhalt⟩ := h
  have hmove := Halves.step_moves (C := C) s e
  generalize s.step C e = s' at hmove hnew hhalt
  have hleft : ∀ half, ¬ (s.stage half).Left := by
    intro half hleft
    rw [hsafe.left half hleft] at hshut
    cases hshut
  have htwo : s.pump.alive = 2 := by
    rw [hcounted, alive_of_not_left (hleft _), alive_of_not_left (hleft _)]
  refine ⟨half, ?_⟩
  cases hmove with
  | idle => exact absurd hloop hnew
  | turn half' pump exit looping halt alive =>
    by_cases hsame : half = half'
    · subst hsame
      exact Halves.leave_ends (Function.update_self ..) hnew hshut
        (by rintro ⟨hst, hh⟩; exact hhalt ⟨hst, halt.symm.trans hh⟩) (alive.trans htwo)
    · simp only [Function.update_of_ne hsame] at hnew
      exact absurd hloop hnew
  | leave half' =>
    exfalso
    apply hnew
    by_cases hsame : half = half'
    · subst hsame
      rw [Halves.leave, hloop]
      exact hloop
    · unfold Halves.leave
      split <;> simp only [Function.update_of_ne hsame, hloop]
  | stopFlag => exact absurd hloop hnew
  | stopHalt => exact absurd hloop hnew

/-- **A half that has ended leaves no live socket** in a run in which no half
leaves its loop on a live socket, other than to halt it.  And that is what it
takes: at any point of such a run, a half that does leave a live socket can be
the next to end, on a live socket. -/
theorem finished_socketShut {p p' : TunnelPump κ} {handle : Handle κ} {config : PumpConfig}
    {nextOutSeq nextInSeq : UInt64} {io : StartIo}
    (hstart : p.start handle config nextOutSeq nextInSeq io = (.ok (), p')) (es : List HalvesEvent)
    (hlive : Machine.Along (Halves.step C) (fun s e => ¬ s.LeavesLive C e) (.started p') es) :
    Machine.Always (Halves.step C) Halves.Halted (.started p') es ∧
      ∀ e, (Machine.run (Halves.step C) (.started p') es).LeavesLive C e → ∃ half n,
        ¬ (Machine.run (Halves.step C) (.started p')
          (es ++ e :: List.replicate n (.leave half))).Halted := by
  have halive : p'.alive = 2 := by
    rw [TunnelPump.start] at hstart
    split_ifs at hstart
    · cases hstart
    · dsimp only at hstart
      split at hstart
      · cases hstart
      · cases hstart
        rfl
  have hsafe := Machine.always_of_along (I := Halves.Safe) (fun s e hs hq => hs.step hq) es
    (Halves.started_safe p') hlive
  have hcounted : (Machine.run (Halves.step C) (.started p') es).Counted :=
    Machine.run_inv (fun s e hs => hs.step e) es halive
  refine ⟨hsafe.imp fun s hs => hs.halted, fun e he => ?_⟩
  obtain ⟨half, n, hend⟩ := he.ends hsafe.last hcounted
  refine ⟨half, n, ?_⟩
  rw [Machine.run_append, Machine.run_cons, Machine.run_replicate]
  exact hend

/-- A completed handshake for the samples. -/
def sampleHandle : Handle UInt8 where
  id := 0
  base := 0
  state :=
    { ephemeral := 5
      ephemeralPublic := Crypto.toy.publicKey 5
      authKey := Crypto.zeros 32
      wireHello := []
      sealedSessionId := Crypto.zeros 32
      recordKeys := some ⟨Crypto.zeros 32, Crypto.zeros 32⟩
      completed := true }

/-- A first start on it. -/
def sampleStart : Except SessionError Unit × TunnelPump UInt8 :=
  TunnelPump.new.start sampleHandle ⟨false, none⟩ 1 1 ⟨none, none, true⟩

theorem finished_socketShut_stopped :
    Machine.Always (Halves.step Crypto.toy) Halves.Halted (.started sampleStart.2)
      [.stopFlag, .stopHalt, .outbound .stopped, .leave .outbound] := by
  have hstart : TunnelPump.new.start sampleHandle ⟨false, none⟩ 1 1 ⟨none, none, true⟩
      = (.ok (), sampleStart.2) := rfl
  have hlive : Machine.Along (Halves.step Crypto.toy) (fun s e => ¬ s.LeavesLive Crypto.toy e)
      (.started sampleStart.2) [.stopFlag, .stopHalt, .outbound .stopped, .leave .outbound] := by
    decide
  exact (finished_socketShut hstart _ hlive).1

/-- The TUN ends: the outbound half finishes, and the inbound half goes on reading
a socket that nobody has shut. -/
theorem not_finished_socketShut :
    let s := Machine.run (Halves.step Crypto.toy) (.started sampleStart.2)
      [.outbound .eof, .leave .outbound]
    sampleStart.1 = .ok () ∧ s.stage .outbound = .finished ∧ s.socketShut = false ∧
      s.stage .inbound = .looping :=
  ⟨rfl, rfl, rfl, rfl⟩

end ShadeVpn.Native
