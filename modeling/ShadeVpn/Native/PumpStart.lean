import ShadeVpn.Lib.Machine
import ShadeVpn.Native.Halves

/-!
# Starting a pump

`TunnelPump::start` takes `running`, publishes `stop` and the sequences, and only then
clones the socket; and it installs its halt handle in a field that belongs to no start
in particular.

* `failureKeeps_iff` — a start that fails leaves the pump as it was unless it failed at the
  clone, which leaves a pump that runs forever without threads.
* `spares_of_along` — the last thread of a pump clears `running` before it halts the socket.
  As long as no start installs its handle in between, no thread takes the handle of a later
  start; `takes_later` is what happens otherwise.
* `startSteps_of`, `Starts.Of.run` — the steps are those of `TunnelPump::start` and of the halves.
-/

namespace ShadeVpn.Native

open Octets Checked Handshake Transport Vless Pump

variable {κ : Type}

/-! ## A start that fails -/

/-- The control fields are as before. -/
structure TunnelPump.Restored (p p' : TunnelPump κ) : Prop where
  running : p'.running = p.running
  stop : p'.stop = p.stop
  alive : p'.alive = p.alive
  seqOut : p'.seqOut = p.seqOut
  seqIn : p'.seqIn = p.seqIn
  halt : p'.halt = p.halt

/-- If a start fails, it has changed nothing, and a later start with a working socket
succeeds on a pump that was not running. -/
def TunnelPump.FailureKeeps (p : TunnelPump κ) (handle : Handle κ) (config : PumpConfig)
    (nextOutSeq nextInSeq : UInt64) (io : StartIo) : Prop :=
  ∀ e, (p.start handle config nextOutSeq nextInSeq io).1 = .error e →
    p.Restored (p.start handle config nextOutSeq nextInSeq io).2 ∧
      (p.running = false → ∀ later : StartIo, later.outClone = none →
        ((p.start handle config nextOutSeq nextInSeq io).2.start handle config nextOutSeq
          nextInSeq later).1 = .ok ())

section Start

variable {p : TunnelPump κ} {handle : Handle κ} {config : PumpConfig}
  {nextOutSeq nextInSeq : UInt64} {io : StartIo}

theorem start_running (h : p.running = true) :
    p.start handle config nextOutSeq nextInSeq io = (.error .alreadyRunning, p) := by
  rw [TunnelPump.start, if_pos h]

theorem start_cloneFailed (h : ¬ p.running = true) {os : String} (hclone : io.outClone = some os) :
    p.start handle config nextOutSeq nextInSeq io = (.error (.socketClone os),
      { p with running := true, stop := false, seqOut := nextOutSeq, seqIn := nextInSeq }) := by
  rw [TunnelPump.start, if_neg h]
  simp only [hclone]

theorem start_cloned (h : ¬ p.running = true) (hclone : io.outClone = none) :
    (p.start handle config nextOutSeq nextInSeq io).1 = .ok () := by
  rw [TunnelPump.start, if_neg h]
  simp only [hclone]

/-- **A failed start changes nothing** if it failed because the pump was running. -/
theorem failureKeeps_iff :
    p.FailureKeeps handle config nextOutSeq nextInSeq io ↔
      p.running = true ∨ io.outClone = none := by
  by_cases hrunning : p.running = true
  · refine iff_of_true (fun e _ => ?_) (Or.inl hrunning)
    rw [start_running hrunning]
    exact ⟨⟨rfl, rfl, rfl, rfl, rfl, rfl⟩, fun h => absurd (hrunning.symm.trans h) (by decide)⟩
  cases hclone : io.outClone with
  | none =>
    refine iff_of_true (fun e he => ?_) (Or.inr rfl)
    rw [start_cloned hrunning hclone] at he
    cases he
  | some os =>
    refine iff_of_false (fun h => ?_) (by simp [hrunning])
    have hkept := (h (.socketClone os) (by rw [start_cloneFailed hrunning hclone])).1.running
    rw [start_cloneFailed hrunning hclone] at hkept
    exact hrunning hkept.symm

/-- Behind a failed clone every start is refused. -/
theorem start_after_failed_clone {os : String}
    (h : (p.start handle config nextOutSeq nextInSeq io).1 = .error (.socketClone os))
    (later : StartIo) :
    ((p.start handle config nextOutSeq nextInSeq io).2.start handle config nextOutSeq nextInSeq
      later).1 = .error .alreadyRunning := by
  by_cases hrunning : p.running = true
  · rw [start_running hrunning] at h
    cases h
  cases hclone : io.outClone with
  | none =>
    rw [start_cloned hrunning hclone] at h
    cases h
  | some os' => rw [start_cloneFailed hrunning hclone, start_running rfl]

end Start

theorem not_failureKeeps : ¬ ∀ (p : TunnelPump UInt8) (handle : Handle UInt8)
    (config : PumpConfig) (nextOutSeq nextInSeq : UInt64) (io : StartIo),
    p.FailureKeeps handle config nextOutSeq nextInSeq io := by
  intro hall
  have hkeeps := hall .new sampleHandle ⟨false, none⟩ 0 0 ⟨none, some "EMFILE", false⟩
    (.socketClone "EMFILE") rfl
  exact absurd hkeeps.1.running (by decide)

/-! ## The steps of a start -/

/-- The control fields of `TunnelInner`.  `halt` is the number of the start whose handle
is there. -/
structure Control where
  running : Bool
  stop : Bool
  alive : ℕ
  seqOut : UInt64
  seqIn : UInt64
  halt : Option ℕ

/-- The counter of a half is moved. -/
def Control.setSeq (c : Control) (half : Half) (seq : UInt64) : Control :=
  match half with
  | .outbound => { c with seqOut := seq }
  | .inbound => { c with seqIn := seq }

/-- Where a start stands that has taken `running`. -/
inductive StartStage where
  /-- It has not begun. -/
  | unborn
  /-- The store to `stop` is next. -/
  | stop
  | seqOut
  | seqIn
  /-- The clone for the outbound half is next. -/
  | clone
  /-- The clone for the halt handle, and its store, are next. -/
  | install
  | alive
  | spawnOut
  | spawnIn
  | started
  | failed
  deriving DecidableEq, Repr

/-- A start: the sequences it was given, where it stands, and its halves once they are
spawned. -/
structure Start where
  nextOutSeq : UInt64
  nextInSeq : UInt64
  stage : StartStage
  half : Half → Option HalfStage

/-- A pump that is started again and again.  `takes` records the halt handles that threads
took: the start of the thread, and the start of the handle. -/
structure Starts where
  control : Control
  count : ℕ
  start : ℕ → Start
  takes : List (ℕ × ℕ)

namespace Starts

/-- A pump that has never been started. -/
def new : Starts where
  control := ⟨false, false, 0, 0, 0, none⟩
  count := 0
  start _ := ⟨0, 0, .unborn, fun _ => none⟩
  takes := []

/-- `running.swap(true)`: a start that finds `false` goes on. -/
def begin (s : Starts) (nextOutSeq nextInSeq : UInt64) : Starts :=
  if s.control.running then s
  else
    { s with
      control := { s.control with running := true }
      count := s.count + 1
      start := Function.update s.start s.count ⟨nextOutSeq, nextInSeq, .stop, fun _ => none⟩ }

/-- The `n`-th start goes on. -/
def setStage (s : Starts) (n : ℕ) (stage : StartStage) : Starts :=
  { s with start := Function.update s.start n { s.start n with stage } }

def setHalf (s : Starts) (n : ℕ) (half : Half) (stage : HalfStage) : Starts :=
  { s with
    start := Function.update s.start n
      { s.start n with half := Function.update (s.start n).half half (some stage) } }

/-- The next step of the `n`-th start.  `cloned` says whether the clone succeeds, if the
step is one. -/
def advance (s : Starts) (n : ℕ) (cloned : Bool) : Starts :=
  match (s.start n).stage with
  | .unborn => s
  | .stop => { s with control := { s.control with stop := false } }.setStage n .seqOut
  | .seqOut =>
    { s with control := { s.control with seqOut := (s.start n).nextOutSeq } }.setStage n .seqIn
  | .seqIn =>
    { s with control := { s.control with seqIn := (s.start n).nextInSeq } }.setStage n .clone
  | .clone => s.setStage n (if cloned then .install else .failed)
  | .install =>
    { s with control := { s.control with halt := if cloned then some n else none } }.setStage n
      .alive
  | .alive => { s with control := { s.control with alive := 2 } }.setStage n .spawnOut
  | .spawnOut => (s.setHalf n .outbound .looping).setStage n .spawnIn
  | .spawnIn => (s.setHalf n .inbound .looping).setStage n .started
  | .started => s
  | .failed => s

/-- `halt_socket`, by a thread of the `n`-th start. -/
def haltSocket (s : Starts) (n : ℕ) : Starts :=
  { s with
    control := { s.control with halt := none }
    takes := s.takes ++ s.control.halt.toList.map (n, ·) }

/-- A turn of a loop, which may move the counter of its half and leave the loop. -/
def turn (s : Starts) (n : ℕ) (half : Half) (seq : UInt64) (exit : Option Exit) : Starts :=
  if (s.start n).half half = some .looping then
    { s with control := s.control.setSeq half seq }.setHalf n half (half.stageAfter exit)
  else s

/-- What a half goes on with behind its loop, as in `Halves.leave`. -/
def leave (s : Starts) (n : ℕ) (half : Half) : Starts :=
  match (s.start n).half half with
  | some .halting => (s.haltSocket n).setHalf n half .leaving
  | some .leaving =>
    { s with control := { s.control with alive := s.control.alive - 1 } }.setHalf n half
      (if s.control.alive = 1 then .last else .finished)
  | some .last =>
    { s with control := { s.control with running := false } }.setHalf n half .lastHalting
  | some .lastHalting => (s.haltSocket n).setHalf n half .finished
  | _ => s

/-- What can happen to the pump next. -/
inductive Event where
  | begin (nextOutSeq nextInSeq : UInt64)
  | advance (n : ℕ) (cloned : Bool)
  | turn (n : ℕ) (half : Half) (seq : UInt64) (exit : Option Exit)
  | leave (n : ℕ) (half : Half)
  | stopFlag
  | stopHalt

def step (s : Starts) : Event → Starts
  | .begin nextOutSeq nextInSeq => s.begin nextOutSeq nextInSeq
  | .advance n cloned => s.advance n cloned
  | .turn n half seq exit => s.turn n half seq exit
  | .leave n half => s.leave n half
  | .stopFlag => { s with control := { s.control with stop := true } }
  | .stopHalt => { s with control := { s.control with halt := none } }

end Starts

/-! ## What holds of the starts -/

/-- The other half. -/
def Half.other : Half → Half
  | .outbound => .inbound
  | .inbound => .outbound

/-- A half has cleared `running`, or has ended behind the other. -/
def HalfStage.Over (stage : Option HalfStage) : Prop :=
  stage = some .lastHalting ∨ stage = some .finished

/-- What the halves of a start add to `alive`: a half that is to be spawned counts. -/
def owed (half : Half → Option HalfStage) : ℕ :=
  ((half .outbound).map HalfStage.alive).getD 1 + ((half .inbound).map HalfStage.alive).getD 1

/-- The halves that are there at a stage. -/
def StartStage.Spawned (half : Half → Option HalfStage) : StartStage → Prop
  | .spawnIn => half .outbound ≠ none ∧ half .inbound = none
  | .started => ∀ h, half h ≠ none
  | _ => ∀ h, half h = none

/-- The stages behind the store to `alive`. -/
def StartStage.Armed (stage : StartStage) : Prop :=
  stage = .spawnOut ∨ stage = .spawnIn ∨ stage = .started

/-- A half that was the last one finds the other one finished. -/
def Lone (half : Half → Option HalfStage) : Prop :=
  ∀ h, half h = some .last ∨ half h = some .lastHalting → half h.other = some .finished

theorem Half.other_other (h : Half) : h.other.other = h := by
  cases h <;> rfl

theorem Half.eq_other_of_ne {h half : Half} (hne : h ≠ half) : h = half.other := by
  cases h <;> cases half <;> first | rfl | exact absurd rfl hne

theorem Half.other_ne (h : Half) : h.other ≠ h := by
  cases h <;> decide

/-- A half that has not ended yet moves on to a stage in front of its `fetch_sub`. -/
theorem Lone.update {f : Half → Option HalfStage} (hf : Lone f) {h : Half} {stage : HalfStage}
    (hold : f h ≠ some .finished) (hlast : stage ≠ .last) (hhalting : stage ≠ .lastHalting) :
    Lone (Function.update f h (some stage)) := by
  intro h' hh'
  by_cases hsame : h' = h
  · subst hsame
    simp [hlast, hhalting] at hh'
  · rw [Function.update_of_ne hsame] at hh'
    have hother := hf h' hh'
    rw [Half.eq_other_of_ne hsame, Half.other_other] at hother
    exact absurd hother hold

/-- A half whose other one is finished may be the last one. -/
theorem Lone.of_other {f : Half → Option HalfStage} {h : Half} (hother : f h.other = some .finished)
    (stage : HalfStage) : Lone (Function.update f h (some stage)) := by
  intro h' hh'
  by_cases hsame : h' = h
  · subst hsame
    simpa [Half.other_ne] using hother
  · have hh : h' = h.other := Half.eq_other_of_ne hsame
    rw [Function.update_of_ne hsame, hh, hother] at hh'
    simp at hh'

theorem owed_update (f : Half → Option HalfStage) (h : Half) (stage : HalfStage) :
    owed (Function.update f h (some stage)) + ((f h).map HalfStage.alive).getD 1 =
      owed f + stage.alive := by
  cases h <;> simp [owed] <;> omega

namespace Starts

/-- What holds in every state of the starts.  All starts but the newest are over, and so is
the newest while `running` is clear. -/
structure Inv (s : Starts) : Prop where
  unborn : ∀ n, s.count ≤ n → (s.start n).stage = .unborn
  spawned : ∀ n, (s.start n).stage.Spawned (s.start n).half
  older : ∀ n, n + 1 < s.count → ∀ h, HalfStage.Over ((s.start n).half h)
  free : s.control.running = false → ∀ n, n < s.count → ∀ h, HalfStage.Over ((s.start n).half h)
  alive : ∀ n, n + 1 = s.count → (s.start n).stage.Armed →
    s.control.alive = owed (s.start n).half
  lone : ∀ n, Lone (s.start n).half
  halt : ∀ m, s.control.halt = some m → m < s.count

theorem inv_new : new.Inv where
  unborn _ _ := rfl
  spawned _ _ := rfl
  older n h := absurd h (Nat.not_lt_zero _)
  free _ n h := absurd h (Nat.not_lt_zero _)
  alive n h := absurd h (Nat.succ_ne_zero n)
  lone n h hh := by rcases hh with hh | hh <;> cases hh
  halt m h := by cases h

variable {s s' : Starts}

theorem Inv.lt_count (hi : s.Inv) {n : ℕ} (h : (s.start n).stage ≠ .unborn) : n < s.count := by
  by_contra hle
  exact h (hi.unborn n (not_lt.1 hle))

/-- A half that is not over belongs to the newest start, and the pump is running. -/
theorem Inv.newest (hi : s.Inv) {n : ℕ} (hn : (s.start n).stage ≠ .unborn) {h : Half}
    (hover : ¬ HalfStage.Over ((s.start n).half h)) :
    n + 1 = s.count ∧ s.control.running = true := by
  have hlt := hi.lt_count hn
  constructor
  · by_contra hne
    exact hover (hi.older n (by omega) h)
  · by_contra hclear
    exact hover (hi.free (by simpa using hclear) n hlt h)

theorem Inv.stage_of_half (hi : s.Inv) {n : ℕ} {h : Half} {stage : HalfStage}
    (hhalf : (s.start n).half h = some stage) :
    (s.start n).stage = .spawnIn ∨ (s.start n).stage = .started := by
  have hspawned := hi.spawned n
  cases hstage : (s.start n).stage <;> rw [hstage] at hspawned <;>
    first
    | exact Or.inl rfl
    | exact Or.inr rfl
    | exact absurd (hspawned h) (by rw [hhalf]; exact Option.some_ne_none _)

/-- **The newest start moves on.** -/
theorem Inv.of_newest (hi : s.Inv) {n : ℕ} (hn : n + 1 = s.count)
    (hrunning : s'.control.running = true) (hcount : s'.count = s.count) {t : Start}
    (hstart : s'.start = Function.update s.start n t) (hspawned : t.stage.Spawned t.half)
    (halive : t.stage.Armed → s'.control.alive = owed t.half) (hlone : Lone t.half)
    (hhalt : ∀ m, s'.control.halt = some m → m < s.count) : s'.Inv where
  unborn m hm := by
    have hne : m ≠ n := by omega
    rw [hstart, Function.update_of_ne hne]
    exact hi.unborn m (by omega)
  spawned m := by
    by_cases hm : m = n
    · subst hm
      simpa [hstart] using hspawned
    · rw [hstart, Function.update_of_ne hm]
      exact hi.spawned m
  older m hm := by
    have hne : m ≠ n := by omega
    rw [hstart, Function.update_of_ne hne]
    exact hi.older m (by omega)
  free hclear := absurd hrunning (by simp [hclear])
  alive m hm := by
    obtain rfl : m = n := by omega
    simpa [hstart] using halive
  lone m := by
    by_cases hm : m = n
    · subst hm
      simpa [hstart] using hlone
    · rw [hstart, Function.update_of_ne hm]
      exact hi.lone m
  halt m hm := hcount ▸ hhalt m hm

theorem Inv.begin (hi : s.Inv) (nextOutSeq nextInSeq : UInt64) :
    (s.begin nextOutSeq nextInSeq).Inv := by
  rw [Starts.begin]
  split_ifs with hrunning
  · exact hi
  rw [Bool.not_eq_true] at hrunning
  have hfresh : ∀ n, n ≠ s.count →
      Function.update s.start s.count ⟨nextOutSeq, nextInSeq, .stop, fun _ => none⟩ n = s.start n :=
    fun n hn => Function.update_of_ne hn _ _
  constructor
  · intro n hn
    dsimp only at hn ⊢
    rw [hfresh n (by omega)]
    exact hi.unborn n (by omega)
  · intro n
    by_cases hn : n = s.count
    · subst hn
      simp [StartStage.Spawned]
    · simpa only [hfresh n hn] using hi.spawned n
  · intro n hn h
    dsimp only at hn ⊢
    rw [hfresh n (by omega)]
    exact hi.free hrunning n (by omega) h
  · exact fun hclear => absurd hclear (by simp)
  · intro n hn harmed
    obtain rfl : n = s.count := by simpa using hn
    simp [StartStage.Armed] at harmed
  · intro n
    by_cases hn : n = s.count
    · subst hn
      intro h hh
      simp at hh
    · simpa only [hfresh n hn] using hi.lone n
  · intro m hm
    exact Nat.lt_succ_of_lt (hi.halt m hm)

theorem Inv.advance (hi : s.Inv) (n : ℕ) (cloned : Bool) : (s.advance n cloned).Inv := by
  have hspawned := hi.spawned n
  have hlone := hi.lone n
  have hnewest : ∀ h, (s.start n).half h = none → (s.start n).stage ≠ .unborn →
      n + 1 = s.count ∧ s.control.running = true := fun h hnone hstage =>
    hi.newest hstage (h := h) fun hover => by
      rcases hover with hover | hover <;> rw [hnone] at hover <;> cases hover
  have halive := hi.alive n
  rw [Starts.advance]
  cases hstage : (s.start n).stage <;> rw [hstage] at hspawned
  case unborn => exact hi
  case started => exact hi
  case failed => exact hi
  case stop | seqOut | seqIn =>
    obtain ⟨hn, hrunning⟩ := hnewest .outbound (hspawned _) (by simp [hstage])
    exact hi.of_newest hn hrunning rfl rfl hspawned (by simp [StartStage.Armed]) hlone hi.halt
  case clone =>
    obtain ⟨hn, hrunning⟩ := hnewest .outbound (hspawned _) (by simp [hstage])
    refine hi.of_newest hn hrunning rfl rfl ?_ ?_ hlone hi.halt
    · cases cloned <;> exact hspawned
    · cases cloned <;> simp [StartStage.Armed]
  case install =>
    obtain ⟨hn, hrunning⟩ := hnewest .outbound (hspawned _) (by simp [hstage])
    refine hi.of_newest hn hrunning rfl rfl hspawned (by simp [StartStage.Armed]) hlone ?_
    intro m hm
    cases cloned
    · cases hm
    · obtain rfl : n = m := by simpa [setStage] using hm
      omega
  case alive =>
    obtain ⟨hn, hrunning⟩ := hnewest .outbound (hspawned _) (by simp [hstage])
    refine hi.of_newest hn hrunning rfl rfl hspawned (fun _ => ?_) hlone hi.halt
    simp [setStage, owed, hspawned .outbound, hspawned .inbound]
  case spawnOut =>
    obtain ⟨hn, hrunning⟩ := hnewest .outbound (hspawned _) (by simp [hstage])
    have hsame := halive hn (Or.inl hstage)
    have howed := owed_update (s.start n).half .outbound .looping
    refine hi.of_newest hn hrunning rfl (t := ⟨(s.start n).nextOutSeq, (s.start n).nextInSeq,
      .spawnIn, Function.update (s.start n).half .outbound (some .looping)⟩) ?_ ?_ ?_ ?_ hi.halt
    · simp [setStage, setHalf]
    · simp [StartStage.Spawned, hspawned .inbound]
    · intro _
      simp [hspawned .outbound] at howed
      simp [setStage, setHalf, hsame, howed]
    · exact hlone.update (by simp [hspawned .outbound]) (by decide) (by decide)
  case spawnIn =>
    obtain ⟨hn, hrunning⟩ := hnewest .inbound hspawned.2 (by simp [hstage])
    have hsame := halive hn (Or.inr (Or.inl hstage))
    have howed := owed_update (s.start n).half .inbound .looping
    refine hi.of_newest hn hrunning rfl (t := ⟨(s.start n).nextOutSeq, (s.start n).nextInSeq,
      .started, Function.update (s.start n).half .inbound (some .looping)⟩) ?_ ?_ ?_ ?_ hi.halt
    · simp [setStage, setHalf]
    · intro h
      cases h
      · simpa using hspawned.1
      · simp
    · intro _
      simp [hspawned.2] at howed
      simp [setStage, setHalf, hsame, howed]
    · exact hlone.update (by simp [hspawned.2]) (by decide) (by decide)

/-- A half that is not over belongs to the newest start, which has armed `alive`. -/
theorem Inv.newest_of_half (hi : s.Inv) {n : ℕ} {half : Half} {stage : HalfStage}
    (hhalf : (s.start n).half half = some stage) (hover : ¬ HalfStage.Over (some stage)) :
    n + 1 = s.count ∧ s.control.running = true ∧ (s.start n).stage.Armed := by
  have hstage := hi.stage_of_half hhalf
  have hborn : (s.start n).stage ≠ .unborn := by
    rcases hstage with h | h <;> rw [h] <;> decide
  obtain ⟨hn, hrunning⟩ := hi.newest hborn (h := half) (hhalf ▸ hover)
  exact ⟨hn, hrunning, Or.inr hstage⟩

/-- The halves that are spawned stay so. -/
theorem spawned_update {f : Half → Option HalfStage} {stage : StartStage} (h : stage.Spawned f)
    {half : Half} {old : HalfStage} (hold : f half = some old) (new : HalfStage) :
    stage.Spawned (Function.update f half (some new)) := by
  cases stage
  case started =>
    intro h'
    by_cases hsame : h' = half
    · subst hsame
      simp
    · rw [Function.update_of_ne hsame]
      exact h h'
  case spawnIn =>
    cases half
    · simpa [StartStage.Spawned] using h.2
    · exact absurd h.2 (by simp [hold])
  all_goals exact absurd (h half) (by simp [hold])

/-- **A half of the newest start moves on.** -/
theorem Inv.of_half (hi : s.Inv) {n : ℕ} {half : Half} {old : HalfStage} (new : HalfStage)
    (c : Control) (hold : (s.start n).half half = some old) (hover : ¬ HalfStage.Over (some old))
    (hrunning : c.running = s.control.running)
    (halive : c.alive + old.alive = s.control.alive + new.alive)
    (hlone : Lone (Function.update (s.start n).half half (some new)))
    (hhalt : c.halt = s.control.halt ∨ c.halt = none) (takes : List (ℕ × ℕ)) :
    (setHalf { s with control := c, takes } n half new).Inv := by
  obtain ⟨hn, hrun, -⟩ := hi.newest_of_half hold hover
  refine hi.of_newest hn (hrunning.trans hrun) rfl rfl (spawned_update (hi.spawned n) hold new)
    (fun harmed => ?_) hlone ?_
  · have hsame := hi.alive n hn harmed
    have howed := owed_update (s.start n).half half new
    rw [hold] at howed
    simp only [Option.map_some, Option.getD_some] at howed
    change c.alive = _
    dsimp only
    omega
  · intro m hm
    rcases hhalt with h | h
    · exact hi.halt m (h ▸ hm)
    · exact absurd (h.symm.trans hm) (by simp)

theorem stageAfter_ne_last (half : Half) (exit : Option Exit) :
    half.stageAfter exit ≠ .last ∧ half.stageAfter exit ≠ .lastHalting := by
  rcases exit with _ | exit
  · exact ⟨HalfStage.noConfusion, HalfStage.noConfusion⟩
  · cases half <;> cases exit <;> exact ⟨by decide, by decide⟩

theorem Inv.turn (hi : s.Inv) (n : ℕ) (half : Half) (seq : UInt64) (exit : Option Exit) :
    (s.turn n half seq exit).Inv := by
  rw [Starts.turn]
  split_ifs with hlooping
  · have halive := alive_stageAfter half exit
    obtain ⟨hlast, hhalting⟩ := stageAfter_ne_last half exit
    refine hi.of_half _ (s.control.setSeq half seq) hlooping (by simp [HalfStage.Over]) ?_ ?_ ?_
      (Or.inl ?_) s.takes
    · cases half <;> rfl
    · rw [halive]
      cases half <;> rfl
    · exact (hi.lone n).update (by simp [hlooping]) hlast hhalting
    · cases half <;> rfl
  · exact hi

/-- A half that was the last one goes on, of whichever start. -/
theorem Inv.of_over (hi : s.Inv) {n : ℕ} {half : Half} {old : HalfStage} (new : HalfStage)
    (c : Control) (hold : (s.start n).half half = some old)
    (hlast : old = .last ∨ old = .lastHalting)
    (hnew : new = .lastHalting ∨ new = .finished) (halive : c.alive = s.control.alive)
    (hfree : c.running = false → s.control.running = false ∨ n + 1 = s.count)
    (hhalt : c.halt = s.control.halt ∨ c.halt = none) (takes : List (ℕ × ℕ)) :
    (setHalf { s with control := c, takes } n half new).Inv := by
  have hother : (s.start n).half half.other = some .finished :=
    hi.lone n half (by rcases hlast with rfl | rfl <;> simp [hold])
  have hover : ∀ h, HalfStage.Over (Function.update (s.start n).half half (some new) h) := by
    intro h
    by_cases hsame : h = half
    · subst hsame
      rcases hnew with rfl | rfl <;> simp [HalfStage.Over]
    · have hh : h = half.other := Half.eq_other_of_ne hsame
      rw [Function.update_of_ne hsame, hh]
      exact Or.inr hother
  have hat : ∀ m, m ≠ n → (setHalf { s with control := c, takes } n half new).start m = s.start m :=
    fun m hm => Function.update_of_ne hm _ _
  have hself : (setHalf { s with control := c, takes } n half new).start n =
      { s.start n with half := Function.update (s.start n).half half (some new) } :=
    Function.update_self ..
  constructor
  · intro m hm
    by_cases hmn : m = n
    · subst hmn
      rw [hself]
      exact hi.unborn m hm
    · rw [hat m hmn]
      exact hi.unborn m hm
  · intro m
    by_cases hmn : m = n
    · subst hmn
      rw [hself]
      exact spawned_update (hi.spawned m) hold new
    · rw [hat m hmn]
      exact hi.spawned m
  · intro m hm h
    by_cases hmn : m = n
    · subst hmn
      rw [hself]
      exact hover h
    · rw [hat m hmn]
      exact hi.older m hm h
  · intro hclear m hm h
    by_cases hmn : m = n
    · subst hmn
      rw [hself]
      exact hover h
    · rw [hat m hmn]
      have hm' : m < s.count := hm
      rcases hfree hclear with hfalse | hn
      · exact hi.free hfalse m hm h
      · exact hi.older m (by omega) h
  · intro m hm harmed
    by_cases hmn : m = n
    · subst hmn
      rw [hself] at harmed ⊢
      have hsame := hi.alive m hm harmed
      have howed := owed_update (s.start m).half half new
      rw [hold] at howed
      have hzero : old.alive = 0 ∧ new.alive = 0 := by
        rcases hlast with rfl | rfl <;> rcases hnew with rfl | rfl <;> exact ⟨rfl, rfl⟩
      simp only [Option.map_some, Option.getD_some, hzero] at howed
      exact halive.trans (hsame.trans howed.symm)
    · rw [hat m hmn] at harmed ⊢
      exact halive.trans (hi.alive m hm harmed)
  · intro m
    by_cases hmn : m = n
    · subst hmn
      rw [hself]
      exact Lone.of_other hother new
    · rw [hat m hmn]
      exact hi.lone m
  · intro m hm
    rcases hhalt with h | h
    · exact hi.halt m (h ▸ hm)
    · exact absurd (h.symm.trans hm) (by simp)

/-- In front of the `fetch_sub` of a half, `alive` counts the half and the other one. -/
theorem Inv.alive_of_leaving (hi : s.Inv) {n : ℕ} {half : Half}
    (hold : (s.start n).half half = some .leaving) :
    s.control.alive = 1 + (((s.start n).half half.other).map HalfStage.alive).getD 1 := by
  obtain ⟨hn, -, harmed⟩ := hi.newest_of_half hold (by simp [HalfStage.Over])
  rw [hi.alive n hn harmed]
  cases half
  · simp [owed, hold, Half.other, HalfStage.alive]
  · simp [owed, hold, Half.other, HalfStage.alive, Nat.add_comm]

/-- The half that finds itself the last one finds the other one finished. -/
theorem Inv.other_finished (hi : s.Inv) {n : ℕ} {half : Half}
    (hold : (s.start n).half half = some .leaving) (hlast : s.control.alive = 1) :
    (s.start n).half half.other = some .finished := by
  have halive := hi.alive_of_leaving hold
  have hlone := hi.lone n half.other
  rw [Half.other_other, hold] at hlone
  rcases hother : (s.start n).half half.other with _ | stage
  · rw [hother] at halive
    simp [hlast] at halive
  · rw [hother] at halive hlone
    cases stage
    case finished => rfl
    case last => exact absurd (hlone (Or.inl rfl)) (by simp)
    case lastHalting => exact absurd (hlone (Or.inr rfl)) (by simp)
    all_goals simp [hlast, HalfStage.alive] at halive

theorem Inv.leave (hi : s.Inv) (n : ℕ) (half : Half) : (s.leave n half).Inv := by
  rw [Starts.leave]
  split
  · next hhalf =>
    exact hi.of_half .leaving { s.control with halt := none } hhalf (by simp [HalfStage.Over]) rfl
      rfl ((hi.lone n).update (by simp [hhalf]) (by decide) (by decide)) (Or.inr rfl) _
  · next hhalf =>
    have halive := hi.alive_of_leaving hhalf
    refine hi.of_half _ { s.control with alive := s.control.alive - 1 } hhalf
      (by simp [HalfStage.Over]) rfl ?_ ?_ (Or.inl rfl) s.takes
    · have hnew : (if s.control.alive = 1 then HalfStage.last else .finished).alive = 0 := by
        split_ifs <;> rfl
      rw [hnew]
      dsimp only [HalfStage.alive]
      omega
    · split_ifs with hlast
      · exact Lone.of_other (hi.other_finished hhalf hlast) .last
      · exact (hi.lone n).update (by simp [hhalf]) (by decide) (by decide)
  · next hhalf =>
    obtain ⟨hn, -⟩ := hi.newest_of_half hhalf (by simp [HalfStage.Over])
    exact hi.of_over .lastHalting { s.control with running := false } hhalf (Or.inl rfl)
      (Or.inl rfl) rfl (fun _ => Or.inr hn) (Or.inl rfl) s.takes
  · next hhalf =>
    exact hi.of_over .finished { s.control with halt := none } hhalf (Or.inr rfl) (Or.inr rfl) rfl
      Or.inl (Or.inr rfl) _
  · exact hi

theorem Inv.step (hi : s.Inv) (e : Event) : (s.step e).Inv := by
  cases e with
  | begin nextOutSeq nextInSeq => exact hi.begin nextOutSeq nextInSeq
  | advance n cloned => exact hi.advance n cloned
  | turn n half seq exit => exact hi.turn n half seq exit
  | leave n half => exact hi.leave n half
  | stopFlag => exact ⟨hi.unborn, hi.spawned, hi.older, hi.free, hi.alive, hi.lone, hi.halt⟩
  | stopHalt =>
    exact ⟨hi.unborn, hi.spawned, hi.older, hi.free, hi.alive, hi.lone, fun m hm => by cases hm⟩

/-! ## Handles of later starts -/

/-- No thread has taken the handle of a start later than its own. -/
def Spares (s : Starts) : Prop := ∀ t ∈ s.takes, t.2 ≤ t.1

/-- A step is not the store of a halt handle between the last two steps of an older start. -/
def Undisturbed (s : Starts) : Event → Prop
  | .advance n true =>
    (s.start n).stage = .install → ∀ m < n, ∀ half, (s.start m).half half ≠ some .lastHalting
  | _ => True

instance (s : Starts) : ∀ e, Decidable (s.Undisturbed e)
  | .advance n true =>
    inferInstanceAs (Decidable ((s.start n).stage = .install →
      ∀ m < n, ∀ half, (s.start m).half half ≠ some .lastHalting))
  | .advance _ false => isTrue trivial
  | .begin _ _ => isTrue trivial
  | .turn _ _ _ _ => isTrue trivial
  | .leave _ _ => isTrue trivial
  | .stopFlag => isTrue trivial
  | .stopHalt => isTrue trivial

/-- A half whose halt is all that is left to do would take no later handle. -/
def Pending (s : Starts) : Prop :=
  ∀ n half, (s.start n).half half = some .lastHalting → ∀ m, s.control.halt = some m → m ≤ n

/-- A half that goes on by one step leaves the others as they were. -/
theorem half_setHalf {n m : ℕ} {half h : Half} {stage stage' : HalfStage}
    (hhalf : ((s.setHalf n half stage).start m).half h = some stage') :
    (m = n ∧ h = half ∧ stage = stage') ∨ (s.start m).half h = some stage' := by
  by_cases hm : m = n
  · subst hm
    by_cases hh : h = half
    · subst hh
      exact Or.inl ⟨rfl, rfl, by simpa [setHalf] using hhalf⟩
    · exact Or.inr (by simpa [setHalf, Function.update_of_ne hh] using hhalf)
  · exact Or.inr (by simpa [setHalf, Function.update_of_ne hm] using hhalf)

theorem half_setStage (s : Starts) (n : ℕ) (stage : StartStage) (m : ℕ) :
    ((s.setStage n stage).start m).half = (s.start m).half := by
  by_cases hm : m = n
  · subst hm
    simp [setStage]
  · simp [setStage, Function.update_of_ne hm]

/-- `Pending` survives a step that installs nothing. -/
theorem Pending.of_step (hi : s.Inv) (hp : s.Pending)
    (hhalt : s'.control.halt = s.control.halt ∨ s'.control.halt = none)
    (hnew : ∀ n half, (s'.start n).half half = some .lastHalting →
      n + 1 = s.count ∨ (s.start n).half half = some .lastHalting) : s'.Pending := by
  intro n half hhalf m hm
  rcases hhalt with h | h
  · rw [h] at hm
    rcases hnew n half hhalf with hn | hold
    · have hlt := hi.halt m hm
      omega
    · exact hp n half hold m hm
  · exact absurd (h.symm.trans hm) (by simp)

theorem Pending.begin (hi : s.Inv) (hp : s.Pending) (nextOutSeq nextInSeq : UInt64) :
    (s.begin nextOutSeq nextInSeq).Pending := by
  rw [Starts.begin]
  split_ifs with hrunning
  · exact hp
  · refine Pending.of_step hi hp (Or.inl rfl) fun n half hhalf => Or.inr ?_
    by_cases hn : n = s.count
    · subst hn
      simp at hhalf
    · simpa [Function.update_of_ne hn] using hhalf

theorem Pending.advance (hi : s.Inv) (hp : s.Pending) {n : ℕ} {cloned : Bool}
    (h : s.Undisturbed (.advance n cloned)) : (s.advance n cloned).Pending := by
  rw [Starts.advance]
  cases hstage : (s.start n).stage
  case unborn | started | failed => exact hp
  case install =>
    cases cloned
    · exact Pending.of_step hi hp (Or.inr rfl) fun m half hhalf =>
        Or.inr (by simpa only [half_setStage] using hhalf)
    · -- whoever is pending belongs to this start, or to a later one
      intro m half hhalf k hk
      obtain rfl : n = k := by simpa [setStage] using hk
      rw [half_setStage] at hhalf
      by_contra hlt
      exact h hstage m (not_le.1 hlt) half hhalf
  case stop | seqOut | seqIn | clone | alive =>
    exact Pending.of_step hi hp (Or.inl rfl) fun m half hhalf =>
      Or.inr (by simpa only [half_setStage] using hhalf)
  case spawnOut | spawnIn =>
    refine Pending.of_step hi hp (Or.inl rfl) fun m half hhalf => Or.inr ?_
    rw [half_setStage] at hhalf
    exact (half_setHalf hhalf).resolve_left (by simp)

theorem Pending.turn (hi : s.Inv) (hp : s.Pending) (n : ℕ) (half : Half) (seq : UInt64)
    (exit : Option Exit) : (s.turn n half seq exit).Pending := by
  rw [Starts.turn]
  split_ifs with hlooping
  · refine Pending.of_step hi hp (Or.inl (by cases half <;> rfl)) fun m h hhalf => Or.inr ?_
    exact (half_setHalf hhalf).resolve_left fun hnew =>
      (stageAfter_ne_last half exit).2 hnew.2.2
  · exact hp

theorem Pending.leave (hi : s.Inv) (hp : s.Pending) (n : ℕ) (half : Half) :
    (s.leave n half).Pending := by
  rw [Starts.leave]
  split
  · exact Pending.of_step hi hp (Or.inr rfl) fun m h hhalf =>
      Or.inr ((half_setHalf hhalf).resolve_left (by simp))
  · refine Pending.of_step hi hp (Or.inl rfl) fun m h hhalf =>
      Or.inr ((half_setHalf hhalf).resolve_left ?_)
    rintro ⟨-, -, hstage⟩
    split_ifs at hstage
  · next hlast =>
    refine Pending.of_step hi hp (Or.inl rfl) fun m h hhalf => ?_
    rcases half_setHalf hhalf with ⟨rfl, -, -⟩ | hold
    · exact Or.inl (hi.newest_of_half hlast (by simp [HalfStage.Over])).1
    · exact Or.inr hold
  · exact Pending.of_step hi hp (Or.inr rfl) fun m h hhalf =>
      Or.inr ((half_setHalf hhalf).resolve_left (by simp))
  · exact hp

theorem Pending.step (hi : s.Inv) (hp : s.Pending) {e : Event} (h : s.Undisturbed e) :
    (s.step e).Pending := by
  cases e with
  | begin nextOutSeq nextInSeq => exact hp.begin hi nextOutSeq nextInSeq
  | advance n cloned => exact hp.advance hi h
  | turn n half seq exit => exact hp.turn hi n half seq exit
  | leave n half => exact hp.leave hi n half
  | stopFlag => exact hp
  | stopHalt => exact fun n half _ m hm => by cases hm

/-- **A step spares later handles** if whoever is pending would take none. -/
theorem Spares.step (hi : s.Inv) (hp : s.Pending) (hs : s.Spares) (e : Event) :
    (s.step e).Spares := by
  have htake : ∀ {n : ℕ}, (∀ m, s.control.halt = some m → m ≤ n) →
      ∀ t ∈ s.takes ++ s.control.halt.toList.map (n, ·), t.2 ≤ t.1 := by
    intro n hn t ht
    rcases List.mem_append.1 ht with ht | ht
    · exact hs t ht
    · obtain ⟨m, hm, rfl⟩ := List.mem_map.1 ht
      exact hn m (Option.mem_toList.1 hm)
  cases e with
  | begin nextOutSeq nextInSeq =>
    change Spares (s.begin nextOutSeq nextInSeq)
    rw [Starts.begin]
    split_ifs <;> exact hs
  | advance n cloned =>
    change Spares (s.advance n cloned)
    rw [Starts.advance]
    cases (s.start n).stage <;> exact hs
  | turn n half seq exit =>
    change Spares (s.turn n half seq exit)
    rw [Starts.turn]
    split_ifs <;> exact hs
  | leave n half =>
    change Spares (s.leave n half)
    rw [Starts.leave]
    split
    · next hhalting =>
      refine htake fun m hm => ?_
      have hn := (hi.newest_of_half hhalting (by simp [HalfStage.Over])).1
      have hlt := hi.halt m hm
      omega
    · exact hs
    · exact hs
    · next hlast => exact htake (hp n half hlast)
    · exact hs
  | stopFlag => exact hs
  | stopHalt => exact hs

theorem pending_new : new.Pending := by
  intro n half hhalf
  cases hhalf

theorem spares_new : new.Spares := by
  intro t ht
  cases ht

/-- **An old pump never takes the handle of a later start**, in a run in which no start
installs its handle while the last half of an older one is about to halt the socket. -/
theorem spares_of_along (es : List Event) (h : Machine.Along step Undisturbed new es) :
    Machine.Always step Spares new es := by
  have hall := Machine.always_of_along (I := fun s => s.Inv ∧ s.Pending ∧ s.Spares)
    (fun s e hs hquiet => ⟨hs.1.step e, hs.2.1.step hs.1 hquiet, hs.2.2.step hs.1 hs.2.1 e⟩) es
    ⟨inv_new, pending_new, spares_new⟩ h
  exact hall.imp fun s hs => hs.2.2

/-- A start that installs its handle in between loses it. -/
theorem takes_later {n m : ℕ} {half : Half} (hpending : (s.start n).half half = some .lastHalting)
    (hlt : n < m) (hstage : (s.start m).stage = .install) :
    ¬ ((s.advance m true).leave n half).Spares := by
  intro hspares
  have hhalf : ((s.advance m true).start n).half half = some .lastHalting := by
    rw [Starts.advance, hstage]
    simpa only [half_setStage] using hpending
  have hhalt : (s.advance m true).control.halt = some m := by
    rw [Starts.advance, hstage]
    rfl
  have htaken : (n, m) ∈ ((s.advance m true).leave n half).takes := by
    rw [Starts.leave, hhalf]
    simp [haltSocket, setHalf, hhalt]
  exact absurd (hspares _ htaken) (not_le.2 hlt)

/-- A start that nothing interrupts, and both halves up to the halt of the last one. -/
def oneStart : List Event :=
  .begin 1 1 :: List.replicate 8 (.advance 0 true) ++
    [.turn 0 .outbound 2 none, .turn 0 .outbound 2 (some .stop),
      .turn 0 .inbound 1 (some .stop), .leave 0 .outbound, .leave 0 .inbound,
      .leave 0 .inbound]

/-- The halt is made before the next start comes to its own handle. -/
def twoStarts : List Event :=
  oneStart ++ .begin 5 5 :: .leave 0 .inbound :: List.replicate 8 (.advance 1 true)

theorem spares_twoStarts : Machine.Always step Spares new twoStarts :=
  spares_of_along twoStarts (by decide +kernel)

theorem not_spares : ¬ ∀ es, Machine.Always step Spares new es := by
  intro hall
  have hlast := (hall (oneStart ++ .begin 5 5 :: List.replicate 5 (.advance 1 true) ++
    [.leave 0 .inbound])).last
  exact absurd (hlast (0, 1) (by decide +kernel)) (by decide)

end Starts

/-! ## One start of the pump -/

/-- The control fields of a pump. -/
structure Control.Of (c : Control) (p : TunnelPump κ) : Prop where
  running : c.running = p.running
  stop : c.stop = p.stop
  alive : c.alive = p.alive
  seqOut : c.seqOut = p.seqOut
  seqIn : c.seqIn = p.seqIn
  halt : c.halt.isSome = p.halt

namespace Starts

/-- The steps of the next start, if nothing interrupts it. -/
def startSteps (s : Starts) (nextOutSeq nextInSeq : UInt64) (io : StartIo) : List Event :=
  .begin nextOutSeq nextInSeq ::
    [true, true, true, io.outClone.isNone, io.haltClone, true, true, true].map
      (.advance s.count)

/-- **A start that nothing interrupts** is `TunnelPump::start`. -/
theorem startSteps_of {s : Starts} {p : TunnelPump κ} (hi : s.Inv) (h : s.control.Of p)
    (handle : Handle κ) (config : PumpConfig) (nextOutSeq nextInSeq : UInt64) (io : StartIo) :
    (Machine.run step s (s.startSteps nextOutSeq nextInSeq io)).control.Of
      (p.start handle config nextOutSeq nextInSeq io).2 := by
  cases hrunning : p.running
  · have hclear : s.control.running = false := h.running.trans hrunning
    cases hout : io.outClone with
    | none =>
      rw [TunnelPump.start, if_neg (by simp [hrunning])]
      simp only [hout]
      simp [startSteps, hout, step, Starts.begin, hclear, Starts.advance, setStage, setHalf]
      cases hhalt : io.haltClone
      · exact ⟨rfl, rfl, rfl, rfl, rfl, rfl⟩
      · exact ⟨rfl, rfl, rfl, rfl, rfl, rfl⟩
    | some os =>
      rw [start_cloneFailed (by simp [hrunning]) hout]
      simp [startSteps, hout, step, Starts.begin, hclear, Starts.advance, setStage]
      exact ⟨rfl, rfl, h.alive, rfl, rfl, h.halt⟩
  · have hset : s.control.running = true := h.running.trans hrunning
    have hidle : ∀ cloned, s.advance s.count cloned = s := fun cloned => by
      rw [Starts.advance, hi.unborn s.count le_rfl]
    rw [start_running hrunning]
    simp [startSteps, step, Starts.begin, hset, hidle]
    exact h

/-- The `n`-th start is that of the halves. -/
structure Of (s : Starts) (n : ℕ) (h : Halves κ) : Prop where
  control : s.control.Of h.pump
  half : ∀ half, (s.start n).half half = some (h.stage half)

/-- One half goes on. -/
theorem Of.setHalf {s : Starts} {n : ℕ} {h : Halves κ} (ho : s.Of n h) {c : Control}
    {pump : TunnelPump κ} (hc : c.Of pump) (takes : List (ℕ × ℕ)) (half : Half)
    (stage : HalfStage) (shut : Bool) (stopping : ℕ) :
    (Starts.setHalf { s with control := c, takes } n half stage).Of n
      ⟨pump, shut, Function.update h.stage half stage, stopping⟩ where
  control := hc
  half h' := by
    by_cases hh : h' = half
    · subst hh
      simp [Starts.setHalf]
    · simpa [Starts.setHalf, Function.update_of_ne hh] using ho.half h'

/-- Behind a start that succeeds, its halves are at the beginning. -/
theorem startSteps_started {s : Starts} {p : TunnelPump κ} (hi : s.Inv) (h : s.control.Of p)
    (handle : Handle κ) (config : PumpConfig) (nextOutSeq nextInSeq : UInt64) {io : StartIo}
    (hrunning : p.running = false) (hout : io.outClone = none) :
    (Machine.run step s (s.startSteps nextOutSeq nextInSeq io)).Of s.count
      (Halves.started (p.start handle config nextOutSeq nextInSeq io).2) where
  control := startSteps_of hi h handle config nextOutSeq nextInSeq io
  half half := by
    have hclear : s.control.running = false := h.running.trans hrunning
    cases half <;>
      simp [startSteps, hout, step, Starts.begin, hclear, Starts.advance, setStage, Starts.setHalf,
        Halves.started]

theorem Of.leave {s : Starts} {n : ℕ} {h : Halves κ} (ho : s.Of n h) (half : Half) :
    (s.leave n half).Of n (h.leave half) := by
  obtain ⟨hrunning, hstop, halive, hout, hin, hhalt⟩ := ho.control
  rw [Starts.leave, Halves.leave, ho.half half]
  cases h.stage half
  case halting =>
    refine ho.setHalf ?_ _ half _ _ _
    exact ⟨hrunning, hstop, halive, hout, hin, rfl⟩
  case leaving =>
    simp only [halive]
    refine ho.setHalf ?_ s.takes half _ _ _
    exact ⟨hrunning, hstop, rfl, hout, hin, hhalt⟩
  case last =>
    refine ho.setHalf ?_ s.takes half _ _ _
    exact ⟨rfl, hstop, halive, hout, hin, hhalt⟩
  case lastHalting =>
    refine ho.setHalf ?_ _ half _ _ _
    exact ⟨hrunning, hstop, halive, hout, hin, rfl⟩
  case looping | finished | panicked => exact ho

/-- A turn of a loop is one of the starts. -/
theorem Of.turn {s : Starts} {n : ℕ} {h : Halves κ} (ho : s.Of n h) {half : Half}
    (hlooping : h.stage half = .looping) {seq : UInt64} {pump : TunnelPump κ}
    (hc : (s.control.setSeq half seq).Of pump) (exit : Option Exit) (shut : Bool) (stopping : ℕ) :
    (s.turn n half seq exit).Of n
      ⟨pump, shut, Function.update h.stage half (half.stageAfter exit), stopping⟩ := by
  rw [Starts.turn, if_pos ((ho.half half).trans (congrArg some hlooping))]
  exact ho.setHalf hc s.takes half _ shut stopping

variable {C : Crypto κ UInt8}

/-- **Every step of the halves of a start is one of the starts**, or none. -/
theorem Of.step {s : Starts} {n : ℕ} {h : Halves κ} (ho : s.Of n h) (e : HalvesEvent) :
    ∃ es : List Event, (Machine.run Starts.step s es).Of n (h.step C e) := by
  obtain ⟨hrunning, hstop, halive, hout, hin, hhalt⟩ := ho.control
  cases e with
  | outbound e =>
    rcases ht : h.pump.threads with _ | t
    · refine ⟨[], ?_⟩
      simp only [Halves.step, ht]
      exact ho
    · simp only [Halves.step, ht]
      split_ifs with hidle
      · exact ⟨[], ho⟩
      · have hlooping := not_not.1 (not_or.1 hidle).1
        refine ⟨[.turn n .outbound (h.pump.outboundLoop C t e).1.seqOut
          (h.pump.outboundLoop C t e).2.1], ho.turn hlooping ?_ _ _ _⟩
        exact ⟨hrunning, hstop, halive, rfl, hin, hhalt⟩
  | inbound e =>
    rcases ht : h.pump.threads with _ | t
    · refine ⟨[], ?_⟩
      simp only [Halves.step, ht]
      exact ho
    · simp only [Halves.step, ht]
      split_ifs with hidle
      · exact ⟨[], ho⟩
      · have hlooping := not_not.1 (not_or.1 hidle).1
        refine ⟨[.turn n .inbound (h.pump.inboundLoop C t e).1.seqIn
          (h.pump.inboundLoop C t e).2.1], ho.turn hlooping ?_ _ _ _⟩
        exact ⟨hrunning, hstop, halive, hout, rfl, hhalt⟩
  | leave half => exact ⟨[.leave n half], ho.leave half⟩
  | stopFlag => exact ⟨[.stopFlag], ⟨hrunning, rfl, halive, hout, hin, hhalt⟩, ho.half⟩
  | stopHalt =>
    rw [Halves.step]
    split_ifs
    · exact ⟨[], ho⟩
    · exact ⟨[.stopHalt], ⟨hrunning, hstop, halive, hout, hin, rfl⟩, ho.half⟩

/-- **The halves of a start run as steps of the starts.** -/
theorem Of.run {n : ℕ} (es : List HalvesEvent) {s : Starts} {h : Halves κ} (ho : s.Of n h) :
    ∃ fs, (Machine.run Starts.step s fs).Of n (Machine.run (Halves.step C) h es) := by
  induction es generalizing s h with
  | nil => exact ⟨[], ho⟩
  | cons e es ih =>
    obtain ⟨first, hfirst⟩ := ho.step (C := C) e
    obtain ⟨rest, hrest⟩ := ih hfirst
    exact ⟨first ++ rest, by rwa [Machine.run_append]⟩

end Starts

end ShadeVpn.Native
