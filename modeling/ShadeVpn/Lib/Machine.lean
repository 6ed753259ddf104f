import Mathlib

/-!
# Runs of an event-driven machine

A machine is a step function from a state and an event to a state; a run folds
it over a list of events.  The rules a safety proof uses:

* `run_inv` — what every step keeps, a run keeps;
* `run_inv_along` — the same under a condition on the steps taken;
* `always_iff_along` — when a step condition decides, from a good state, whether
  the next state is good, then a run stays good exactly if it meets the
  condition at every step;
* `run_iff_along` — the form for a property that, once lost, stays lost;
* `spent_le` — a run costs no more than a potential that its steps pay from.
-/

namespace Machine

variable {S E : Type} (step : S → E → S)

/-- The state a run of events ends in. -/
def run (s : S) (es : List E) : S := es.foldl step s

@[simp] theorem run_nil (s : S) : run step s [] = s := rfl

@[simp] theorem run_cons (s : S) (e : E) (es : List E) :
    run step s (e :: es) = run step (step s e) es := rfl

theorem run_append (s : S) (es fs : List E) :
    run step s (es ++ fs) = run step (run step s es) fs := List.foldl_append

theorem run_replicate (s : S) (e : E) (n : ℕ) :
    run step s (List.replicate n e) = (fun s => step s e)^[n] s := by
  induction n generalizing s with
  | zero => rfl
  | succ n ih =>
    rw [List.replicate_succ, run_cons, ih]
    rfl

/-- `Q` holds of every step a run takes. -/
def Along (Q : S → E → Prop) : S → List E → Prop
  | _, [] => True
  | s, e :: es => Q s e ∧ Along Q (step s e) es

/-- `P` holds of every state a run goes through. -/
def Always (P : S → Prop) (s : S) (es : List E) : Prop :=
  ∀ pre, pre <+: es → P (run step s pre)

instance decidableAlong (Q : S → E → Prop) [∀ s e, Decidable (Q s e)] :
    ∀ s es, Decidable (Along step Q s es)
  | _, [] => isTrue trivial
  | s, e :: es =>
    have := decidableAlong Q (step s e) es
    inferInstanceAs (Decidable (Q s e ∧ Along step Q (step s e) es))

/-- What the steps of a run cost. -/
def spent (cost : S → E → ℕ) : S → List E → ℕ
  | _, [] => 0
  | s, e :: es => cost s e + spent cost (step s e) es

variable {step} {P I : S → Prop} {Q : S → E → Prop}

theorem always_cons {s : S} {e : E} {es : List E} :
    Always step P s (e :: es) ↔ P s ∧ Always step P (step s e) es := by
  constructor
  · intro h
    exact ⟨h [] (List.nil_prefix), fun pre hpre => h (e :: pre) ((List.prefix_cons_inj e).2 hpre)⟩
  · rintro ⟨hs, h⟩ pre hpre
    cases pre with
    | nil => exact hs
    | cons f pre =>
      obtain ⟨rfl, htail⟩ := List.cons_prefix_cons.1 hpre
      exact h pre htail

theorem always_nil {s : S} : Always step P s [] ↔ P s := by
  refine ⟨fun h => h [] (List.prefix_refl []), fun h pre hpre => ?_⟩
  rw [List.prefix_nil.1 hpre]
  exact h

theorem Always.last {s : S} {es : List E} (h : Always step P s es) : P (run step s es) :=
  h es (List.prefix_refl es)

/-- **The invariant rule.** -/
theorem run_inv (hstep : ∀ s e, I s → I (step s e)) (es : List E) {s : S} (hs : I s) :
    I (run step s es) := by
  induction es generalizing s with
  | nil => exact hs
  | cons e es ih => exact ih (hstep s e hs)

/-- The invariant rule for runs that meet a condition. -/
theorem run_inv_along (hstep : ∀ s e, I s → Q s e → I (step s e)) (es : List E) {s : S}
    (hs : I s) (h : Along step Q s es) : I (run step s es) := by
  induction es generalizing s with
  | nil => exact hs
  | cons e es ih => exact ih (hstep s e hs h.1) h.2

theorem along_append {s : S} {es fs : List E} :
    Along step Q s (es ++ fs) ↔ Along step Q s es ∧ Along step Q (run step s es) fs := by
  induction es generalizing s with
  | nil => exact ⟨fun h => ⟨trivial, h⟩, fun h => h.2⟩
  | cons e es ih =>
    rw [List.cons_append, Along, Along, ih, and_assoc]
    rfl

/-- **Two conditions on steps that agree under an invariant** hold along the same runs,
when the steps that meet them keep the invariant. -/
theorem along_iff_along {R : S → E → Prop} (hstep : ∀ s e, I s → (R s e ↔ Q s e))
    (hinv : ∀ s e, I s → R s e → I (step s e)) (es : List E) {s : S} (hs : I s) :
    Along step R s es ↔ Along step Q s es := by
  induction es generalizing s with
  | nil => exact Iff.rfl
  | cons e es ih =>
    rw [Along, Along, ← hstep s e hs]
    exact and_congr_right fun hR => ih (hinv s e hs hR)

/-- What the steps of a run keep holds throughout. -/
theorem always_of_along (hstep : ∀ s e, I s → Q s e → I (step s e)) (es : List E) {s : S}
    (hs : I s) (h : Along step Q s es) : Always step I s es := by
  rintro pre ⟨post, rfl⟩
  exact run_inv_along hstep pre hs (along_append.1 h).1

theorem Always.imp (himp : ∀ s, I s → P s) {s : S} {es : List E} (h : Always step I s es) :
    Always step P s es := fun pre hpre => himp _ (h pre hpre)

/-- **The exact condition of a property of states.**  `I` is what every run keeps;
under it `Q` decides whether a step from a good state leads to a good state. -/
theorem always_iff_along (hinv : ∀ s e, I s → I (step s e))
    (hstep : ∀ s e, I s → P s → (P (step s e) ↔ Q s e)) (es : List E) {s : S} (hs : I s)
    (hP : P s) : Always step P s es ↔ Along step Q s es := by
  induction es generalizing s with
  | nil => exact ⟨fun _ => trivial, fun _ => always_nil.2 hP⟩
  | cons e es ih =>
    rw [always_cons, Along, ← hstep s e hs hP]
    constructor
    · rintro ⟨-, h⟩
      have hnext : P (step s e) := h [] List.nil_prefix
      exact ⟨hnext, (ih (hinv s e hs) hnext).1 h⟩
    · rintro ⟨hnext, h⟩
      exact ⟨hP, (ih (hinv s e hs) hnext).2 h⟩

/-- A property that, once lost, stays lost holds in the end exactly if it held throughout. -/
theorem run_iff_always (hback : ∀ s e, P (step s e) → P s) (es : List E) (s : S) :
    P (run step s es) ↔ Always step P s es := by
  induction es generalizing s with
  | nil => exact always_nil.symm
  | cons e es ih =>
    rw [always_cons, run_cons, ih]
    exact ⟨fun h => ⟨hback s e (h [] List.nil_prefix), h⟩, fun h => h.2⟩

/-- **The exact condition of a property of runs** that, once lost, stays lost. -/
theorem run_iff_along (hinv : ∀ s e, I s → I (step s e)) (hback : ∀ s e, P (step s e) → P s)
    (hstep : ∀ s e, I s → P s → (P (step s e) ↔ Q s e)) (es : List E) {s : S} (hs : I s)
    (hP : P s) : P (run step s es) ↔ Along step Q s es := by
  rw [run_iff_always hback, always_iff_along hinv hstep es hs hP]

/-- **The budget rule.**  Where every step pays what it costs out of a potential, a run
costs no more than the potential it has at the start. -/
theorem spent_le {cost : S → E → ℕ} (potential : S → ℕ) {es : List E}
    (hpay : ∀ s, ∀ e ∈ es, cost s e + potential (step s e) ≤ potential s) (s : S) :
    spent step cost s es ≤ potential s := by
  induction es generalizing s with
  | nil => exact Nat.zero_le _
  | cons e es ih =>
    have hrest := ih (fun t f hf => hpay t f (List.mem_cons_of_mem e hf)) (step s e)
    have hfirst := hpay s e List.mem_cons_self
    rw [spent]
    omega

end Machine
