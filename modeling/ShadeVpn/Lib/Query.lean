import ShadeVpn.Lib.Checked

/-!
# Programs over a primitive

A program that calls one primitive and is otherwise pure is a tree: it is done, or
it asks and goes on with the answer.  `run` executes it with an implementation of
the primitive, `asked` lists the calls a run makes.  Two implementations that
agree on the calls of the one give the same run (`run_congr`), so that a machine
implementation may be replaced by its ideal where the calls are within bounds, and
`Safe` bounds the calls and excludes faults by following the tree once.
-/

namespace Query

open Checked

/-- A program over a primitive that takes a `Q` and gives an `A`. -/
inductive Prog (Q A ε α : Type) where
  | done (r : Except (Stop ε) α)
  | ask (q : Q) (next : A → Prog Q A ε α)

namespace Prog

variable {Q A ε α β : Type}

/-- Run `f` on what a program is done with. -/
def bind : Prog Q A ε α → (α → Prog Q A ε β) → Prog Q A ε β
  | done (.ok a), f => f a
  | done (.error e), _ => done (.error e)
  | ask q next, f => ask q fun a => (next a).bind f

instance : Monad (Prog Q A ε) where
  pure a := done (.ok a)
  bind := bind

instance : MonadLift (Except (Stop ε)) (Prog Q A ε) where
  monadLift := done

/-- The call of the primitive. -/
def call (q : Q) : Prog Q A ε A := ask q fun a => done (.ok a)

/-- Execute a program. -/
def run (answer : Q → Except (Stop ε) A) : Prog Q A ε α → Except (Stop ε) α
  | done r => r
  | ask q next =>
    match answer q with
    | .ok a => (next a).run answer
    | .error e => .error e

theorem run_call (answer : Q → Except (Stop ε) A) (q : Q) :
    (call q : Prog Q A ε A).run answer = answer q := by
  rw [call, run]
  cases answer q <;> rfl

/-- A sequence runs one part after the other. -/
theorem run_bind (answer : Q → Except (Stop ε) A) (p : Prog Q A ε α) (f : α → Prog Q A ε β) :
    (p >>= f).run answer = p.run answer >>= fun a => (f a).run answer := by
  induction p with
  | done r => cases r <;> rfl
  | ask q next ih =>
    show (ask q fun a => (next a).bind f).run answer = _
    rw [run, run]
    cases answer q with
    | ok a => exact ih a
    | error e => rfl

theorem run_bind_of_ok {answer : Q → Except (Stop ε) A} {p : Prog Q A ε α} {f : α → Prog Q A ε β}
    {a : α} {r : Except (Stop ε) β} (hp : p.run answer = .ok a) (hf : (f a).run answer = r) :
    (p >>= f).run answer = r := by
  rw [run_bind, hp]
  exact hf

/-- The calls of a run, in order. -/
def asked (answer : Q → Except (Stop ε) A) : Prog Q A ε α → List Q
  | done _ => []
  | ask q next =>
    q :: match answer q with
      | .ok a => (next a).asked answer
      | .error _ => []

/-- Implementations that agree on the calls of the one give the same run. -/
theorem run_congr {answer ideal : Q → Except (Stop ε) A} {p : Prog Q A ε α}
    (h : ∀ q ∈ p.asked ideal, answer q = ideal q) : p.run answer = p.run ideal := by
  induction p with
  | done r => rfl
  | ask q next ih =>
    rw [asked, List.forall_mem_cons] at h
    rw [run, run, h.1]
    cases ha : ideal q with
    | error e => rfl
    | ok a =>
      rw [ha] at h
      exact ih a h.2

/-- An implementation that is the ideal or faults, and faults on one of the calls,
gives a run that faults. -/
theorem not_sound_run {answer ideal : Q → Except (Stop ε) A} {p : Prog Q A ε α}
    (hanswer : ∀ q ∈ p.asked ideal, answer q = ideal q ∨ ¬ Sound (answer q))
    (hfault : ∃ q ∈ p.asked ideal, ¬ Sound (answer q)) : ¬ Sound (p.run answer) := by
  induction p with
  | done r => simp [asked] at hfault
  | ask q next ih =>
    rw [asked] at hanswer hfault
    rw [List.forall_mem_cons] at hanswer
    rw [run]
    by_cases hq : Sound (answer q)
    · have hideal := hanswer.1.resolve_right (not_not.2 hq)
      cases ha : answer q with
      | error e =>
        rw [← hideal, ha] at hfault
        obtain ⟨q', hmem, hnot⟩ := hfault
        rw [List.mem_singleton] at hmem
        exact absurd (hmem ▸ hq) hnot
      | ok a =>
        rw [← hideal, ha] at hanswer hfault
        refine ih a hanswer.2 ?_
        obtain ⟨q', hmem, hnot⟩ := hfault
        rcases List.mem_cons.1 hmem with rfl | hmem
        · exact absurd hq hnot
        · exact ⟨q', hmem, hnot⟩
    · cases ha : answer q with
      | error e =>
        intro hs
        refine hq fun e' he' => hs e' ?_
        rw [ha] at he'
        cases he'
        rfl
      | ok a => exact absurd (ha ▸ sound_ok a) hq

/-- Every call is good and no end faults, if the answers are as `spec` says. -/
def Safe (good : Q → Prop) (spec : Q → A → Prop) (post : α → Prop) : Prog Q A ε α → Prop
  | done r => Sound r ∧ ∀ a, r = .ok a → post a
  | ask q next => good q ∧ ∀ a, spec q a → (next a).Safe good spec post

variable {good : Q → Prop} {spec : Q → A → Prop}

theorem Safe.bind {post : α → Prop} {post' : β → Prop} {p : Prog Q A ε α} {f : α → Prog Q A ε β}
    (hp : p.Safe good spec post) (hf : ∀ a, post a → (f a).Safe good spec post') :
    (p >>= f).Safe good spec post' := by
  induction p with
  | done r =>
    cases r with
    | ok a => exact hf a (hp.2 a rfl)
    | error e =>
      obtain ⟨v, rfl⟩ := hp.1 e rfl
      exact ⟨sound_err v, by simp⟩
  | ask q next ih => exact ⟨hp.1, fun a ha => ih a (hp.2 a ha)⟩

theorem Safe.pure {post : α → Prop} {a : α} (h : post a) :
    (Pure.pure a : Prog Q A ε α).Safe good spec post :=
  ⟨sound_ok a, fun b hb => by cases hb; exact h⟩

theorem Safe.fail {post : α → Prop} (v : ε) :
    (done (.error (.err v)) : Prog Q A ε α).Safe good spec post :=
  ⟨sound_err v, by simp⟩

theorem Safe.lift {post : α → Prop} {r : Except (Stop ε) α} {a : α} (hr : r = .ok a) (h : post a) :
    (liftM r : Prog Q A ε α).Safe good spec post :=
  hr ▸ ⟨sound_ok a, fun b hb => by cases hb; exact h⟩

theorem Safe.call {q : Q} (h : good q) : (call q : Prog Q A ε A).Safe good spec (spec q) :=
  ⟨h, fun a ha => ⟨sound_ok a, fun b hb => by cases hb; exact ha⟩⟩

/-- **A safe program on a sound primitive does not fault**, and makes good calls only. -/
theorem Safe.run {post : α → Prop} {p : Prog Q A ε α} (h : p.Safe good spec post)
    {answer : Q → Except (Stop ε) A} (hsound : ∀ q, Sound (answer q))
    (hspec : ∀ q a, good q → answer q = .ok a → spec q a) :
    Sound (p.run answer) ∧ ∀ q ∈ p.asked answer, good q := by
  induction p with
  | done r => exact ⟨h.1, by simp [asked]⟩
  | ask q next ih =>
    rw [Prog.run, asked, List.forall_mem_cons]
    cases ha : answer q with
    | error e =>
      obtain ⟨v, rfl⟩ := hsound q e ha
      exact ⟨sound_err v, h.1, by simp⟩
    | ok a =>
      obtain ⟨hrun, hcalls⟩ := ih a (h.2 a (hspec q a h.1 ha))
      exact ⟨hrun, h.1, hcalls⟩

end Prog

end Query
