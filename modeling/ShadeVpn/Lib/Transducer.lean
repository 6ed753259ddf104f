import Mathlib

/-!
# Machines fed one symbol at a time

A transducer reads a symbol, emits some output and may fail, in which case it
stops where it is.  `feedEach` runs it over a list of inputs, and feeding an append
is one feed after the other (`feedEach_append`).  So buffers do not matter: a reader
that acts symbol by symbol under an invariant may be replaced by its step function
on the joined stream (`feedEach_congr`).
-/

namespace Transduce

variable {S α β ε : Type}

/-- An outcome with the state it leaves: output, or an error. -/
abbrev Outcome (ε β S : Type) := Except ε (List β) × S

/-- Run `next` from the state an outcome left, unless it was an error. -/
def Outcome.andThen : Outcome ε β S → (S → Outcome ε β S) → Outcome ε β S
  | (.error e, s), _ => (.error e, s)
  | (.ok out, s), next =>
    match next s with
    | (.error e, s') => (.error e, s')
    | (.ok rest, s') => (.ok (out ++ rest), s')

@[simp] theorem Outcome.andThen_error (e : ε) (s : S) (next : S → Outcome ε β S) :
    Outcome.andThen (.error e, s) next = (.error e, s) := rfl

@[simp] theorem Outcome.andThen_nil (s : S) (next : S → Outcome ε β S) :
    Outcome.andThen (.ok [], s) next = next s := by
  rcases h : next s with ⟨_ | _, _⟩ <;> simp [Outcome.andThen, h]

theorem Outcome.andThen_ok {out rest : List β} {s s' : S} {next : S → Outcome ε β S}
    (h : next s = (.ok rest, s')) :
    Outcome.andThen (.ok out, s) next = (.ok (out ++ rest), s') := by
  simp [Outcome.andThen, h]

/-- Only what the rest does counts, not the state it starts from. -/
theorem Outcome.andThen_congr {out : List β} {s t : S} {f g : S → Outcome ε β S}
    (h : f s = g t) :
    Outcome.andThen (.ok out, s) f = Outcome.andThen (.ok out, t) g := by
  simp [Outcome.andThen, h]

@[simp] theorem Outcome.andThen_snd (out : List β) (s : S) (next : S → Outcome ε β S) :
    (Outcome.andThen (.ok out, s) next).2 = (next s).2 := by
  rcases h : next s with ⟨_ | _, _⟩ <;> simp [Outcome.andThen, h]

theorem Outcome.andThen_fst (out : List β) (s : S) (next : S → Outcome ε β S) :
    (Outcome.andThen (.ok out, s) next).1 = (next s).1.map (out ++ ·) := by
  rcases h : next s with ⟨_ | _, _⟩ <;> simp [Outcome.andThen, h, Except.map]

@[simp] theorem Outcome.andThen_ok_error {out : List β} {s : S} {next : S → Outcome ε β S}
    {e : ε} : (Outcome.andThen (.ok out, s) next).1 = .error e ↔ (next s).1 = .error e := by
  rcases h : next s with ⟨_ | _, _⟩ <;> simp [Outcome.andThen, h]

@[simp] theorem Outcome.andThen_pure (o : Outcome ε β S) :
    o.andThen (fun s => (.ok [], s)) = o := by
  rcases o with ⟨_ | out, s⟩ <;> simp [Outcome.andThen]

/-- A sequence behind an accepted part is accepted if its rest is. -/
@[simp] theorem Outcome.andThen_accepts {out : List β} {s : S} {next : S → Outcome ε β S} :
    (∃ out', (Outcome.andThen (.ok out, s) next).1 = .ok out')
      ↔ ∃ out', (next s).1 = .ok out' := by
  rcases h : next s with ⟨_ | _, _⟩ <;> simp [Outcome.andThen, h]

theorem Outcome.andThen_assoc (o : Outcome ε β S) (f g : S → Outcome ε β S) :
    (o.andThen f).andThen g = o.andThen fun s => (f s).andThen g := by
  rcases o with ⟨_ | out, s⟩
  · rfl
  · rcases hf : f s with ⟨_ | mid, s'⟩
    · simp [Outcome.andThen, hf]
    · rcases hg : g s' with ⟨_ | rest, s''⟩ <;> simp [Outcome.andThen, hf, hg]

/-- Feed a list of inputs in order, stopping at the first error.  The input may
be a symbol or a whole buffer. -/
def feedEach (step : S → α → Outcome ε β S) : S → List α → Outcome ε β S
  | s, [] => (.ok [], s)
  | s, a :: as => (step s a).andThen fun s' => feedEach step s' as

variable (step : S → α → Outcome ε β S)

@[simp] theorem feedEach_nil (s : S) : feedEach step s [] = (.ok [], s) := rfl

theorem feedEach_cons (s : S) (a : α) (as : List α) :
    feedEach step s (a :: as) = (step s a).andThen fun s' => feedEach step s' as := rfl

theorem feedEach_append (s : S) (xs ys : List α) :
    feedEach step s (xs ++ ys)
      = (feedEach step s xs).andThen fun s' => feedEach step s' ys := by
  induction xs generalizing s with
  | nil => simp
  | cons a as ih =>
    rw [List.cons_append, feedEach_cons, feedEach_cons, Outcome.andThen_assoc]
    exact congrArg _ (funext fun s' => ih s')

variable {step}

/-- Two accepted pieces make an accepted whole. -/
theorem feedEach_append_ok {s s₁ s₂ : S} {xs ys : List α} {out₁ out₂ : List β}
    (h₁ : feedEach step s xs = (.ok out₁, s₁)) (h₂ : feedEach step s₁ ys = (.ok out₂, s₂)) :
    feedEach step s (xs ++ ys) = (.ok (out₁ ++ out₂), s₂) := by
  rw [feedEach_append, h₁, Outcome.andThen_ok h₂]

theorem feedEach_cons_ok {s s₁ s₂ : S} {a : α} {as : List α} {out₁ out₂ : List β}
    (h₁ : step s a = (.ok out₁, s₁)) (h₂ : feedEach step s₁ as = (.ok out₂, s₂)) :
    feedEach step s (a :: as) = (.ok (out₁ ++ out₂), s₂) := by
  rw [feedEach_cons, h₁, Outcome.andThen_ok h₂]

/-- An accepted list was accepted input by input. -/
theorem feedEach_cons_eq_ok {s s₂ : S} {a : α} {as : List α} {out : List β} :
    feedEach step s (a :: as) = (.ok out, s₂) ↔
      ∃ out₁ s₁ out₂, step s a = (.ok out₁, s₁) ∧ feedEach step s₁ as = (.ok out₂, s₂) ∧
        out₁ ++ out₂ = out := by
  constructor
  · intro h
    rw [feedEach_cons] at h
    rcases hstep : step s a with ⟨e | out₁, s₁⟩ <;> rw [hstep] at h
    · cases h
    · rcases hrest : feedEach step s₁ as with ⟨e | out₂, s'⟩
      · simp [Outcome.andThen, hrest] at h
      · rw [Outcome.andThen_ok hrest, Prod.mk.injEq, Except.ok.injEq] at h
        obtain ⟨hout, rfl⟩ := h
        exact ⟨out₁, s₁, out₂, rfl, hrest, hout⟩
  · rintro ⟨out₁, s₁, out₂, hstep, hrest, rfl⟩
    exact feedEach_cons_ok hstep hrest

variable (step)

/-- What every step keeps, a run keeps. -/
theorem feedEach_inv {I : S → Prop} (hstep : ∀ s a, I s → I (step s a).2)
    (as : List α) {s : S} (hs : I s) : I (feedEach step s as).2 := by
  induction as generalizing s with
  | nil => exact hs
  | cons a as ih =>
    have hnext := hstep s a hs
    rw [feedEach_cons]
    rcases ha : step s a with ⟨_ | out, s'⟩ <;> rw [ha] at hnext
    · exact hnext
    · rw [Outcome.andThen_snd]
      exact ih hnext

/-- What holds of the error of every step holds of the error of a run. -/
theorem feedEach_error {I : S → Prop} {P : ε → Prop}
    (hstep : ∀ s a, I s → I (step s a).2)
    (herr : ∀ s a e, I s → (step s a).1 = .error e → P e) (as : List α) {s : S} (hs : I s)
    {e : ε} (h : (feedEach step s as).1 = .error e) : P e := by
  induction as generalizing s with
  | nil => cases h
  | cons a as ih =>
    have hnext := hstep s a hs
    rw [feedEach_cons] at h
    rcases ha : step s a with ⟨e' | out, s'⟩ <;> rw [ha] at h hnext
    · cases h
      exact herr s a e hs (by rw [ha])
    · rw [Outcome.andThen_ok_error] at h
      exact ih hnext h

/-- **Buffers do not matter.**  A reader that behaves symbol by symbol in the states of
an invariant, and stays in them, treats every division alike from such a state. -/
theorem feedEach_congr {read : S → List α → Outcome ε β S} (I : S → Prop)
    (hread : ∀ s buf, I s → read s buf = feedEach step s buf)
    (hstep : ∀ s a, I s → I (step s a).2) (bufs : List (List α)) {s : S} (hs : I s) :
    feedEach read s bufs = feedEach step s bufs.flatten := by
  induction bufs generalizing s with
  | nil => rfl
  | cons b bs ih =>
    have hnext := feedEach_inv step hstep b hs
    rw [List.flatten_cons, feedEach_append, feedEach_cons, hread s b hs]
    rcases hb : feedEach step s b with ⟨_ | out, s'⟩ <;> rw [hb] at hnext
    · rfl
    · simp only [Outcome.andThen, ih hnext]

end Transduce
