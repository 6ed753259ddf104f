import Mathlib

/-!
# Methods that fail

A method on a state that may fail: a failure keeps what the method has done to
the state so far.  `exec` runs it, and `Ensures` says what it does from a state,
in both its exits; `Agree` says that two come to the same from related states, and
`Frames` that one leaves a part of the state alone, `FramesError` that one does where it
fails.  The rules follow the program text.
-/

/-- A method on a state. -/
abbrev Fallible (S ε : Type) := ExceptT ε (StateM S)

namespace Fallible

variable {S ε α β : Type}

/-- The value or the failure, and the state it leaves. -/
def exec (x : Fallible S ε α) (s : S) : Except ε α × S := StateT.run (ExceptT.run x) s

@[simp] theorem exec_pure (a : α) (s : S) : exec (pure a : Fallible S ε α) s = (.ok a, s) := rfl

@[simp] theorem exec_throw (e : ε) (s : S) :
    exec (throw e : Fallible S ε α) s = (.error e, s) := rfl

@[simp] theorem exec_get (s : S) : exec (get : Fallible S ε S) s = (.ok s, s) := rfl

@[simp] theorem exec_modify (f : S → S) (s : S) :
    exec (modify f : Fallible S ε Unit) s = (.ok (), f s) := rfl

/-- A fallible function that does not see the state. -/
@[simp] theorem exec_lift (x : Except ε α) (s : S) :
    exec (liftM x : Fallible S ε α) s = (x, s) := rfl

theorem exec_bind (x : Fallible S ε α) (f : α → Fallible S ε β) (s : S) :
    exec (x >>= f) s = match exec x s with
      | (.ok a, s') => exec (f a) s'
      | (.error e, s') => (.error e, s') := by
  show exec (ExceptT.bind x f) s = _
  simp only [exec, ExceptT.run, ExceptT.bind, ExceptT.mk, StateT.run, bind, StateT.bind]
  rcases x s with ⟨e | a, s'⟩ <;> rfl

/-- A sequence that returns went through its first part. -/
theorem exec_bind_ok {x : Fallible S ε α} {f : α → Fallible S ε β} {s s'' : S} {b : β} :
    exec (x >>= f) s = (.ok b, s'') ↔
      ∃ a s', exec x s = (.ok a, s') ∧ exec (f a) s' = (.ok b, s'') := by
  rw [exec_bind]
  rcases h : exec x s with ⟨e | a, s'⟩ <;> simp

/-! ## What a method ensures -/

/-- From `s`, a return satisfies `Q` and a failure `E`. -/
def Ensures (s : S) (x : Fallible S ε α) (Q : α → S → Prop) (E : ε → S → Prop) : Prop :=
  match exec x s with
  | (.ok a, s') => Q a s'
  | (.error e, s') => E e s'

variable {s : S} {Q : α → S → Prop} {E : ε → S → Prop}

theorem ensures_pure {a : α} (h : Q a s) : Ensures s (pure a) Q E := h

theorem ensures_throw {e : ε} (h : E e s) : Ensures s (throw e) Q E := h

theorem ensures_modify {f : S → S} {Q : Unit → S → Prop} (h : Q () (f s)) :
    Ensures s (modify f) Q E := h

theorem ensures_get {Q : S → S → Prop} (h : Q s s) : Ensures s get Q E := h

theorem ensures_lift {x : Except ε α} (hok : ∀ a, x = .ok a → Q a s)
    (herr : ∀ e, x = .error e → E e s) : Ensures s (liftM x) Q E := by
  rw [Ensures, exec_lift]
  cases x with
  | ok a => exact hok a rfl
  | error e => exact herr e rfl

theorem ensures_bind {x : Fallible S ε α} {f : α → Fallible S ε β} {Q : β → S → Prop}
    (h : Ensures s x (fun a s' => Ensures s' (f a) Q E) E) : Ensures s (x >>= f) Q E := by
  rw [Ensures] at h ⊢
  rw [exec_bind]
  rcases hx : exec x s with ⟨e | a, s'⟩ <;> rw [hx] at h <;> exact h

theorem Ensures.mono {x : Fallible S ε α} {Q' : α → S → Prop} {E' : ε → S → Prop}
    (h : Ensures s x Q E) (hQ : ∀ a s', Q a s' → Q' a s') (hE : ∀ e s', E e s' → E' e s') :
    Ensures s x Q' E' := by
  rw [Ensures] at h ⊢
  rcases hx : exec x s with ⟨e | a, s'⟩ <;> rw [hx] at h
  · exact hE e s' h
  · exact hQ a s' h

/-- What a method ensures, it ensures of its own run. -/
theorem Ensures.and_exec {x : Fallible S ε α} (h : Ensures s x Q E) :
    Ensures s x (fun a s' => exec x s = (.ok a, s') ∧ Q a s') E := by
  rw [Ensures] at h ⊢
  rcases hx : exec x s with ⟨e | a, s'⟩ <;> rw [hx] at h
  · exact h
  · exact ⟨rfl, h⟩

/-! ## What a method leaves alone -/

section Frames

variable {γ : Type} {part : S → γ}

/-- A part of the state is as it was, however the method ends. -/
def Frames (part : S → γ) (x : Fallible S ε α) : Prop := ∀ s, part (exec x s).2 = part s

theorem frames_pure (a : α) : Frames part (pure a : Fallible S ε α) := fun _ => rfl

theorem frames_throw (e : ε) : Frames part (throw e : Fallible S ε α) := fun _ => rfl

theorem frames_lift (x : Except ε α) : Frames part (liftM x : Fallible S ε α) := fun _ => rfl

theorem frames_get : Frames part (get : Fallible S ε S) := fun _ => rfl

theorem frames_modify {f : S → S} (h : ∀ s, part (f s) = part s) :
    Frames part (modify f : Fallible S ε Unit) := h

theorem frames_bind {x : Fallible S ε α} {f : α → Fallible S ε β} (hx : Frames part x)
    (hf : ∀ a, Frames part (f a)) : Frames part (x >>= f) := by
  intro s
  have hs := hx s
  rw [exec_bind]
  rcases h : exec x s with ⟨e | a, s'⟩ <;> rw [h] at hs
  · exact hs
  · exact (hf a s').trans hs

/-- A part of the state is as it was if the method fails. -/
def FramesError (part : S → γ) (x : Fallible S ε α) : Prop :=
  ∀ s e s', exec x s = (.error e, s') → part s' = part s

theorem framesError_of_ok {x : Fallible S ε α} (hx : ∀ s, ∃ a s', exec x s = (.ok a, s')) :
    FramesError part x := by
  intro s e s' hrun
  obtain ⟨a, s₁, hok⟩ := hx s
  rw [hok] at hrun
  cases hrun

/-- What fails in the second part fails behind a first that left the state alone. -/
theorem framesError_bind {x : Fallible S ε α} {f : α → Fallible S ε β} (hx : Frames part x)
    (hf : ∀ a, FramesError part (f a)) : FramesError part (x >>= f) := by
  intro s e s'' hrun
  have hs := hx s
  rw [exec_bind] at hrun
  rcases h : exec x s with ⟨e' | a, s'⟩ <;> rw [h] at hs hrun
  · cases hrun
    exact hs
  · exact (hf a s' e s'' hrun).trans hs

end Frames

/-! ## Two methods that agree -/

section Agree

variable {T : Type} {t : T} {R R' : S → T → Prop}

/-- From `s` and `t`, the same value or the same failure, and states in `R`. -/
def Agree (R : S → T → Prop) (s : S) (x : Fallible S ε α) (t : T) (y : Fallible T ε α) : Prop :=
  (exec x s).1 = (exec y t).1 ∧ R (exec x s).2 (exec y t).2

theorem agree_pure (h : R s t) (a : α) :
    Agree R s (pure a : Fallible S ε α) t (pure a) := ⟨rfl, h⟩

theorem agree_lift (h : R s t) (x : Except ε α) :
    Agree R s (liftM x : Fallible S ε α) t (liftM x) := ⟨rfl, h⟩

theorem agree_modify {f : S → S} {g : T → T} (h : R (f s) (g t)) :
    Agree R s (modify f : Fallible S ε Unit) t (modify g) := ⟨rfl, h⟩

/-- A failure of the first part leaves its states. -/
theorem agree_bind_mono {x : Fallible S ε α} {y : Fallible T ε α} {f : α → Fallible S ε β}
    {g : α → Fallible T ε β} (hxy : Agree R s x t y) (hR : ∀ s t, R s t → R' s t)
    (hfg : ∀ a s t, R s t → Agree R' s (f a) t (g a)) : Agree R' s (x >>= f) t (y >>= g) := by
  obtain ⟨hval, hst⟩ := hxy
  rw [Agree, exec_bind, exec_bind]
  rcases hx : exec x s with ⟨e | a, s'⟩ <;> rcases hy : exec y t with ⟨e' | a', t'⟩ <;>
    rw [hx, hy] at hval hst <;> cases hval
  · exact ⟨rfl, hR _ _ hst⟩
  · exact hfg a s' t' hst

theorem agree_bind {x : Fallible S ε α} {y : Fallible T ε α} {f : α → Fallible S ε β}
    {g : α → Fallible T ε β} (hxy : Agree R s x t y)
    (hfg : ∀ a s t, R s t → Agree R s (f a) t (g a)) : Agree R s (x >>= f) t (y >>= g) :=
  agree_bind_mono hxy (fun _ _ h => h) hfg

theorem agree_lift_bind {x : Except ε α} {f : α → Fallible S ε β} {g : α → Fallible T ε β}
    (hst : R s t) (hfg : ∀ a, x = .ok a → Agree R s (f a) t (g a)) :
    Agree R s (liftM x >>= f) t (liftM x >>= g) := by
  rw [Agree, exec_bind, exec_bind, exec_lift, exec_lift]
  cases x with
  | ok a => exact hfg a rfl
  | error e => exact ⟨rfl, hst⟩

theorem agree_get_bind {f : S → Fallible S ε β} {g : T → Fallible T ε β}
    (h : Agree R s (f s) t (g t)) : Agree R s (get >>= f) t (get >>= g) := h

end Agree

end Fallible
