import Mathlib

/-!
# Checked machine arithmetic

Rust's `usize` is 32 or 64 bits wide, and its `+`, `-` and `<<` have a fault
that is not an `Err`: a build with overflow checks aborts, a build without them
wraps.  A function that can fault returns `Except (Stop ε) α`, so that a fault
is never confused with a returned error, and a theorem that the function
returns `.ok` or `.error (.err e)` says that no fault happened.
-/

namespace Checked

/-- How a call can stop short of a value. -/
inductive Stop (ε : Type) where
  /-- The function returned `Err(e)`. -/
  | err (e : ε)
  /-- An addition past `usize::MAX`. -/
  | addOverflow
  /-- A subtraction below zero. -/
  | subOverflow
  /-- A shift by the width of the type or more. -/
  | shlOverflow
  /-- A failed `unwrap`, `expect`, slice bound or assertion. -/
  | panic
  deriving DecidableEq, Repr

/-- The word sizes of the build targets. -/
inductive Target where
  | armv7
  | aarch64
  deriving DecidableEq, Repr

/-- The width of `usize`. -/
def Target.bits : Target → ℕ
  | .armv7 => 32
  | .aarch64 => 64

theorem Target.le_bits (t : Target) : 32 ≤ t.bits := by
  cases t <;> decide

theorem Target.bits_le (t : Target) : t.bits ≤ 64 := by
  cases t <;> decide

/-- Anything that fits 32 bits fits `usize`. -/
theorem Target.lt_of_lt_32 (t : Target) {n : ℕ} (h : n < 2 ^ 32) : n < 2 ^ t.bits :=
  lt_of_lt_of_le h (Nat.pow_le_pow_right (by decide) t.le_bits)

variable {ε : Type}

/-- `a + b` on `usize`. -/
def add (t : Target) (a b : ℕ) : Except (Stop ε) ℕ :=
  if a + b < 2 ^ t.bits then .ok (a + b) else .error .addOverflow

/-- `a - b` on `usize`. -/
def sub (a b : ℕ) : Except (Stop ε) ℕ :=
  if b ≤ a then .ok (a - b) else .error .subOverflow

/-- `a << s` on `usize`: the bits shifted out are lost. -/
def shl (t : Target) (a s : ℕ) : Except (Stop ε) ℕ :=
  if s < t.bits then .ok (a <<< s % 2 ^ t.bits) else .error .shlOverflow

theorem add_eq_ok {t : Target} {a b : ℕ} (h : a + b < 2 ^ t.bits) :
    (add t a b : Except (Stop ε) ℕ) = .ok (a + b) := if_pos h

theorem add_eq_overflow {t : Target} {a b : ℕ} (h : 2 ^ t.bits ≤ a + b) :
    (add t a b : Except (Stop ε) ℕ) = .error .addOverflow := if_neg (by omega)

theorem sub_eq_ok {a b : ℕ} (h : b ≤ a) : (sub a b : Except (Stop ε) ℕ) = .ok (a - b) :=
  if_pos h

theorem shl_eq_ok {t : Target} {a s : ℕ} (hs : s < t.bits) (h : a * 2 ^ s < 2 ^ t.bits) :
    (shl t a s : Except (Stop ε) ℕ) = .ok (a * 2 ^ s) := by
  rw [shl, if_pos hs, Nat.shiftLeft_eq, Nat.mod_eq_of_lt h]

/-- Whatever a shift returns fits the word. -/
theorem shl_lt {t : Target} {a s v : ℕ} (h : (shl t a s : Except (Stop ε) ℕ) = .ok v) :
    v < 2 ^ t.bits := by
  rw [shl] at h
  split at h
  · cases h
    exact Nat.mod_lt _ (Nat.two_pow_pos _)
  · cases h

/-! ## Bounds and unwraps -/

variable {α : Type}

/-- `bs[i]`. -/
def index (bs : List α) (i : ℕ) : Except (Stop ε) α :=
  match bs[i]? with
  | some b => .ok b
  | none => .error .panic

/-- `&bs[a..b]`. -/
def slice (bs : List α) (a b : ℕ) : Except (Stop ε) (List α) :=
  if a ≤ b ∧ b ≤ bs.length then .ok ((bs.take b).drop a) else .error .panic

/-- `unwrap` and `expect`. -/
def unwrap : Option α → Except (Stop ε) α
  | some a => .ok a
  | none => .error .panic

/-- `ok_or`. -/
def okOr (e : ε) : Option α → Except (Stop ε) α
  | some a => .ok a
  | none => .error (.err e)

theorem index_eq_ok {bs : List α} {i : ℕ} (h : i < bs.length) :
    (index bs i : Except (Stop ε) α) = .ok bs[i] := by
  rw [index, List.getElem?_eq_getElem h]

theorem slice_eq_ok {bs : List α} {a b : ℕ} (hab : a ≤ b) (hb : b ≤ bs.length) :
    (slice bs a b : Except (Stop ε) (List α)) = .ok ((bs.take b).drop a) :=
  if_pos ⟨hab, hb⟩

theorem slice_add_eq_ok {bs : List α} {a n : ℕ} (h : a + n ≤ bs.length) :
    (slice bs a (a + n) : Except (Stop ε) (List α)) = .ok ((bs.drop a).take n) := by
  rw [slice_eq_ok (Nat.le_add_right a n) h, List.drop_take, Nat.add_sub_cancel_left]

@[simp] theorem okOr_eq_ok {e : ε} {o : Option α} {a : α} : okOr e o = .ok a ↔ o = some a := by
  cases o <;> simp [okOr]

@[simp] theorem unwrap_eq_ok {o : Option α} {a : α} :
    (unwrap o : Except (Stop ε) α) = .ok a ↔ o = some a := by
  cases o <;> simp [unwrap]

/-- A computation that ends without a fault: with a value, or with a returned error. -/
def Sound (x : Except (Stop ε) α) : Prop := ∀ e, x = .error e → ∃ v, e = .err v

theorem sound_ok (a : α) : Sound (.ok a : Except (Stop ε) α) := by
  rintro e ⟨⟩

theorem sound_err (v : ε) : Sound (.error (.err v) : Except (Stop ε) α) := by
  rintro e ⟨⟩
  exact ⟨v, rfl⟩

theorem sound_okOr (v : ε) (o : Option α) : Sound (okOr v o) := by
  cases o
  · exact sound_err v
  · exact sound_ok _

theorem sound_bind {β : Type} {x : Except (Stop ε) α} {f : α → Except (Stop ε) β} (hx : Sound x)
    (hf : ∀ a, x = .ok a → Sound (f a)) : Sound (x >>= f) := by
  cases x with
  | ok a => exact hf a rfl
  | error e =>
    obtain ⟨v, rfl⟩ := hx e rfl
    exact sound_err v

end Checked
