import ShadeVpn.Lib.Octets

/-!
# Layouts with length fields

A writer of a binary format puts a length in front of what it covers, narrowed to the
width of its field.  A `Layout` is a message as its writer means it: `bytes` writes it out,
and `Exact` says that every length field in it reads as the number of bytes it covers.

* `exact_sized` — a big-endian field of `k` bytes is exact below `256 ^ k`.
* `exact_sequence` — a sequence is exact when its parts are.
-/

open Octets

/-- How a length is written, and what its field is read as. -/
structure LengthField where
  write : ℕ → Bytes
  read : Bytes → ℕ

/-- A big-endian field of `k` bytes, which keeps the low bytes of a length. -/
def LengthField.big (k : ℕ) : LengthField := ⟨toBE k, ofBE⟩

@[simp] theorem LengthField.write_big (k n : ℕ) : (big k).write n = toBE k n := rfl

inductive Layout where
  /-- Bytes that no length field in the layout is part of. -/
  | raw (bs : Bytes)
  | append (x y : Layout)
  /-- A length field and what it covers. -/
  | sized (field : LengthField) (body : Layout)

namespace Layout

instance : Append Layout := ⟨append⟩

/-- The layout written out. -/
def bytes : Layout → Bytes
  | raw bs => bs
  | append x y => x.bytes ++ y.bytes
  | sized field body => field.write body.bytes.length ++ body.bytes

/-- Every length field reads as the length of what it covers. -/
def Exact : Layout → Prop
  | raw _ => True
  | append x y => x.Exact ∧ y.Exact
  | sized field body =>
    field.read (field.write body.bytes.length) = body.bytes.length ∧ body.Exact

instance decidableExact : ∀ x : Layout, Decidable x.Exact
  | raw _ => isTrue trivial
  | append x y =>
    have := decidableExact x
    have := decidableExact y
    inferInstanceAs (Decidable (x.Exact ∧ y.Exact))
  | sized field body =>
    have := decidableExact body
    inferInstanceAs (Decidable
      (field.read (field.write body.bytes.length) = body.bytes.length ∧ body.Exact))

/-- Parts one after another. -/
def sequence : List Layout → Layout
  | [] => raw []
  | x :: xs => x ++ sequence xs

variable (x y : Layout)

@[simp] theorem bytes_raw (bs : Bytes) : (raw bs).bytes = bs := rfl

@[simp] theorem bytes_append : (x ++ y).bytes = x.bytes ++ y.bytes := rfl

@[simp] theorem bytes_sized (field : LengthField) :
    (sized field x).bytes = field.write x.bytes.length ++ x.bytes := rfl

theorem bytes_sequence (xs : List Layout) : (sequence xs).bytes = xs.flatMap bytes := by
  induction xs with
  | nil => rfl
  | cons x xs ih => rw [sequence, bytes_append, ih, List.flatMap_cons]

@[simp] theorem exact_raw (bs : Bytes) : (raw bs).Exact := trivial

@[simp] theorem exact_append : (x ++ y).Exact ↔ x.Exact ∧ y.Exact := Iff.rfl

/-- **A field of `k` bytes** says the truth about fewer than `256 ^ k` bytes. -/
@[simp] theorem exact_sized (k : ℕ) :
    (sized (.big k) x).Exact ↔ x.bytes.length < 256 ^ k ∧ x.Exact := by
  refine and_congr_left fun _ => ?_
  change ofBE (toBE k x.bytes.length) = x.bytes.length ↔ _
  rw [ofBE_toBE]
  constructor
  · intro h
    rw [← h]
    exact Nat.mod_lt _ (by positivity)
  · exact Nat.mod_eq_of_lt

theorem exact_sequence (xs : List Layout) : (sequence xs).Exact ↔ ∀ x ∈ xs, x.Exact := by
  induction xs with
  | nil => simp [sequence]
  | cons x xs ih => rw [sequence, exact_append, ih, List.forall_mem_cons]

end Layout
