import ShadeVpn.Lib.Octets

/-!
# Reading a message from the front

A parser of length-prefixed fields takes symbols off the front of what is left
and fails when there are too few.  `take` and `number` are the two reads all
such parsers are made of; the lemmas say what they give back on a message that
starts with what they look for.
-/

namespace Cursor

open Octets

variable {σ ε : Type}

/-- A sequence that returns went through its first part. -/
theorem bind_eq_ok {α β : Type} {x : Except ε α} {f : α → Except ε β} {b : β} :
    x >>= f = .ok b ↔ ∃ a, x = .ok a ∧ f a = .ok b := by
  rcases x with e | a <;> simp [bind, Except.bind]

/-- A sequence that fails failed in its first part or behind it. -/
theorem bind_eq_error {α β : Type} {x : Except ε α} {f : α → Except ε β} {e : ε} :
    x >>= f = .error e ↔ x = .error e ∨ ∃ a, x = .ok a ∧ f a = .error e := by
  rcases x with e' | a <;> simp [bind, Except.bind]

/-- Take `n` symbols, or fail with `short`. -/
def take (short : ε) (n : ℕ) (r : List σ) : Except ε (List σ × List σ) :=
  if r.length < n then .error short else .ok (r.take n, r.drop n)

variable [Alphabet σ]

/-- Take a big-endian number of `k` symbols. -/
def number (short : ε) (k : ℕ) (r : List σ) : Except ε (ℕ × List σ) := do
  let (b, r) ← take short k r
  .ok (ofBE (values b), r)

variable {short : ε}

omit [Alphabet σ] in
theorem take_append {n : ℕ} {xs : List σ} (h : xs.length = n) (rest : List σ) :
    take short n (xs ++ rest) = .ok (xs, rest) := by
  rw [take, if_neg (by rw [List.length_append]; omega), List.take_left' h, List.drop_left' h]

omit [Alphabet σ] in
/-- What was taken is the front of what was there. -/
theorem take_eq_ok {n : ℕ} {r xs rest : List σ} (h : take short n r = .ok (xs, rest)) :
    r = xs ++ rest ∧ xs.length = n := by
  rw [take] at h
  split_ifs at h with hshort
  cases h
  exact ⟨(List.take_append_drop n r).symm, by rw [List.length_take]; omega⟩

/-- What was read as a number took its symbols off the front. -/
theorem number_eq_ok {k n : ℕ} {r rest : List σ} (h : number short k r = .ok (n, rest)) :
    r.length = k + rest.length ∧ n < 256 ^ k := by
  rw [number] at h
  rcases htake : take short k r with e | ⟨xs, rest'⟩
  · simp only [htake, bind, Except.bind] at h
    cases h
  · simp only [htake, bind, Except.bind] at h
    cases h
    obtain ⟨rfl, hlen⟩ := take_eq_ok htake
    refine ⟨by rw [List.length_append, hlen], ?_⟩
    have := ofBE_lt (values xs)
    rwa [length_values, hlen] at this

/-- What was read as a number stood in front. -/
theorem exists_front_of_number {k n : ℕ} {r rest : List σ} (h : number short k r = .ok (n, rest)) :
    ∃ front, r = front ++ rest ∧ front.length = k := by
  rw [number, bind_eq_ok] at h
  obtain ⟨⟨front, rest'⟩, htake, h⟩ := h
  cases h
  exact ⟨front, take_eq_ok htake⟩

/-- The bytes a number was read from are the bytes of that number. -/
theorem number_eq_ok_toBE {k n : ℕ} {r rest : Bytes} (h : number short k r = .ok (n, rest)) :
    r = toBE k n ++ rest := by
  rw [number, bind_eq_ok] at h
  obtain ⟨⟨xs, rest'⟩, htake, h⟩ := h
  obtain ⟨rfl, rfl⟩ := take_eq_ok htake
  cases h
  rw [values_uint8, toBE_ofBE]

theorem number_append {k : ℕ} {bs : Bytes} (h : bs.length = k) (rest : List σ) :
    number short k (lits bs ++ rest) = .ok (ofBE bs, rest) := by
  rw [number, take_append (by simpa using h)]
  simp [bind, Except.bind]

theorem number_toBE {k n : ℕ} (h : n < 256 ^ k) (rest : List σ) :
    number short k (lits (toBE k n) ++ rest) = .ok (n, rest) := by
  rw [number_append (by simp), ofBE_toBE_of_lt h]

theorem number_toBE_append {k n : ℕ} (h : n < 256 ^ k) (rest : Bytes) :
    number short k (toBE k n ++ rest) = .ok (n, rest) := by
  simpa using number_toBE h rest

/-- A one-byte length that was written with a narrowing cast. -/
theorem number_byte {n : ℕ} (h : n < 256) (rest : List σ) :
    number short 1 (lits [UInt8.ofNat n] ++ rest) = .ok (n, rest) := by
  rw [number_append (k := 1) rfl]
  simp [ofBE, Nat.mod_eq_of_lt h]

end Cursor
