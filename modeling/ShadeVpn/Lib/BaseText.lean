import Mathlib

/-!
# Base 16 and base 64

Bytes as text, RFC 4648: the digits of a base, two digits a byte, and four digits for three
bytes with or without padding.

* `decode16_eq_some_iff`, `decode64_eq_some_iff` — a text is read as some bytes exactly if
  they are written so.
-/

namespace BaseText

/-! ## Digits -/

/-- The digits of a base in their order, without the padding character. -/
structure Digits (base : ℕ) where
  chars : List Char
  length : chars.length = base
  nodup : chars.Nodup
  padding : '=' ∉ chars

variable {base : ℕ}

def Digits.digit (D : Digits base) (n : ℕ) : Char := D.chars.getD n '='

def Digits.value (D : Digits base) (c : Char) : Option ℕ :=
  if c ∈ D.chars then some (D.chars.idxOf c) else none

/-- **A digit has one value.** -/
theorem Digits.value_eq_some_iff (D : Digits base) {c : Char} {n : ℕ} :
    D.value c = some n ↔ n < base ∧ D.digit n = c := by
  unfold Digits.value Digits.digit
  constructor
  · intro h
    split at h
    · next hmem =>
      cases h
      have hlt : D.chars.idxOf c < D.chars.length := List.idxOf_lt_length_iff.2 hmem
      refine ⟨hlt.trans_eq D.length, ?_⟩
      rw [List.getD_eq_getElem _ _ hlt, List.getElem_idxOf]
    · cases h
  · rintro ⟨hn, rfl⟩
    have hlt : n < D.chars.length := hn.trans_eq D.length.symm
    rw [List.getD_eq_getElem _ _ hlt, if_pos (List.getElem_mem hlt), D.nodup.idxOf_getElem]

theorem Digits.digit_mem (D : Digits base) {n : ℕ} (h : n < base) : D.digit n ∈ D.chars := by
  have hlt : n < D.chars.length := h.trans_eq D.length.symm
  unfold Digits.digit
  rw [List.getD_eq_getElem _ _ hlt]
  exact List.getElem_mem hlt

/-- No digit is the padding character. -/
theorem Digits.digit_ne_padding (D : Digits base) {n : ℕ} (h : n < base) : D.digit n ≠ '=' := by
  intro heq
  have hmem := D.digit_mem h
  rw [heq] at hmem
  exact D.padding hmem

/-- `0` to `9` and `a` to `f`. -/
def lowerHex : Digits 16 where
  chars := ['0', '1', '2', '3', '4', '5', '6', '7', '8', '9', 'a', 'b', 'c', 'd', 'e', 'f']
  length := by decide
  nodup := by decide
  padding := by decide

/-- The standard alphabet of base 64. -/
def standard : Digits 64 where
  chars := "ABCDEFGHIJKLMNOPQRSTUVWXYZabcdefghijklmnopqrstuvwxyz0123456789+/".toList
  length := by decide
  nodup := by decide
  padding := by decide

/-- The alphabet of base 64 that URLs and file names take. -/
def urlSafe : Digits 64 where
  chars := "ABCDEFGHIJKLMNOPQRSTUVWXYZabcdefghijklmnopqrstuvwxyz0123456789-_".toList
  length := by decide
  nodup := by decide
  padding := by decide

/-! ## Base 16 -/

def Digits.pair (D : Digits 16) (b : UInt8) : List Char :=
  [D.digit (b.toNat / 16), D.digit (b.toNat % 16)]

def Digits.encode16 (D : Digits 16) (bytes : List UInt8) : List Char := bytes.flatMap D.pair

def Digits.readPair (D : Digits 16) (c d : Char) : Option UInt8 := do
  let high ← D.value c
  let low ← D.value d
  some (UInt8.ofNat (16 * high + low))

def Digits.decode16 (D : Digits 16) : List Char → Option (List UInt8)
  | [] => some []
  | [_] => none
  | c :: d :: rest => do
    let b ← D.readPair c d
    let bytes ← D.decode16 rest
    some (b :: bytes)

theorem Digits.readPair_eq_some_iff (D : Digits 16) {c d : Char} {b : UInt8} :
    D.readPair c d = some b ↔ [c, d] = D.pair b := by
  have hb := b.toNat_lt
  unfold Digits.readPair Digits.pair
  simp only [Option.bind_eq_bind, Option.bind_eq_some_iff, Option.some.injEq,
    D.value_eq_some_iff, List.cons.injEq, and_true]
  constructor
  · rintro ⟨high, ⟨hhigh, rfl⟩, low, ⟨hlow, rfl⟩, rfl⟩
    have hvalue : (UInt8.ofNat (16 * high + low)).toNat = 16 * high + low :=
      UInt8.toNat_ofNat_of_lt' (by show _ < 256; omega)
    rw [hvalue]
    exact ⟨congrArg D.digit (by omega), congrArg D.digit (by omega)⟩
  · rintro ⟨rfl, rfl⟩
    refine ⟨_, ⟨by omega, rfl⟩, _, ⟨by omega, rfl⟩, ?_⟩
    rw [show 16 * (b.toNat / 16) + b.toNat % 16 = b.toNat by omega, UInt8.ofNat_toNat]

theorem Digits.decode16_encode16 (D : Digits 16) (bytes : List UInt8) :
    D.decode16 (D.encode16 bytes) = some bytes := by
  induction bytes with
  | nil => rfl
  | cons b bytes ih =>
    have hpair := D.readPair_eq_some_iff.2 (rfl : _ = D.pair b)
    show D.decode16 (_ :: _ :: D.encode16 bytes) = _
    rw [Digits.decode16, hpair, ih]
    rfl

/-- **Base 16** both ways. -/
theorem Digits.decode16_eq_some_iff (D : Digits 16) {text : List Char} {bytes : List UInt8} :
    D.decode16 text = some bytes ↔ text = D.encode16 bytes := by
  constructor
  · intro h
    induction text using Digits.decode16.induct generalizing bytes with
    | case1 =>
      cases h
      rfl
    | case2 c => cases h
    | case3 c d rest ih =>
      simp only [Digits.decode16, Option.bind_eq_bind, Option.bind_eq_some_iff,
        Option.some.injEq] at h
      obtain ⟨b, hb, more, hmore, rfl⟩ := h
      rw [ih hmore]
      have hpair : [c, d] = D.pair b := D.readPair_eq_some_iff.1 hb
      show [c, d] ++ D.encode16 more = D.pair b ++ D.encode16 more
      rw [hpair]
  · rintro rfl
    exact D.decode16_encode16 bytes

theorem Digits.length_encode16 (D : Digits 16) (bytes : List UInt8) :
    (D.encode16 bytes).length = 2 * bytes.length := by
  induction bytes with
  | nil => rfl
  | cons b bytes ih =>
    show (_ :: _ :: D.encode16 bytes).length = _
    simp only [List.length_cons, ih]
    omega

theorem Digits.mem_encode16 (D : Digits 16) {bytes : List UInt8} {c : Char}
    (h : c ∈ D.encode16 bytes) : c ∈ D.chars := by
  obtain ⟨b, -, hc⟩ := List.mem_flatMap.1 h
  have hb := b.toNat_lt
  rcases List.mem_pair.1 hc with rfl | rfl
  · exact D.digit_mem (by omega)
  · exact D.digit_mem (by omega)

/-! ## Base 64 -/

/-- One byte in two digits, the low four bits of the second one zero. -/
def Digits.one (D : Digits 64) (a : UInt8) : List Char :=
  [D.digit (a.toNat / 4), D.digit (a.toNat % 4 * 16)]

/-- Two bytes in three digits, the low two bits of the third one zero. -/
def Digits.two (D : Digits 64) (a b : UInt8) : List Char :=
  [D.digit (a.toNat / 4), D.digit (a.toNat % 4 * 16 + b.toNat / 16), D.digit (b.toNat % 16 * 4)]

def Digits.three (D : Digits 64) (a b c : UInt8) : List Char :=
  [D.digit (a.toNat / 4), D.digit (a.toNat % 4 * 16 + b.toNat / 16),
    D.digit (b.toNat % 16 * 4 + c.toNat / 64), D.digit (c.toNat % 64)]

def Digits.encode64 (D : Digits 64) (pad : Bool) : List UInt8 → List Char
  | [] => []
  | [a] => D.one a ++ if pad then ['=', '='] else []
  | [a, b] => D.two a b ++ if pad then ['='] else []
  | a :: b :: c :: rest => D.three a b c ++ D.encode64 pad rest

def Digits.readOne (D : Digits 64) (c d : Char) : Option (List UInt8) := do
  let x ← D.value c
  let y ← D.value d
  if y % 16 = 0 then some [UInt8.ofNat (4 * x + y / 16)] else none

def Digits.readTwo (D : Digits 64) (c d e : Char) : Option (List UInt8) := do
  let x ← D.value c
  let y ← D.value d
  let z ← D.value e
  if z % 4 = 0 then
    some [UInt8.ofNat (4 * x + y / 16), UInt8.ofNat (y % 16 * 16 + z / 4)]
  else none

def Digits.readThree (D : Digits 64) (c d e f : Char) : Option (List UInt8) := do
  let x ← D.value c
  let y ← D.value d
  let z ← D.value e
  let w ← D.value f
  some [UInt8.ofNat (4 * x + y / 16), UInt8.ofNat (y % 16 * 16 + z / 4),
    UInt8.ofNat (z % 4 * 64 + w)]

def Digits.decode64 (D : Digits 64) (pad : Bool) : List Char → Option (List UInt8)
  | [] => some []
  | [_] => none
  | [c, d] => if pad then none else D.readOne c d
  | [c, d, e] => if pad then none else D.readTwo c d e
  | c :: d :: e :: f :: rest =>
    if pad ∧ rest = [] ∧ f = '=' then if e = '=' then D.readOne c d else D.readTwo c d e
    else do
      let bytes ← D.readThree c d e f
      let more ← D.decode64 pad rest
      some (bytes ++ more)

theorem toNat_ofNat {n : ℕ} (h : n < 256) : (UInt8.ofNat n).toNat = n :=
  UInt8.toNat_ofNat_of_lt' h

theorem Digits.readOne_eq_some_iff (D : Digits 64) {c d : Char} {bytes : List UInt8} :
    D.readOne c d = some bytes ↔ ∃ a, bytes = [a] ∧ [c, d] = D.one a := by
  unfold Digits.readOne Digits.one
  simp only [Option.bind_eq_bind, Option.bind_eq_some_iff, Option.ite_none_right_eq_some,
    Option.some.injEq, D.value_eq_some_iff, List.cons.injEq, and_true]
  constructor
  · rintro ⟨x, ⟨hx, rfl⟩, y, ⟨hy, rfl⟩, hlow, rfl⟩
    refine ⟨_, rfl, ?_, ?_⟩
    · rw [toNat_ofNat (by omega)]
      exact congrArg D.digit (by omega)
    · rw [toNat_ofNat (by omega)]
      exact congrArg D.digit (by omega)
  · rintro ⟨a, rfl, rfl, rfl⟩
    have ha := a.toNat_lt
    refine ⟨_, ⟨by omega, rfl⟩, _, ⟨by omega, rfl⟩, by omega, ?_⟩
    rw [show 4 * (a.toNat / 4) + a.toNat % 4 * 16 / 16 = a.toNat by omega, UInt8.ofNat_toNat]

theorem Digits.readTwo_eq_some_iff (D : Digits 64) {c d e : Char} {bytes : List UInt8} :
    D.readTwo c d e = some bytes ↔ ∃ a b, bytes = [a, b] ∧ [c, d, e] = D.two a b := by
  unfold Digits.readTwo Digits.two
  simp only [Option.bind_eq_bind, Option.bind_eq_some_iff, Option.ite_none_right_eq_some,
    Option.some.injEq, D.value_eq_some_iff, List.cons.injEq, and_true]
  constructor
  · rintro ⟨x, ⟨hx, rfl⟩, y, ⟨hy, rfl⟩, z, ⟨hz, rfl⟩, hlow, rfl⟩
    refine ⟨_, _, rfl, ?_, ?_, ?_⟩
    all_goals simp only [toNat_ofNat (show 4 * x + y / 16 < 256 by omega),
      toNat_ofNat (show y % 16 * 16 + z / 4 < 256 by omega)]
    all_goals exact congrArg D.digit (by omega)
  · rintro ⟨a, b, rfl, rfl, rfl, rfl⟩
    have ha := a.toNat_lt
    have hb := b.toNat_lt
    refine ⟨_, ⟨by omega, rfl⟩, _, ⟨by omega, rfl⟩, _, ⟨by omega, rfl⟩, by omega, ?_⟩
    rw [show 4 * (a.toNat / 4) + (a.toNat % 4 * 16 + b.toNat / 16) / 16 = a.toNat by omega,
      show (a.toNat % 4 * 16 + b.toNat / 16) % 16 * 16 + b.toNat % 16 * 4 / 4 = b.toNat by omega,
      UInt8.ofNat_toNat, UInt8.ofNat_toNat]

theorem Digits.readThree_eq_some_iff (D : Digits 64) {c d e f : Char} {bytes : List UInt8} :
    D.readThree c d e f = some bytes ↔
      ∃ a b x, bytes = [a, b, x] ∧ [c, d, e, f] = D.three a b x := by
  unfold Digits.readThree Digits.three
  simp only [Option.bind_eq_bind, Option.bind_eq_some_iff, Option.some.injEq,
    D.value_eq_some_iff, List.cons.injEq, and_true]
  constructor
  · rintro ⟨x, ⟨hx, rfl⟩, y, ⟨hy, rfl⟩, z, ⟨hz, rfl⟩, w, ⟨hw, rfl⟩, rfl⟩
    refine ⟨_, _, _, rfl, ?_, ?_, ?_, ?_⟩
    all_goals simp only [toNat_ofNat (show 4 * x + y / 16 < 256 by omega),
      toNat_ofNat (show y % 16 * 16 + z / 4 < 256 by omega),
      toNat_ofNat (show z % 4 * 64 + w < 256 by omega)]
    all_goals exact congrArg D.digit (by omega)
  · rintro ⟨a, b, x, rfl, rfl, rfl, rfl, rfl⟩
    have ha := a.toNat_lt
    have hb := b.toNat_lt
    have hx := x.toNat_lt
    refine ⟨_, ⟨by omega, rfl⟩, _, ⟨by omega, rfl⟩, _, ⟨by omega, rfl⟩, _, ⟨by omega, rfl⟩, ?_⟩
    rw [show 4 * (a.toNat / 4) + (a.toNat % 4 * 16 + b.toNat / 16) / 16 = a.toNat by omega,
      show (a.toNat % 4 * 16 + b.toNat / 16) % 16 * 16
        + (b.toNat % 16 * 4 + x.toNat / 64) / 4 = b.toNat by omega,
      show (b.toNat % 16 * 4 + x.toNat / 64) % 4 * 64 + x.toNat % 64 = x.toNat by omega,
      UInt8.ofNat_toNat, UInt8.ofNat_toNat, UInt8.ofNat_toNat]

theorem Digits.decode64_encode64 (D : Digits 64) (pad : Bool) (bytes : List UInt8) :
    D.decode64 pad (D.encode64 pad bytes) = some bytes := by
  induction bytes using Digits.encode64.induct with
  | case1 => rfl
  | case2 a =>
    have hone : D.readOne _ _ = some [a] := D.readOne_eq_some_iff.2 ⟨a, rfl, rfl⟩
    cases pad with
    | false => exact hone
    | true => exact hone
  | case3 a b =>
    have hb := b.toNat_lt
    have htwo : D.readTwo _ _ _ = some [a, b] := D.readTwo_eq_some_iff.2 ⟨a, b, rfl, rfl⟩
    cases pad with
    | false => exact htwo
    | true =>
      have hlast : D.digit (b.toNat % 16 * 4) ≠ '=' := D.digit_ne_padding (by omega)
      exact (if_neg hlast).trans htwo
  | case4 a b x rest ih =>
    have hx := x.toNat_lt
    have hthree : D.readThree _ _ _ _ = some [a, b, x] :=
      D.readThree_eq_some_iff.2 ⟨a, b, x, rfl, rfl⟩
    have hlast : D.digit (x.toNat % 64) ≠ '=' := D.digit_ne_padding (by omega)
    show D.decode64 pad (_ :: _ :: _ :: _ :: D.encode64 pad rest) = _
    rw [Digits.decode64, if_neg (fun h => hlast h.2.2), hthree, ih]
    rfl

/-- **Base 64** both ways: with its padding, or without any. -/
theorem Digits.decode64_eq_some_iff (D : Digits 64) {pad : Bool} {text : List Char}
    {bytes : List UInt8} : D.decode64 pad text = some bytes ↔ text = D.encode64 pad bytes := by
  constructor
  · intro h
    induction text using Digits.decode64.induct pad generalizing bytes with
    | case1 =>
      cases h
      rfl
    | case2 c => cases h
    | case3 c d hpad =>
      rw [Digits.decode64, if_pos hpad] at h
      cases h
    | case4 c d hpad =>
      rw [Digits.decode64, if_neg hpad] at h
      obtain ⟨a, rfl, htext⟩ := D.readOne_eq_some_iff.1 h
      rw [htext, Digits.encode64, if_neg hpad, List.append_nil]
    | case5 c d e hpad =>
      rw [Digits.decode64, if_pos hpad] at h
      cases h
    | case6 c d e hpad =>
      rw [Digits.decode64, if_neg hpad] at h
      obtain ⟨a, b, rfl, htext⟩ := D.readTwo_eq_some_iff.1 h
      rw [htext, Digits.encode64, if_neg hpad, List.append_nil]
    | case7 c d f rest hlast =>
      rw [Digits.decode64, if_pos hlast, if_pos rfl] at h
      obtain ⟨hpad, rfl, rfl⟩ := hlast
      obtain ⟨a, rfl, htext⟩ := D.readOne_eq_some_iff.1 h
      rw [Digits.encode64, if_pos hpad, ← htext]
      rfl
    | case8 c d e f rest hlast he =>
      rw [Digits.decode64, if_pos hlast, if_neg he] at h
      obtain ⟨hpad, rfl, rfl⟩ := hlast
      obtain ⟨a, b, rfl, htext⟩ := D.readTwo_eq_some_iff.1 h
      rw [Digits.encode64, if_pos hpad, ← htext]
      rfl
    | case9 c d e f rest hmore ih =>
      simp only [Digits.decode64, if_neg hmore, Option.bind_eq_bind, Option.bind_eq_some_iff,
        Option.some.injEq] at h
      obtain ⟨quantum, hquantum, more, hrest, rfl⟩ := h
      obtain ⟨a, b, x, rfl, htext⟩ := D.readThree_eq_some_iff.1 hquantum
      show [c, d, e, f] ++ rest = D.three a b x ++ D.encode64 pad more
      rw [htext, ih hrest]
  · rintro rfl
    exact D.decode64_encode64 pad bytes

/-- What is written without padding has none. -/
theorem Digits.padding_not_mem (D : Digits 64) (bytes : List UInt8) :
    '=' ∉ D.encode64 false bytes := by
  have hdigit {n : ℕ} (h : n < 64) : '=' ≠ D.digit n := (D.digit_ne_padding h).symm
  induction bytes using Digits.encode64.induct with
  | case1 => exact List.not_mem_nil
  | case2 a =>
    have ha := a.toNat_lt
    simp [Digits.encode64, Digits.one, hdigit (show a.toNat / 4 < 64 by omega),
      hdigit (show a.toNat % 4 * 16 < 64 by omega)]
  | case3 a b =>
    have ha := a.toNat_lt
    have hb := b.toNat_lt
    simp [Digits.encode64, Digits.two, hdigit (show a.toNat / 4 < 64 by omega),
      hdigit (show a.toNat % 4 * 16 + b.toNat / 16 < 64 by omega),
      hdigit (show b.toNat % 16 * 4 < 64 by omega)]
  | case4 a b x rest ih =>
    have ha := a.toNat_lt
    have hb := b.toNat_lt
    have hx := x.toNat_lt
    simp [Digits.encode64, Digits.three, ih, hdigit (show a.toNat / 4 < 64 by omega),
      hdigit (show a.toNat % 4 * 16 + b.toNat / 16 < 64 by omega),
      hdigit (show b.toNat % 16 * 4 + x.toNat / 64 < 64 by omega),
      hdigit (show x.toNat % 64 < 64 by omega)]

/-- What is padded is padded, but where three bytes at a time leave none over. -/
theorem Digits.padding_mem (D : Digits 64) {bytes : List UInt8} (h : bytes.length % 3 ≠ 0) :
    '=' ∈ D.encode64 true bytes := by
  induction bytes using Digits.encode64.induct with
  | case1 => exact absurd rfl h
  | case2 a => simp [Digits.encode64]
  | case3 a b => simp [Digits.encode64]
  | case4 a b x rest ih =>
    rw [Digits.encode64]
    have hrest : rest.length % 3 ≠ 0 := by
      rw [List.length_cons, List.length_cons, List.length_cons] at h
      omega
    exact List.mem_append_right _ (ih hrest)

end BaseText
