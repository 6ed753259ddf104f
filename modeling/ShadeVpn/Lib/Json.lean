import Mathlib

/-!
# JSON texts

A reader of RFC 8259 in two passes.  `tokens` cuts a text into tokens: the six
structural characters, the three literal names, numbers and strings with their
escapes.  `value` and `after` read one value from the tokens, with a stack of what is
open around it.

The second half is about flat objects as programs write them: if each value text
reads as a token, the object reads as its members, and if one does not, the text is
no JSON (`parse_objectText`).
-/

namespace Json

/-! ## Tokens -/

/-- A number as it is written. -/
structure Number where
  negative : Bool
  integer : ℕ
  fraction : Option (List Char)
  exponent : Option (List Char)
  deriving DecidableEq

inductive Token where
  | openArray
  | closeArray
  | openObject
  | closeObject
  | colon
  | comma
  | null
  | bool (b : Bool)
  | number (n : Number)
  | string (s : String)
  deriving DecidableEq

/-- Four hexadecimal digits. -/
def hex4 (a b c d : Char) : Option ℕ := do
  let digit (c : Char) : Option ℕ :=
    if c.isDigit then some (c.toNat - 48)
    else if 'a' ≤ c ∧ c ≤ 'f' then some (c.toNat - 87)
    else if 'A' ≤ c ∧ c ≤ 'F' then some (c.toNat - 55)
    else none
  let a ← digit a
  let b ← digit b
  let c ← digit c
  let d ← digit d
  some (((a * 16 + b) * 16 + c) * 16 + d)

/-- The escapes of one character. -/
def unescape : Char → Option Char
  | '"' => some '"'
  | '\\' => some '\\'
  | '/' => some '/'
  | 'b' => some '\x08'
  | 'f' => some '\x0c'
  | 'n' => some '\n'
  | 'r' => some '\r'
  | 't' => some '\t'
  | _ => none

/-- A character in front of what a string goes on with. -/
def consChar (c : Char) : Option (List Char × List Char) → Option (List Char × List Char) :=
  Option.map fun (s, rest) => (c :: s, rest)

/-- A string behind its opening quote: its characters, and what follows the closing
quote.  A surrogate has to come with its other half. -/
def readString : List Char → Option (List Char × List Char)
  | [] => none
  | '"' :: cs => some ([], cs)
  | '\\' :: 'u' :: a :: b :: c :: d :: cs => do
    let u ← hex4 a b c d
    if u < 0xd800 ∨ 0xdfff < u then consChar (Char.ofNat u) (readString cs)
    else if 0xdbff < u then none
    else
      match cs with
      | '\\' :: 'u' :: a :: b :: c :: d :: cs => do
        let l ← hex4 a b c d
        if 0xdc00 ≤ l ∧ l ≤ 0xdfff then
          consChar (Char.ofNat (0x10000 + (u - 0xd800) * 0x400 + (l - 0xdc00))) (readString cs)
        else none
      | _ => none
  | '\\' :: e :: cs => do
    let c ← unescape e
    consChar c (readString cs)
  | c :: cs => if c < ' ' ∨ c = '\\' then none else consChar c (readString cs)

/-- The digits in front. -/
def digits (cs : List Char) : List Char × List Char :=
  (cs.takeWhile Char.isDigit, cs.dropWhile Char.isDigit)

/-- The integer part of a number: no zero in front of another digit. -/
def readInteger : List Char → Option (ℕ × List Char)
  | '0' :: cs => some (0, cs)
  | cs =>
    match digits cs with
    | ([], _) => none
    | (ds, rest) => some (Nat.ofDigitChars 10 ds 0, rest)

/-- Digits, and at least one. -/
def readDigits (cs : List Char) : Option (List Char × List Char) :=
  match digits cs with
  | ([], _) => none
  | (ds, rest) => some (ds, rest)

/-- The fraction, if there is one. -/
def readFraction : List Char → Option (Option (List Char) × List Char)
  | '.' :: cs => (readDigits cs).map fun (ds, rest) => (some ds, rest)
  | cs => some (none, cs)

/-- The exponent, if there is one. -/
def readExponent : List Char → Option (Option (List Char) × List Char)
  | c :: cs =>
    if c = 'e' ∨ c = 'E' then
      match cs with
      | '+' :: cs => (readDigits cs).map fun (ds, rest) => (some ds, rest)
      | '-' :: cs => (readDigits cs).map fun (ds, rest) => (some ('-' :: ds), rest)
      | cs => (readDigits cs).map fun (ds, rest) => (some ds, rest)
    else some (none, c :: cs)
  | [] => some (none, [])

/-- A number without its sign. -/
def readMagnitude (negative : Bool) (cs : List Char) : Option (Number × List Char) := do
  let (integer, cs) ← readInteger cs
  let (fraction, cs) ← readFraction cs
  let (exponent, cs) ← readExponent cs
  some (⟨negative, integer, fraction, exponent⟩, cs)

def readNumber : List Char → Option (Number × List Char)
  | '-' :: cs => readMagnitude true cs
  | cs => readMagnitude false cs

/-- The token in front. -/
def token : List Char → Option (Token × List Char)
  | '[' :: cs => some (.openArray, cs)
  | ']' :: cs => some (.closeArray, cs)
  | '{' :: cs => some (.openObject, cs)
  | '}' :: cs => some (.closeObject, cs)
  | ':' :: cs => some (.colon, cs)
  | ',' :: cs => some (.comma, cs)
  | '"' :: cs => (readString cs).map fun (s, rest) => (.string (String.ofList s), rest)
  | 'n' :: 'u' :: 'l' :: 'l' :: cs => some (.null, cs)
  | 't' :: 'r' :: 'u' :: 'e' :: cs => some (.bool true, cs)
  | 'f' :: 'a' :: 'l' :: 's' :: 'e' :: cs => some (.bool false, cs)
  | cs => (readNumber cs).map fun (n, rest) => (.number n, rest)

@[simp] theorem consChar_eq_some {c : Char} {o : Option (List Char × List Char)}
    {s rest : List Char} :
    consChar c o = some (s, rest) ↔ ∃ s', o = some (s', rest) ∧ c :: s' = s := by
  rcases o with _ | ⟨s', rest'⟩ <;> simp [consChar, and_comm]

theorem readString_lt {cs s rest : List Char} (h : readString cs = some (s, rest)) :
    rest.length < cs.length := by
  induction cs using readString.induct generalizing s rest with
  | case1 => simp [readString] at h
  | case2 cs =>
    cases h
    simp
  | case3 a b c d cs ih ihPair =>
    rw [readString, Option.bind_eq_bind, Option.bind_eq_some_iff] at h
    obtain ⟨u, -, h⟩ := h
    split_ifs at h with hplain hlow
    · obtain ⟨s', hs', -⟩ := consChar_eq_some.1 h
      have := ih hs'
      simp only [List.length_cons]
      omega
    · split at h
      · obtain ⟨l, -, h⟩ := Option.bind_eq_some_iff.1 h
        split_ifs at h with hpair
        obtain ⟨s', hs', -⟩ := consChar_eq_some.1 h
        have := ihPair hs'
        simp only [List.length_cons]
        omega
      · cases h
  | case4 e cs _ ih =>
    rw [readString, Option.bind_eq_bind, Option.bind_eq_some_iff] at h
    · obtain ⟨c, -, h⟩ := h
      obtain ⟨s', hs', -⟩ := consChar_eq_some.1 h
      have := ih hs'
      simp only [List.length_cons]
      omega
    · assumption
  | case5 c cs h₁ h₂ h₃ hbad =>
    rw [readString, if_pos hbad] at h <;> first | cases h | assumption
  | case6 c cs h₁ h₂ h₃ hgood ih =>
    rw [readString, if_neg hgood] at h
    · obtain ⟨s', hs', -⟩ := consChar_eq_some.1 h
      have := ih hs'
      simp only [List.length_cons]
      omega
    all_goals assumption

theorem length_digits (cs : List Char) :
    (digits cs).1.length + (digits cs).2.length = cs.length := by
  rw [digits, ← List.length_append, List.takeWhile_append_dropWhile]

theorem readInteger_lt {cs rest : List Char} {n : ℕ} (h : readInteger cs = some (n, rest)) :
    rest.length < cs.length := by
  rw [readInteger.eq_def] at h
  split at h
  · cases h
    simp
  · have hlen := length_digits cs
    split at h
    · cases h
    · next ds rest' hne hdigits =>
      cases h
      rw [hdigits] at hlen
      have : 0 < ds.length := List.length_pos_of_ne_nil hne
      dsimp only at hlen
      omega

theorem readDigits_le {cs ds rest : List Char} (h : readDigits cs = some (ds, rest)) :
    rest.length ≤ cs.length := by
  have hlen := length_digits cs
  rw [readDigits] at h
  split at h
  · cases h
  · next hdigits =>
    cases h
    rw [hdigits] at hlen
    dsimp only at hlen
    omega

theorem readFraction_le {cs rest : List Char} {f : Option (List Char)}
    (h : readFraction cs = some (f, rest)) : rest.length ≤ cs.length := by
  rw [readFraction.eq_def] at h
  split at h
  · obtain ⟨⟨ds, rest'⟩, hds, heq⟩ := Option.map_eq_some_iff.1 h
    cases heq
    have := readDigits_le hds
    simp only [List.length_cons]
    omega
  · cases h
    exact le_rfl

theorem readExponent_le {cs rest : List Char} {e : Option (List Char)}
    (h : readExponent cs = some (e, rest)) : rest.length ≤ cs.length := by
  rw [readExponent.eq_def] at h
  split at h
  · split_ifs at h
    · split at h <;> obtain ⟨⟨ds, rest'⟩, hds, heq⟩ := Option.map_eq_some_iff.1 h <;> cases heq
      all_goals
        have := readDigits_le hds
        simp only [List.length_cons]
        omega
    · cases h
      exact le_rfl
  · cases h
    exact le_rfl

theorem readMagnitude_lt {negative : Bool} {cs rest : List Char} {n : Number}
    (h : readMagnitude negative cs = some (n, rest)) : rest.length < cs.length := by
  simp only [readMagnitude, Option.bind_eq_bind, Option.bind_eq_some_iff, Prod.exists] at h
  obtain ⟨i, r₁, hi, f, r₂, hf, e, r₃, he, h⟩ := h
  cases h
  have h₁ := readInteger_lt hi
  have h₂ := readFraction_le hf
  have h₃ := readExponent_le he
  omega

theorem readNumber_lt {cs rest : List Char} {n : Number} (h : readNumber cs = some (n, rest)) :
    rest.length < cs.length := by
  rw [readNumber.eq_def] at h
  split at h
  · have := readMagnitude_lt h
    simp only [List.length_cons]
    omega
  · exact readMagnitude_lt h

theorem token_lt {cs rest : List Char} {t : Token} (h : token cs = some (t, rest)) :
    rest.length < cs.length := by
  rw [token.eq_def] at h
  split at h
  case h_7 =>
    obtain ⟨⟨s, rest'⟩, hs, heq⟩ := Option.map_eq_some_iff.1 h
    cases heq
    have := readString_lt hs
    simp only [List.length_cons]
    omega
  case h_11 =>
    obtain ⟨⟨n, rest'⟩, hn, heq⟩ := Option.map_eq_some_iff.1 h
    cases heq
    exact readNumber_lt hn
  all_goals
    cases h
    simp only [List.length_cons]
    omega

/-- The tokens of a text, with the whitespace between them dropped. -/
def tokens : List Char → Option (List Token)
  | [] => some []
  | c :: cs =>
    if c = ' ' ∨ c = '\t' ∨ c = '\n' ∨ c = '\r' then tokens cs
    else
      match _htoken : token (c :: cs) with
      | none => none
      | some (t, rest) => (tokens rest).map (t :: ·)
termination_by cs => cs.length
decreasing_by
  · simp
  · exact token_lt _htoken

/-! ## Values -/

inductive Value where
  | null
  | bool (b : Bool)
  | number (n : Number)
  | string (s : String)
  | array (items : List Value)
  | object (members : List (String × Value))

/-- What is open around a value: an array with its items so far, or an object with its
members so far and the name of the value to come. -/
inductive Frame where
  | array (items : List Value)
  | object (members : List (String × Value)) (name : String)

mutual

/-- A value has to come. -/
def value (stack : List Frame) : List Token → Option Value
  | .null :: ts => after stack .null ts
  | .bool b :: ts => after stack (.bool b) ts
  | .number n :: ts => after stack (.number n) ts
  | .string s :: ts => after stack (.string s) ts
  | .openArray :: .closeArray :: ts => after stack (.array []) ts
  | .openArray :: ts => value (.array [] :: stack) ts
  | .openObject :: .closeObject :: ts => after stack (.object []) ts
  | .openObject :: .string name :: .colon :: ts => value (.object [] name :: stack) ts
  | _ => none

/-- A value has been read. -/
def after (stack : List Frame) (v : Value) : List Token → Option Value
  | [] => if stack.isEmpty then some v else none
  | .comma :: ts =>
    match stack, ts with
    | .array items :: stack, ts => value (.array (items ++ [v]) :: stack) ts
    | .object members name :: stack, .string next :: .colon :: ts =>
      value (.object (members ++ [(name, v)]) next :: stack) ts
    | _, _ => none
  | .closeArray :: ts =>
    match stack with
    | .array items :: stack => after stack (.array (items ++ [v])) ts
    | _ => none
  | .closeObject :: ts =>
    match stack with
    | .object members name :: stack => after stack (.object (members ++ [(name, v)])) ts
    | _ => none
  | _ => none

end

/-- The value of a JSON text. -/
def parse (text : List Char) : Option Value := do
  let ts ← tokens text
  value [] ts

example : (parse ("\x7b\"a\": [1, -0.5e+3, true, \"\\u00e9\\ud83d\\ude00\"], " ++
    "\"b\": \x7b\x7d\x7d").toList).isSome = true := by
  decide +kernel

example : (parse "\x7b\"a\": [1,], \"b\": 01\x7d".toList).isNone = true := by
  decide +kernel

/-! ## What programs write -/

theorem tokens_of_token {c : Char} {cs rest : List Char} {t : Token}
    (hc : ¬ (c = ' ' ∨ c = '\t' ∨ c = '\n' ∨ c = '\r')) (h : token (c :: cs) = some (t, rest)) :
    tokens (c :: cs) = (tokens rest).map (t :: ·) := by
  rw [tokens, if_neg hc]
  split
  · next hnone => rw [h] at hnone; cases hnone
  · next hsome =>
    cases h.symm.trans hsome
    rfl

theorem tokens_of_token_none {c : Char} {cs : List Char}
    (hc : ¬ (c = ' ' ∨ c = '\t' ∨ c = '\n' ∨ c = '\r')) (h : token (c :: cs) = none) :
    tokens (c :: cs) = none := by
  rw [tokens, if_neg hc]
  split
  · rfl
  · next hsome => rw [h] at hsome; cases hsome

/-- A character that a string may hold without an escape. -/
def Plain (c : Char) : Prop := ' ' ≤ c ∧ c ≠ '"' ∧ c ≠ '\\'

instance : DecidablePred Plain := fun _ => inferInstanceAs (Decidable (_ ∧ _))

/-- A text that a string may hold as it is. -/
def PlainText (s : List Char) : Prop := ∀ c ∈ s, Plain c

instance : DecidablePred PlainText := List.decidableBAll Plain

theorem readString_cons {c : Char} (h : Plain c) (cs : List Char) :
    readString (c :: cs) = consChar c (readString cs) := by
  rw [readString, if_neg]
  · rintro (hlt | rfl)
    · exact absurd h.1 (not_le.2 hlt)
    · exact h.2.2 rfl
  · rintro rfl
    exact h.2.1 rfl
  · exact fun _ _ _ _ _ hc => absurd hc h.2.2
  · exact fun _ _ hc => absurd hc h.2.2

/-- A control character has to be escaped. -/
theorem readString_of_control {c : Char} (h : c < ' ') (cs : List Char) :
    readString (c :: cs) = none := by
  have hquote : c ≠ '"' := by rintro rfl; exact absurd h (by decide)
  have hslash : c ≠ '\\' := by rintro rfl; exact absurd h (by decide)
  rw [readString, if_pos (Or.inl h)]
  · exact hquote
  · exact fun _ _ _ _ _ hc => absurd hc hslash
  · exact fun _ _ hc => absurd hc hslash

theorem readString_plain {s : List Char} (h : PlainText s) (rest : List Char) :
    readString (s ++ '"' :: rest) = some (s, rest) := by
  induction s with
  | nil => rfl
  | cons c s ih =>
    rw [PlainText, List.forall_mem_cons] at h
    rw [List.cons_append, readString_cons h.1, ih h.2]
    rfl

/-- A value that is one token. -/
inductive Atom where
  | null
  | bool (b : Bool)
  | number (n : Number)
  | string (s : String)

def Atom.token : Atom → Token
  | null => .null
  | bool b => .bool b
  | number n => .number n
  | string s => .string s

def Atom.value : Atom → Value
  | null => .null
  | bool b => .bool b
  | number n => .number n
  | string s => .string s

/-- A text that reads as an atom where a member of an object ends, or as nothing. -/
def Reads (text : List Char) (r : Option Atom) : Prop :=
  ∀ d rest, d = ',' ∨ d = '}' →
    tokens (text ++ d :: rest) = r.bind fun a => (tokens (d :: rest)).map (a.token :: ·)

theorem reads_null : Reads ['n', 'u', 'l', 'l'] (some .null) :=
  fun _ _ _ => tokens_of_token (by decide) rfl

theorem reads_true : Reads ['t', 'r', 'u', 'e'] (some (.bool true)) :=
  fun _ _ _ => tokens_of_token (by decide) rfl

theorem reads_false : Reads ['f', 'a', 'l', 's', 'e'] (some (.bool false)) :=
  fun _ _ _ => tokens_of_token (by decide) rfl

/-- A text in quotes. -/
def quoted (s : List Char) : List Char := '"' :: (s ++ ['"'])

theorem reads_quoted {escaped s : List Char}
    (h : ∀ rest, readString (escaped ++ '"' :: rest) = some (s, rest)) :
    Reads (quoted escaped) (some (.string (String.ofList s))) := by
  intro d rest _
  rw [quoted, List.cons_append, List.append_assoc]
  exact tokens_of_token (by decide) (by rw [token]; simp [h, Atom.token])

theorem reads_quoted_none {escaped : List Char}
    (h : ∀ rest, readString (escaped ++ '"' :: rest) = none) : Reads (quoted escaped) none := by
  intro d rest _
  rw [quoted, List.cons_append, List.append_assoc]
  exact tokens_of_token_none (by decide) (by rw [token]; simp [h])

/-- A decimal numeral does not start with a zero. -/
theorem toDigits_head {n : ℕ} (hn : 0 < n) :
    ∃ c cs, Nat.toDigits 10 n = c :: cs ∧ c ≠ '0' := by
  induction n using Nat.strong_induction_on with
  | _ n ih =>
    rcases lt_or_ge n 10 with hlt | hge
    · refine ⟨n.digitChar, [], Nat.toDigits_of_lt_base hlt, ?_⟩
      interval_cases n <;> decide
    · obtain ⟨c, cs, heq, hc⟩ := ih (n / 10) (by omega) (by omega)
      exact ⟨c, cs ++ [(n % 10).digitChar], by
        rw [Nat.toDigits_of_base_le (by omega) hge, heq, List.cons_append], hc⟩

theorem digits_append {ds rest : List Char} (h : ∀ c ∈ ds, c.isDigit = true)
    (hrest : ∀ c ∈ rest.head?, c.isDigit = false) : digits (ds ++ rest) = (ds, rest) := by
  induction ds with
  | nil =>
    cases rest with
    | nil => rfl
    | cons c rest => simp [digits, hrest c rfl]
  | cons c ds ih =>
    rw [List.forall_mem_cons] at h
    have hrec := ih h.2
    simp only [digits, Prod.mk.injEq] at hrec ⊢
    simp [h.1, hrec]

theorem token_of_isDigit {c : Char} (h : c.isDigit = true) (cs : List Char) :
    token (c :: cs) = (readNumber (c :: cs)).map fun (n, rest) => (.number n, rest) := by
  rw [token.eq_def]
  split
  case h_11 => rfl
  all_goals
    next heq =>
      obtain ⟨rfl, -⟩ := List.cons.inj heq
      exact absurd h (by decide)

theorem readNumber_of_isDigit {c : Char} (h : c.isDigit = true) (cs : List Char) :
    readNumber (c :: cs) = readMagnitude false (c :: cs) := by
  rw [readNumber.eq_def]
  split
  · next heq =>
    obtain ⟨rfl, -⟩ := List.cons.inj heq
    exact absurd h (by decide)
  · rfl

theorem readInteger_of_digits {c : Char} {cs rest : List Char} (hc : c ≠ '0')
    (h : digits (c :: cs ++ rest) = (c :: cs, rest)) :
    readInteger (c :: cs ++ rest) = some (Nat.ofDigitChars 10 (c :: cs) 0, rest) := by
  rw [readInteger.eq_def]
  split
  · next heq => exact absurd (List.cons.inj heq).1 hc
  · simp only [h]

/-- A decimal numeral reads as its number. -/
theorem reads_number {n : ℕ} (hn : 0 < n) :
    Reads (Nat.toDigits 10 n) (some (.number ⟨false, n, none, none⟩)) := by
  intro d rest hd
  obtain ⟨c, cs, heq, hc⟩ := toDigits_head hn
  have hdigit : ∀ x ∈ c :: cs, x.isDigit = true := by
    rw [← heq]
    exact fun x hx => Nat.isDigit_of_mem_toDigits (by decide) (by decide) hx
  have hfirst : c.isDigit = true := hdigit c List.mem_cons_self
  have hinteger : readInteger (c :: cs ++ d :: rest) = some (n, d :: rest) := by
    rw [readInteger_of_digits hc
      (digits_append hdigit (by rcases hd with rfl | rfl <;> simp)), ← heq,
      Nat.ofDigitChars_ten_toDigits]
  have hfraction : readFraction (d :: rest) = some (none, d :: rest) := by
    rcases hd with rfl | rfl <;> rfl
  have hexponent : readExponent (d :: rest) = some (none, d :: rest) := by
    rcases hd with rfl | rfl <;> rfl
  have hread : token (c :: cs ++ d :: rest) =
      some (Atom.token (.number ⟨false, n, none, none⟩), d :: rest) := by
    rw [List.cons_append, token_of_isDigit hfirst, readNumber_of_isDigit hfirst, readMagnitude,
      ← List.cons_append, hinteger]
    simp [hfraction, hexponent, Atom.token]
  have hblank : ¬ (c = ' ' ∨ c = '\t' ∨ c = '\n' ∨ c = '\r') := by
    rintro (rfl | rfl | rfl | rfl) <;> exact absurd hfirst (by decide)
  rw [heq]
  exact tokens_of_token hblank hread

/-! ## Flat objects -/

/-- What follows a member of an object as it is written: the other members, and the brace. -/
def tailText : List (List Char × List Char) → List Char
  | [] => ['}']
  | (name, text) :: ms => ',' :: quoted name ++ ':' :: (text ++ tailText ms)

/-- An object as it is written. -/
def objectText : List (List Char × List Char) → List Char
  | [] => ['{', '}']
  | (name, text) :: ms => '{' :: quoted name ++ ':' :: (text ++ tailText ms)

/-- The tokens of what follows a member. -/
def tailTokens : List (List Char × Atom) → List Token
  | [] => [.closeObject]
  | (name, a) :: ms => .comma :: .string (String.ofList name) :: .colon :: a.token :: tailTokens ms

theorem Reads.tail {text : List Char} {r : Option Atom} (h : Reads text r)
    (ms : List (List Char × List Char)) :
    tokens (text ++ tailText ms) = r.bind fun a => (tokens (tailText ms)).map (a.token :: ·) := by
  cases ms with
  | nil => exact h '}' [] (Or.inr rfl)
  | cons m ms => exact h ',' _ (Or.inl rfl)

theorem tokens_name {name : List Char} (h : PlainText name) (rest : List Char) :
    tokens (quoted name ++ ':' :: rest) =
      (tokens rest).map fun ts => .string (String.ofList name) :: .colon :: ts := by
  have hname : token ('"' :: (name ++ '"' :: ':' :: rest)) =
      some (.string (String.ofList name), ':' :: rest) := by
    rw [token]
    simp [readString_plain h]
  rw [quoted, List.cons_append, List.append_assoc]
  refine (tokens_of_token (by decide) hname).trans ?_
  rw [tokens_of_token (t := .colon) (by decide) rfl, Option.map_map]
  rfl

/-- The members that a text shows to a reader, if every value in it reads. -/
def readMembers :
    List (List Char × List Char × Option Atom) → Option (List (List Char × Atom))
  | [] => some []
  | (name, _, r) :: ms => r.bind fun a => (readMembers ms).map ((name, a) :: ·)

theorem tokens_tailText {ms : List (List Char × List Char × Option Atom)}
    (h : ∀ m ∈ ms, PlainText m.1 ∧ Reads m.2.1 m.2.2) :
    tokens (tailText (ms.map fun m => (m.1, m.2.1))) = (readMembers ms).map tailTokens := by
  induction ms with
  | nil =>
    rw [List.map_nil, tailText, tokens_of_token (t := .closeObject) (by decide) rfl, tokens]
    rfl
  | cons m ms ih =>
    obtain ⟨name, text, r⟩ := m
    rw [List.forall_mem_cons] at h
    obtain ⟨⟨hname, hreads⟩, htail⟩ := h
    rw [List.map_cons, tailText, List.cons_append,
      tokens_of_token (t := .comma) (by decide) rfl, tokens_name hname, hreads.tail, ih htail,
      readMembers]
    rcases r with _ | a
    · rfl
    · rcases readMembers ms with _ | as <;> rfl

theorem value_atom (stack : List Frame) (a : Atom) (ts : List Token) :
    value stack (a.token :: ts) = after stack a.value ts := by
  cases a <;> rw [Atom.token, value, Atom.value]

/-- The members of a flat object. -/
def members (ms : List (List Char × Atom)) : List (String × Value) :=
  ms.map fun m => (String.ofList m.1, m.2.value)

theorem after_tailTokens (ms : List (List Char × Atom)) (before : List (String × Value))
    (name : String) (v : Value) :
    after [.object before name] v (tailTokens ms) =
      some (.object (before ++ (name, v) :: members ms)) := by
  induction ms generalizing before name v with
  | nil =>
    rw [tailTokens, after, after]
    rfl
  | cons m ms ih =>
    rw [tailTokens, after, value_atom, ih, List.append_assoc]
    rfl

/-- **A flat object reads as its members**, and not at all if one of them does not. -/
theorem parse_objectText {ms : List (List Char × List Char × Option Atom)}
    (h : ∀ m ∈ ms, PlainText m.1 ∧ Reads m.2.1 m.2.2) (hne : ms ≠ []) :
    parse (objectText (ms.map fun m => (m.1, m.2.1))) =
      (readMembers ms).map fun as => .object (members as) := by
  cases ms with
  | nil => exact absurd rfl hne
  | cons m ms =>
    obtain ⟨name, text, r⟩ := m
    rw [List.forall_mem_cons] at h
    obtain ⟨⟨hname, hreads⟩, htail⟩ := h
    rw [parse, List.map_cons, objectText, List.cons_append,
      tokens_of_token (t := .openObject) (by decide) rfl, tokens_name hname, hreads.tail,
      tokens_tailText htail, readMembers]
    rcases r with _ | a
    · rfl
    rcases readMembers ms with _ | as
    · rfl
    simp only [Option.map_some, Option.bind_some, Option.bind_eq_bind]
    rw [value, value_atom, after_tailTokens]
    rfl

end Json
