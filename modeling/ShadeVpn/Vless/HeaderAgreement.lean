import ShadeVpn.Vless.Header

/-!
# When the two request header readers agree

The honest server splits a stream with `request_header_len` and then parses the
slice it got.  That is sound for an input on which the length reader does not
overflow, stays inside the input, and cuts off a slice the parser reads as it
reads the whole input (`ReadersAgree`).

It fails for three kinds of input: an addons length that carries the position
past `usize::MAX` (`LengthOverflows`), an address that the end of the input cuts
off (`AddressTruncated`), and a Mux header of only twenty bytes, one less than
the parser's minimum, with bytes behind it (`MinimalMux`).
`readersAgree_iff` shows that there is no other kind, in builds with overflow checks
and in builds without, where a sixth group of the addons length is shifted by the
masked distance on a 32-bit target.
-/

namespace ShadeVpn.Vless

open Octets Checked

/-- What a caller of the two readers relies on. -/
def ReadersAgree (b : Build) (t : Target) (w : Bytes) : Prop :=
  b.requestHeaderLen t w ≠ .error .addOverflow ∧
  (∀ n, b.requestHeaderLen t w = .ok n → n ≤ w.length) ∧
  ∀ r, b.parseRequestHeader t w = .ok r →
    ∃ n, b.requestHeaderLen t w = .ok n ∧ b.parseRequestHeader t (w.take n) = .ok r

/-! ## The three kinds of input on which they disagree -/

/-- The addons length prefix of an input that has one: its value and its size. -/
def addonsPrefix (b : Build) (t : Target) (w : Bytes) : Option (ℕ × ℕ) :=
  if w.length < 18 ∨ w.getD 17 0 ≠ 0x0a then none
  else (b.decodeVarint t (w.drop 18)).toOption

/-- The addons length carries the position past `usize::MAX`. -/
def LengthOverflows (b : Build) (t : Target) (w : Bytes) : Prop :=
  ∃ v c, addonsPrefix b t w = some (v, c) ∧ 2 ^ t.bits ≤ 18 + (c + v)

/-- A typed address of which the input has the type byte, and the length byte of
a domain, but not all the bytes. -/
def CutShort : Bytes → Prop
  | [] => False
  | atyp :: rest =>
    (atyp = ATYP_IPV4 ∧ rest.length < 4) ∨ (atyp = ATYP_IPV6 ∧ rest.length < 16) ∨
    (atyp = ATYP_DOMAIN ∧ ∃ len body, rest = len :: body ∧ body.length < len.toNat)

/-- The input ends inside the address of a header that has one. -/
def AddressTruncated (b : Build) (t : Target) (w : Bytes) : Prop :=
  ∃ v c command rest, addonsPrefix b t w = some (v, c) ∧
    w.drop (18 + (c + v)) = command :: rest ∧ command ≠ CMD_MUX ∧ 2 ≤ rest.length ∧
    CutShort (rest.drop 2)

/-- A Mux header with an empty addons block, with bytes behind it. -/
def MinimalMux (w : Bytes) : Prop :=
  ∃ (uuid : Uuid) (b : UInt8) (rest : Bytes),
    w = VERSION :: (uuid.toList ++ 0x0a :: 0x00 :: CMD_MUX :: b :: rest)

/-! ## The address and what follows the addons -/

theorem parseAddress_ok {addr : Bytes} {a : Address} (h : parseAddress addr = .ok a) :
    ∃ n, addressSpan addr = some n ∧ n ≤ addr.length ∧
      ∀ q, parseAddress (addr.take n ++ q) = .ok a := by
  cases addr with
  | nil => cases h
  | cons atyp rest =>
    rw [parseAddress.eq_def] at h
    dsimp only at h
    split_ifs at h with h4 hlen4 h6 hlen6 hd
    · -- IPv4
      cases h
      refine ⟨5, by simp [addressSpan, h4], by simp only [List.length_cons]; omega, fun q => ?_⟩
      have hlong : ¬ (rest.take 4 ++ q).length < 4 := by
        simp only [List.length_append, List.length_take]; omega
      rw [List.take_succ_cons, List.cons_append, parseAddress.eq_def]
      simp only [if_pos h4, if_neg hlong, copyFrom_take_append (not_lt.1 hlen4)]
    · -- IPv6
      cases h
      refine ⟨17, by simp [addressSpan, h6, ATYP_IPV4, ATYP_IPV6],
        by simp only [List.length_cons]; omega, fun q => ?_⟩
      have hlong : ¬ (rest.take 16 ++ q).length < 16 := by
        simp only [List.length_append, List.length_take]; omega
      rw [List.take_succ_cons, List.cons_append, parseAddress.eq_def]
      simp only [if_neg h4, if_pos h6, if_neg hlong, copyFrom_take_append (not_lt.1 hlen6)]
    · -- domain
      cases rest with
      | nil => cases h
      | cons len body =>
        simp only at h
        split_ifs at h with hbody
        refine ⟨2 + len.toNat, by simp [addressSpan, hd, ATYP_IPV4, ATYP_IPV6, ATYP_DOMAIN],
          by simp only [List.length_cons]; omega, fun q => ?_⟩
        have htake : (body.take len.toNat ++ q).take len.toNat = body.take len.toNat :=
          List.take_left' (by simp; omega)
        have hcut : (atyp :: len :: body).take (2 + len.toNat)
            = atyp :: len :: body.take len.toNat := by
          rw [Nat.add_comm, List.take_succ_cons, List.take_succ_cons]
        have hlong : ¬ (body.take len.toNat ++ q).length < len.toNat := by
          simp only [List.length_append, List.length_take]; omega
        rw [hcut, List.cons_append, List.cons_append, parseAddress, if_neg h4, if_neg h6,
          if_pos hd]
        simp only [hlong, if_false, htake]
        exact h

theorem parseDestination_ok {tail : Bytes} {r : UInt8 × Address × UInt16}
    (h : parseDestination tail = .ok r) :
    ∃ n, destinationSpan tail = some n ∧ n ≤ tail.length ∧
      ∀ q, parseDestination (tail.take n ++ q) = .ok r := by
  cases tail with
  | nil => cases h
  | cons command rest =>
    rw [parseDestination] at h
    split_ifs at h with hmux hshort
    · exact ⟨1, by simp [destinationSpan, hmux], by simp, fun q => by
        simpa [parseDestination, hmux] using h⟩
    · cases haddr : parseAddress (rest.drop 2) with
      | error e => rw [haddr] at h; cases h
      | ok address =>
        rw [haddr] at h
        obtain ⟨n, hspan, hle, hcut⟩ := parseAddress_ok haddr
        rw [List.length_drop] at hle
        refine ⟨3 + n, by simp [destinationSpan, hmux, hshort, hspan],
          by simp only [List.length_cons]; omega, fun q => ?_⟩
        have hsplit : (command :: rest).take (3 + n) ++ q
            = command :: (rest.take 2 ++ ((rest.drop 2).take n ++ q)) := by
          have : rest.take (2 + n) = rest.take 2 ++ (rest.drop 2).take n := by
            rw [List.take_add]
          rw [show 3 + n = (2 + n) + 1 from by ring, List.take_succ_cons, this]
          simp
        have hlong : ¬ (rest.take 2 ++ ((rest.drop 2).take n ++ q)).length < 2 := by
          simp only [List.length_append, List.length_take]; omega
        have htwo : (rest.take 2).length = 2 := by rw [List.length_take]; omega
        rw [hsplit, parseDestination, if_neg hmux, if_neg hlong, List.drop_left' htwo,
          List.take_left' htwo, hcut q]
        exact h

theorem cutShort_iff (addr : Bytes) :
    CutShort addr ↔ ∃ n, addressSpan addr = some n ∧ addr.length < n := by
  cases addr with
  | nil => simp [CutShort, addressSpan]
  | cons atyp rest =>
    by_cases h4 : atyp = ATYP_IPV4
    · simp [CutShort, addressSpan, h4, ATYP_IPV4, ATYP_IPV6, ATYP_DOMAIN]
      omega
    · by_cases h6 : atyp = ATYP_IPV6
      · simp [CutShort, addressSpan, h6, ATYP_IPV4, ATYP_IPV6, ATYP_DOMAIN]
        omega
      · by_cases hd : atyp = ATYP_DOMAIN
        · cases rest with
          | nil => simp [CutShort, addressSpan, hd, ATYP_IPV4, ATYP_IPV6, ATYP_DOMAIN]
          | cons len body =>
            simp [CutShort, addressSpan, hd, ATYP_IPV4, ATYP_IPV6, ATYP_DOMAIN]
            omega
        · simp [CutShort, addressSpan, h4, h6, hd]

/-- The length reader passes the end of the input exactly on a truncated address. -/
theorem lt_destinationSpan_iff (tail : Bytes) :
    (∃ n, destinationSpan tail = some n ∧ tail.length < n) ↔
      ∃ command rest, tail = command :: rest ∧ command ≠ CMD_MUX ∧ 2 ≤ rest.length ∧
        CutShort (rest.drop 2) := by
  cases tail with
  | nil => simp [destinationSpan]
  | cons command rest =>
    by_cases hmux : command = CMD_MUX
    · simp [destinationSpan, hmux]
    · by_cases hshort : rest.length < 2
      · have : ¬ 2 ≤ rest.length := by omega
        simp [destinationSpan, hmux, hshort, this]
      · have h2 : 2 ≤ rest.length := by omega
        simp only [destinationSpan, hmux, hshort, if_false, List.cons.injEq, cutShort_iff,
          Option.map_eq_some_iff, List.length_cons, List.length_drop]
        constructor
        · rintro ⟨_, ⟨n, hn, rfl⟩, hlt⟩
          exact ⟨command, rest, ⟨rfl, rfl⟩, hmux, h2, n, hn, by omega⟩
        · rintro ⟨_, _, ⟨rfl, rfl⟩, -, -, n, hn, hlt⟩
          exact ⟨3 + n, ⟨n, hn, rfl⟩, by omega⟩

theorem destinationSpan_pos {tail : Bytes} {n : ℕ} (h : destinationSpan tail = some n) :
    1 ≤ n := by
  cases tail with
  | nil => cases h
  | cons command rest =>
    rw [destinationSpan] at h
    split_ifs at h
    · cases h; omega
    · obtain ⟨m, -, rfl⟩ := Option.map_eq_some_iff.1 h
      omega

/-- Only a Mux command ends the header right after the command byte. -/
theorem destinationSpan_one {tail : Bytes} (h : destinationSpan tail = some 1) :
    ∃ rest, tail = CMD_MUX :: rest := by
  cases tail with
  | nil => cases h
  | cons command rest =>
    rw [destinationSpan] at h
    split_ifs at h with hmux
    · exact ⟨rest, by rw [hmux]⟩
    · obtain ⟨m, -, hm⟩ := Option.map_eq_some_iff.1 h
      omega

/-! ## The addons prefix -/

/-- The varint decoder has no addition to overflow. -/
theorem decodeVarintLoop_ne_addOverflow {b : Build} {t : Target} :
    ∀ {wire : Bytes} {i value shift : ℕ},
      decodeVarintLoop (b.shl t) wire i value shift ≠ .error .addOverflow := by
  intro wire
  induction wire with
  | nil => intro i value shift h; cases h
  | cons x wire ih =>
    intro i value shift h
    rw [decodeVarintLoop] at h
    split at h
    · cases h
    · split at h
      · rename_i e he
        cases b with
        | checked =>
          rw [Build.shl, shl] at he
          split at he
          · cases he
          · cases he; cases h
        | unchecked => cases he
      · split at h
        · cases h
        · exact ih h

/-- An input with an addons prefix, cut after it. -/
theorem addonsPrefix_parts {b : Build} {t : Target} {w : Bytes} {v c : ℕ}
    (h : addonsPrefix b t w = some (v, c)) :
    ∃ v0 uuid used rest, w = headerPrefix v0 uuid used [] ++ rest ∧ used ≠ [] ∧
      c = used.length ∧ v < 2 ^ t.bits ∧
      ∀ r, b.decodeVarint t (used ++ r) = .ok (v, used.length) := by
  rw [addonsPrefix] at h
  split_ifs at h with hshort
  push Not at hshort
  cases hdec : b.decodeVarint t (w.drop 18) with
  | error e => rw [hdec] at h; cases h
  | ok p =>
    rw [hdec] at h
    cases h
    obtain ⟨used, rest, hw, hne, rfl, hv, hloc⟩ := Build.decodeVarint_local hdec
    obtain ⟨v0, w', rfl⟩ : ∃ v0 w', w = v0 :: w' := by
      cases w with
      | nil => simp at hshort
      | cons v0 w' => exact ⟨v0, w', rfl⟩
    refine ⟨v0, copyFrom 16 w', used, rest, ?_, hne, rfl, hv, hloc⟩
    have hlen : 17 ≤ w'.length := by simpa using hshort.1
    have htag : w'[16] = 0x0a := by
      have := hshort.2
      rwa [List.getD_cons_succ, List.getD_eq_getElem _ _ hlen] at this
    have hsplit : w' = w'.take 16 ++ w'[16] :: w'.drop 17 := by
      rw [← List.drop_eq_getElem_cons, List.take_append_drop]
    rw [List.drop_succ_cons] at hw
    rw [headerPrefix, toList_copyFrom (by omega), List.append_nil, List.cons_append,
      List.append_assoc, List.cons_append, ← hw, ← htag, ← hsplit]

/-- The prefix is found on any input of that shape. -/
theorem addonsPrefix_headerPrefix {b : Build} {t : Target} {v0 : UInt8} {uuid : Uuid}
    {used rest : Bytes} {v : ℕ} (hdec : ∀ r, b.decodeVarint t (used ++ r) = .ok (v, used.length)) :
    addonsPrefix b t (headerPrefix v0 uuid used [] ++ rest) = some (v, used.length) := by
  have hlen : ¬ ((headerPrefix v0 uuid used [] ++ rest).length < 18 ∨
      (headerPrefix v0 uuid used [] ++ rest).getD 17 0 ≠ 0x0a) := by
    refine not_or.2 ⟨?_, not_not.2 headerPrefix_getD_tag⟩
    simp only [List.length_append, length_headerPrefix]
    omega
  rw [addonsPrefix, if_neg hlen, headerPrefix_drop_tag, List.nil_append, hdec]
  rfl

/-- Without an addons prefix neither reader gets past it. -/
theorem readers_of_addonsPrefix_none {b : Build} {t : Target} {w : Bytes}
    (h : addonsPrefix b t w = none) :
    b.requestHeaderLen t w ≠ .error .addOverflow ∧ (∀ n, b.requestHeaderLen t w ≠ .ok n) ∧
      ∀ r, b.parseRequestHeader t w ≠ .ok r := by
  rw [addonsPrefix] at h
  by_cases h18 : w.length < 18
  · simp [Build.requestHeaderLen, Build.parseRequestHeader, h18, show w.length < 21 by omega]
  · by_cases htag : w.getD 17 0 = 0x0a
    · rw [if_neg (by simp only [htag]; simpa using h18)] at h
      cases hdec : b.decodeVarint t (w.drop 18) with
      | ok p => rw [hdec] at h; cases h
      | error e =>
        have hne : e ≠ .addOverflow := fun he =>
          decodeVarintLoop_ne_addOverflow (b := b) (hdec.trans (by rw [he]))
        have hlen : b.requestHeaderLen t w = .error e := by
          rw [Build.requestHeaderLen, if_neg h18, htag, if_neg (by simp), hdec]
          rfl
        refine ⟨by simpa [hlen] using hne, by simp [hlen], fun r hr => ?_⟩
        rw [Build.parseRequestHeader, htag, hdec] at hr
        split_ifs at hr
    · have hlen : b.requestHeaderLen t w = .error (.err .layout) := by
        rw [Build.requestHeaderLen, if_neg h18, if_pos htag]
      refine ⟨by simp [hlen], by simp [hlen], fun r hr => ?_⟩
      rw [Build.parseRequestHeader, if_pos htag] at hr
      split_ifs at hr

/-- What the readers make of a minimal Mux header: the parser accepts the whole
input, the length reader stops after twenty bytes. -/
theorem readers_of_minimalMux (b : Build) (t : Target) {w : Bytes} (h : MinimalMux w) :
    (∃ r, b.parseRequestHeader t w = .ok r) ∧ b.requestHeaderLen t w = .ok 20 ∧
      addonsPrefix b t w = some (0, 1) := by
  obtain ⟨uuid, x, rest, rfl⟩ := h
  have hdec : ∀ r, b.decodeVarint t ([0x00] ++ r) = .ok (0, 1) :=
    fun r => b.decodeVarint_singleton t 0x00 r (by decide)
  have hw : VERSION :: (uuid.toList ++ 0x0a :: 0x00 :: CMD_MUX :: x :: rest)
      = headerPrefix VERSION uuid [0x00] [] ++ CMD_MUX :: x :: rest := by simp [headerPrefix]
  have hparse : b.parseRequestHeader t (headerPrefix VERSION uuid [0x00] [] ++ CMD_MUX :: x :: rest)
      = readParts uuid [] (CMD_MUX :: x :: rest) :=
    Build.parseRequestHeader_parts hdec (t.lt_of_lt_32 (by simp)) (by simp; omega)
  have hlen : b.requestHeaderLen t (headerPrefix VERSION uuid [0x00] [] ++ CMD_MUX :: x :: rest)
      = .ok 20 := Build.requestHeaderLen_parts hdec (t.lt_of_lt_32 (by simp))
  have hpre : addonsPrefix b t (headerPrefix VERSION uuid [0x00] [] ++ CMD_MUX :: x :: rest)
      = some (0, 1) := addonsPrefix_headerPrefix hdec
  rw [hw]
  exact ⟨⟨_, hparse⟩, hlen, hpre⟩

/-! ## The exact condition -/

section Parts

variable {b : Build} {t : Target} {v0 : UInt8} {uuid : Uuid} {used rest : Bytes} {v : ℕ}

/-- An addons length past `usize::MAX` overflows one of the two additions. -/
theorem requestHeaderLen_overflow
    (hdec : ∀ r, b.decodeVarint t (used ++ r) = .ok (v, used.length))
    (hover : 2 ^ t.bits ≤ 18 + (used.length + v)) :
    b.requestHeaderLen t (headerPrefix v0 uuid used [] ++ rest) = .error .addOverflow := by
  have hlen : ¬ (headerPrefix v0 uuid used [] ++ rest).length < 1 + 16 + 1 := by
    simp only [List.length_append, length_headerPrefix]; omega
  rw [Build.requestHeaderLen, if_neg hlen, headerPrefix_getD_tag, if_neg (by simp),
    headerPrefix_drop_tag, List.nil_append, hdec]
  simp only [bind, Except.bind]
  by_cases h1 : 2 ^ t.bits ≤ used.length + v
  · rw [add_eq_overflow h1]
  · rw [add_eq_ok (by omega)]
    simp only
    rw [add_eq_overflow hover]

/-- An addons block that reaches the end of the input leaves no command byte. -/
theorem readers_of_short (hfit : 18 + (used.length + v) < 2 ^ t.bits)
    (hdec : ∀ r, b.decodeVarint t (used ++ r) = .ok (v, used.length)) (hshort : rest.length ≤ v) :
    b.requestHeaderLen t (headerPrefix v0 uuid used [] ++ rest) = .error (.err .layout) ∧
      ∀ r, b.parseRequestHeader t (headerPrefix v0 uuid used [] ++ rest) ≠ .ok r := by
  have hlen : ¬ (headerPrefix v0 uuid used [] ++ rest).length < 1 + 16 + 1 := by
    simp only [List.length_append, length_headerPrefix]; omega
  have hend : (headerPrefix v0 uuid used [] ++ rest).length ≤ 18 + (used.length + v) := by
    simp only [List.length_append, length_headerPrefix, List.length_nil]; omega
  constructor
  · rw [Build.requestHeaderLen, if_neg hlen, headerPrefix_getD_tag, if_neg (by simp),
      headerPrefix_drop_tag, List.nil_append, hdec]
    simp only [bind, Except.bind]
    rw [add_eq_ok (by omega)]
    simp only
    rw [add_eq_ok (by omega)]
    simp only
    rw [requestDestinationEnd, if_pos hend]
  · intro r hr
    rw [Build.parseRequestHeader, headerPrefix_getD_tag, headerPrefix_drop_tag, List.nil_append,
      hdec] at hr
    have hdrop : (headerPrefix v0 uuid used [] ++ rest).drop (18 + used.length + v) = [] :=
      List.drop_eq_nil_of_le (by omega)
    simp only [hdrop, parseDestination] at hr
    split_ifs at hr
    split at hr <;> cases hr

/-- The whole address is there exactly when the length reader stays inside the input. -/
theorem readersAgree_parts {sub tail : Bytes} (hne : used ≠ [])
    (hdec : ∀ r, b.decodeVarint t (used ++ r) = .ok (sub.length, used.length))
    (hfit : 18 + (used.length + sub.length) + 260 < 2 ^ t.bits) :
    ReadersAgree b t (headerPrefix v0 uuid used sub ++ tail) ↔
      (¬ ∃ n, destinationSpan tail = some n ∧ tail.length < n) ∧
        ¬ MinimalMux (headerPrefix v0 uuid used sub ++ tail) := by
  have hlen : b.requestHeaderLen t (headerPrefix v0 uuid used sub ++ tail)
      = endAt (18 + (used.length + sub.length)) (destinationSpan tail) :=
    Build.requestHeaderLen_parts hdec hfit
  have hused : 1 ≤ used.length := List.length_pos_iff.2 hne
  constructor
  · rintro ⟨-, hbound, hparse⟩
    constructor
    · rintro ⟨n, hspan, hlt⟩
      rw [hspan] at hlen
      have := hbound _ hlen
      simp only [List.length_append, length_headerPrefix] at this
      omega
    · intro hmin
      -- the parser reads the whole input and refuses the twenty bytes of the header
      obtain ⟨⟨r, hr⟩, h20, -⟩ := readers_of_minimalMux b t hmin
      obtain ⟨n, hn, hcut⟩ := hparse r hr
      rw [h20] at hn
      cases hn
      rw [Build.parseRequestHeader, if_pos (by simp)] at hcut
      cases hcut
  · rintro ⟨htrunc, hmin⟩
    have hle : ∀ n, destinationSpan tail = some n → n ≤ tail.length := fun n hn =>
      not_lt.1 fun hlt => htrunc ⟨n, hn, hlt⟩
    refine ⟨?_, ?_, ?_⟩
    · rw [hlen]
      cases destinationSpan tail <;> simp [endAt]
    · intro n hn
      rw [hlen] at hn
      cases hspan : destinationSpan tail with
      | none => rw [hspan] at hn; cases hn
      | some m =>
        rw [hspan] at hn
        cases hn
        have := hle m hspan
        simp only [List.length_append, length_headerPrefix]
        omega
    · intro r hr
      obtain ⟨rfl, h21⟩ : v0 = VERSION ∧
          21 ≤ (headerPrefix v0 uuid used sub ++ tail).length := by
        rw [Build.parseRequestHeader, headerPrefix_getD_zero] at hr
        split_ifs at hr with h1 h2
        exact ⟨not_not.1 h2, by omega⟩
      simp only [List.length_append, length_headerPrefix] at h21
      rw [Build.parseRequestHeader_parts hdec (by omega) h21, readParts] at hr
      cases hflow : parseFlow sub with
      | error e => rw [hflow] at hr; cases hr
      | ok flow =>
        cases hdest : parseDestination tail with
        | error e => rw [hflow, hdest] at hr; cases hr
        | ok d =>
          obtain ⟨n, hspan, hn, hcut⟩ := parseDestination_ok hdest
          rw [hspan] at hlen
          refine ⟨_, hlen, ?_⟩
          have htake : (headerPrefix VERSION uuid used sub ++ tail).take
              (18 + (used.length + sub.length) + n)
                = headerPrefix VERSION uuid used sub ++ tail.take n := by
            rw [List.take_append, length_headerPrefix, Nat.add_sub_cancel_left,
              List.take_of_length_le (by rw [length_headerPrefix]; omega)]
          have h20 : 21 ≤ 18 + (used.length + sub.length) + (tail.take n).length := by
            by_contra hshort
            have hn1 := destinationSpan_pos hspan
            rw [List.length_take, Nat.min_eq_left hn] at hshort
            obtain rfl : n = 1 := by omega
            obtain ⟨b0, rfl⟩ := List.length_eq_one_iff.1 (show used.length = 1 by omega)
            obtain rfl := List.eq_nil_of_length_eq_zero (show sub.length = 0 by omega)
            obtain ⟨rest', rfl⟩ := destinationSpan_one hspan
            obtain rfl : b0 = 0 := Build.eq_zero_of_decodeVarint (by simpa using hdec [])
            cases rest' with
            | nil => simp at h21
            | cons b rest' => exact hmin ⟨uuid, b, rest', by simp [headerPrefix]⟩
          have hcut' := hcut []
          rw [List.append_nil] at hcut'
          rw [htake, Build.parseRequestHeader_parts hdec (by omega) h20, readParts, hflow, hcut']
          rw [hflow, hdest] at hr
          exact hr

end Parts

/-- **The exact condition for the two readers to agree.**  A slice of the
language has fewer than `2 ^ (bits - 1)` bytes. -/
theorem readersAgree_iff (b : Build) (t : Target) (w : Bytes) (hw : w.length < 2 ^ (t.bits - 1)) :
    ReadersAgree b t w ↔ ¬ LengthOverflows b t w ∧ ¬ AddressTruncated b t w ∧ ¬ MinimalMux w := by
  cases hpre : addonsPrefix b t w with
  | none =>
    obtain ⟨hover, hlen, hparse⟩ := readers_of_addonsPrefix_none hpre
    have hlong : ¬ LengthOverflows b t w := by
      rintro ⟨v, c, h, -⟩
      simp [hpre] at h
    have htrunc : ¬ AddressTruncated b t w := by
      rintro ⟨v, c, command, rest, h, -⟩
      simp [hpre] at h
    have hmin : ¬ MinimalMux w := by
      intro hmin
      have h := (readers_of_minimalMux b t hmin).2.2
      simp [hpre] at h
    exact iff_of_true ⟨hover, fun n h => absurd h (hlen n), fun r h => absurd h (hparse r)⟩
      ⟨hlong, htrunc, hmin⟩
  | some p =>
    obtain ⟨v, c⟩ := p
    obtain ⟨v0, uuid, used, rest, rfl, hne, rfl, hv, hdec⟩ := addonsPrefix_parts hpre
    have hlong : LengthOverflows b t (headerPrefix v0 uuid used [] ++ rest) ↔
        2 ^ t.bits ≤ 18 + (used.length + v) := by
      simp [LengthOverflows, hpre]
    have hdrop : (headerPrefix v0 uuid used [] ++ rest).drop (18 + (used.length + v))
        = rest.drop v := by
      rw [← Nat.add_assoc, ← List.drop_drop]
      congr 1
      exact List.drop_left' (by simp)
    have htrunc : AddressTruncated b t (headerPrefix v0 uuid used [] ++ rest) ↔
        ∃ n, destinationSpan (rest.drop v) = some n ∧ (rest.drop v).length < n := by
      rw [lt_destinationSpan_iff]
      simp [AddressTruncated, hpre, hdrop]
    rw [hlong, htrunc]
    by_cases hover : 2 ^ t.bits ≤ 18 + (used.length + v)
    · exact iff_of_false (fun h => h.1 (requestHeaderLen_overflow hdec hover))
        (fun h => h.1 hover)
    · by_cases hshort : rest.length ≤ v
      · -- no command byte: both readers refuse
        obtain ⟨hlen, hparse⟩ := @readers_of_short b t v0 uuid used rest v (by omega) hdec hshort
        have hnil : rest.drop v = [] := List.drop_eq_nil_of_le hshort
        refine iff_of_true ⟨by simp [hlen], by simp [hlen], fun r h => absurd h (hparse r)⟩
          ⟨hover, by simp [hnil, destinationSpan], ?_⟩
        intro hmin
        obtain ⟨⟨r, hr⟩, -⟩ := readers_of_minimalMux b t hmin
        exact hparse r hr
      · -- the addons end inside the input
        have hcut : headerPrefix v0 uuid used [] ++ rest
            = headerPrefix v0 uuid used (rest.take v) ++ rest.drop v := by
          simp [headerPrefix]
        have hsub : (rest.take v).length = v := by rw [List.length_take]; omega
        have hhalf : 2 ^ t.bits = 2 * 2 ^ (t.bits - 1) := by
          rw [← pow_succ', Nat.sub_add_cancel (le_trans (by decide) t.le_bits)]
        have h31 : 2 ^ 31 ≤ 2 ^ (t.bits - 1) :=
          Nat.pow_le_pow_right (by decide) (Nat.le_sub_of_add_le t.le_bits)
        simp only [List.length_append, length_headerPrefix, List.length_nil] at hw
        rw [hcut, readersAgree_parts hne (by rwa [hsub]) (by rw [hsub]; omega)]
        simp [hover]

/-- A TCP header that ends right after the IPv4 type byte. -/
def truncatedIpv4 : Bytes :=
  VERSION :: (List.replicate 16 0 ++ [0x0a, 0x01, 0x00, CMD_TCP, 0x01, 0xbb, ATYP_IPV4])

/-- The length reader cuts past the end of a truncated header. -/
theorem not_readersAgree_truncatedIpv4 : ¬ ReadersAgree .unchecked .aarch64 truncatedIpv4 := by
  rintro ⟨-, hbound, -⟩
  have hlen : Build.unchecked.requestHeaderLen .aarch64 truncatedIpv4 = .ok 28 := by decide
  exact absurd (hbound 28 hlen) (by decide)

theorem readersAgree_iff_truncatedIpv4 :
    ReadersAgree .unchecked .armv7 truncatedIpv4 ↔
      ¬ LengthOverflows .unchecked .armv7 truncatedIpv4 ∧
      ¬ AddressTruncated .unchecked .armv7 truncatedIpv4 ∧ ¬ MinimalMux truncatedIpv4 :=
  readersAgree_iff .unchecked .armv7 truncatedIpv4 (by decide)

/-- An addons length of six groups: a checked 32-bit build stops at the sixth, an unchecked
one reads on and counts an address that is not there. -/
def sixGroups : Bytes :=
  VERSION :: (List.replicate 16 0 ++ [0x0a, 0x80, 0x80, 0x80, 0x80, 0x80, 0x00, CMD_TCP, 0x01, 0xbb,
    ATYP_IPV4])

example : Build.checked.requestHeaderLen .armv7 sixGroups = .error .shlOverflow ∧
    Build.unchecked.requestHeaderLen .armv7 sixGroups = .ok 32 := by decide

end ShadeVpn.Vless
