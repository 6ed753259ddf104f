import ShadeVpn.Tls13.ServerFlight

/-!
# HKDF-Expand and its counter

`hkdf_expand` of `native/src/tls13.rs` against the expansion it is named after.  The
block `expandBlock i` is `T(i)`, and `expandBlocks n` is `T(1) ‖ … ‖ T(n)`.

* `hkdfExpand_eq`: the function returns the first `len` bytes of the blocks.
* `expands_iff`: the counter is incremented once more than it is used, so it leaves its
  byte in the last block that is permitted.  A build with overflow checks aborts
  there (`hkdfExpandChecked`); the build that ships wraps and returns the right bytes.
-/

namespace ShadeVpn.Tls13

open Octets Checked

variable (k : Crates) (h : HashAlg) (prk info : Bytes)

/-! ## The expansion -/

/-- `T(i)`: the HMAC of the block before, the info and the number of the block. -/
def expandBlock : ℕ → Bytes
  | 0 => []
  | i + 1 => hmacHash k h prk (expandBlock i ++ info ++ [UInt8.ofNat (i + 1)])

/-- `T(1) ‖ … ‖ T(n)`. -/
def expandBlocks : ℕ → Bytes
  | 0 => []
  | n + 1 => expandBlocks n ++ expandBlock k h prk info (n + 1)

/-- The number of blocks that hold `len` bytes. -/
def blockCount (len : ℕ) : ℕ := (len + h.len - 1) / h.len

@[simp] theorem length_expandBlocks (n : ℕ) :
    (expandBlocks k h prk info n).length = n * h.len := by
  induction n with
  | zero => simp [expandBlocks]
  | succ n ih =>
    rw [expandBlocks, List.length_append, ih, expandBlock, length_hmacHash]
    ring

theorem lt_blockCount {n len : ℕ} : n < blockCount h len ↔ n * h.len < len := by
  have hpos := h.len_pos
  rw [blockCount, ← Nat.succ_le_iff, Nat.le_div_iff_mul_le hpos, Nat.succ_mul]
  omega

theorem blockCount_le {n len : ℕ} : blockCount h len ≤ n ↔ len ≤ n * h.len := by
  rw [← not_lt, lt_blockCount, not_lt]

/-- The test of the loop: a block is missing. -/
theorem length_expandBlocks_lt {n len : ℕ} :
    (expandBlocks k h prk info n).length < len ↔ n < blockCount h len := by
  rw [length_expandBlocks, lt_blockCount]

/-- The number of the next block. -/
theorem ofNat_succ_add_one (n : ℕ) : UInt8.ofNat (n + 1) + 1 = UInt8.ofNat (n + 1 + 1) := by
  rw [UInt8.ofNat_add (n + 1) 1]
  rfl

/-! ## The loop that ships -/

variable {k h prk info}

/-- **The loop appends block after block**: behind `n` of them it holds the blocks so
far, the last one and the number of the next. -/
theorem hkdfExpandLoop_eq {len n d : ℕ} (hd : n + d = blockCount h len) :
    hkdfExpandLoop k h prk info len (expandBlocks k h prk info n) (expandBlock k h prk info n)
      (UInt8.ofNat (n + 1)) = expandBlocks k h prk info (blockCount h len) := by
  induction d generalizing n with
  | zero =>
    have hdone : ¬ (expandBlocks k h prk info n).length < len := by
      rw [length_expandBlocks_lt]
      omega
    rw [hkdfExpandLoop, if_neg hdone, ← hd, Nat.add_zero]
  | succ d ih =>
    have hmore : (expandBlocks k h prk info n).length < len := by
      rw [length_expandBlocks_lt]
      omega
    have hrest : n + 1 + d = blockCount h len := by omega
    rw [hkdfExpandLoop, if_pos hmore, ofNat_succ_add_one]
    exact ih hrest

/-- **`hkdf_expand` returns the first `len` bytes of `T(1) ‖ T(2) ‖ …`**. -/
theorem hkdfExpand_eq (len : ℕ) : hkdfExpand k h prk info len =
    (expandBlocks k h prk info (blockCount h len)).take len :=
  congrArg (List.take len) (hkdfExpandLoop_eq (Nat.zero_add _))

/-! ## The loop with overflow checks -/

variable (k h prk info)

/-- The loop of `hkdf_expand` in a build that checks `counter += 1`. -/
def hkdfExpandCheckedLoop (len : ℕ) (okm t : Bytes) (counter : UInt8) :
    Except (Stop Tls13Error) Bytes :=
  if okm.length < len then
    let t := hmacHash k h prk (t ++ info ++ [counter])
    if counter.toNat + 1 < 256 then hkdfExpandCheckedLoop len (okm ++ t) t (counter + 1)
    else .error .addOverflow
  else .ok okm
termination_by len - okm.length
decreasing_by
  rw [List.length_append, length_hmacHash]
  have := h.len_pos
  omega

/-- `hkdf_expand` in a build with overflow checks. -/
def hkdfExpandChecked (len : ℕ) : Except (Stop Tls13Error) Bytes :=
  (hkdfExpandCheckedLoop k h prk info len [] [] 1).map (List.take len)

variable {k h prk info}

/-- The checked loop ends as the other one does, or in an overflow behind block 255. -/
theorem hkdfExpandCheckedLoop_eq {len n d : ℕ} (hd : n + d = blockCount h len) (hn : n ≤ 254) :
    hkdfExpandCheckedLoop k h prk info len (expandBlocks k h prk info n)
        (expandBlock k h prk info n) (UInt8.ofNat (n + 1)) =
      if blockCount h len ≤ 254 then .ok (expandBlocks k h prk info (blockCount h len))
      else .error .addOverflow := by
  induction d generalizing n with
  | zero =>
    have hdone : ¬ (expandBlocks k h prk info n).length < len := by
      rw [length_expandBlocks_lt]
      omega
    rw [hkdfExpandCheckedLoop, if_neg hdone, if_pos (by omega), ← hd, Nat.add_zero]
  | succ d ih =>
    have hmore : (expandBlocks k h prk info n).length < len := by
      rw [length_expandBlocks_lt]
      omega
    have hrest : n + 1 + d = blockCount h len := by omega
    have hvalue : (UInt8.ofNat (n + 1)).toNat = n + 1 := by
      rw [UInt8.toNat_ofNat']
      omega
    rw [hkdfExpandCheckedLoop, if_pos hmore, hvalue]
    by_cases hlast : n = 254
    · rw [if_neg (by omega), if_neg (by omega)]
    · have hnext : n + 1 ≤ 254 := by omega
      rw [if_pos (by omega), ofNat_succ_add_one]
      exact ih hrest hnext

theorem hkdfExpandChecked_eq (len : ℕ) : hkdfExpandChecked k h prk info len =
    if len ≤ 254 * h.len then .ok (hkdfExpand k h prk info len) else .error .addOverflow := by
  have hloop := @hkdfExpandCheckedLoop_eq k h prk info len 0 _ (Nat.zero_add _) (by omega)
  have hrun : hkdfExpandChecked k h prk info len = Except.map (List.take len) _ :=
    congrArg (Except.map (List.take len)) hloop
  rw [hrun, hkdfExpand_eq]
  simp only [blockCount_le]
  split_ifs <;> rfl

/-! ## Both -/

variable (k h prk info)

/-- `hkdf_expand` is HKDF-Expand, and its counter stays a byte: a build that checks it
returns the same. -/
def Expands (len : ℕ) : Prop :=
  hkdfExpand k h prk info len = (expandBlocks k h prk info (blockCount h len)).take len ∧
    hkdfExpandChecked k h prk info len = .ok (hkdfExpand k h prk info len)

variable {k h prk info}

theorem expands_of_le {len : ℕ} (hlen : len ≤ 254 * h.len) : Expands k h prk info len :=
  ⟨hkdfExpand_eq len, by rw [hkdfExpandChecked_eq, if_pos hlen]⟩

theorem not_expands_of_lt {len : ℕ} (hlen : 254 * h.len < len) : ¬ Expands k h prk info len := by
  rintro ⟨-, hchecked⟩
  rw [hkdfExpandChecked_eq, if_neg (not_le.2 hlen)] at hchecked
  cases hchecked

/-- The lengths of the key schedule, a hash or a key, are far from the last block. -/
theorem expands_schedule (suite : CipherSuite) {len : ℕ}
    (hlen : len ∈ [suite.hash.len, suite.keyLen, IV_LEN]) :
    Expands k suite.hash prk info len := by
  refine expands_of_le ?_
  revert len
  cases suite <;> decide

/-- **`hkdf_expand` is HKDF-Expand and its counter stays a byte exactly up to 254 blocks**,
one short of the 255 that are permitted. -/
theorem expands_iff (k : Crates) (h : HashAlg) (prk info : Bytes) (len : ℕ) :
    Expands k h prk info len ↔ len ≤ 254 * h.len := by
  constructor
  · intro hexpands
    by_contra hlast
    exact not_expands_of_lt (not_le.1 hlast) hexpands
  · exact expands_of_le

/-- 255 blocks of SHA-256, the longest output there is. -/
theorem not_expands : ¬ ∀ (h : HashAlg) (prk info : Bytes) (len : ℕ), len ≤ 255 * h.len →
    Expands sampleCrates h prk info len :=
  fun hall => @not_expands_of_lt sampleCrates .s256 [] [] 8160 (by decide)
    (hall .s256 [] [] 8160 (by decide))

end ShadeVpn.Tls13
