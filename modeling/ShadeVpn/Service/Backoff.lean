import ShadeVpn.Lib.Machine
import ShadeVpn.Service.VpnService

/-!
# The schedule of the backoff

`BackoffPolicy.kt` over runs of `nextDelayMs` and `reset`.  The factor that the generator
draws is a rational number in `[0, 1)`.

* `schedule` is the bound of the n-th delay in exact integers.
* `onSchedule_iff`: a run keeps to it exactly if the product of the base and the power
  of two, which is taken in a `Long`, stays in range wherever it is used.
* `onSchedule_default`: the policy of the service always does.
-/

namespace ShadeVpn.Service

/-- A value of `Random.nextDouble`. -/
abbrev Factor := Set.Ico (0 : ℚ) 1

/-- `(random.nextDouble() * capped).toLong()`. -/
def drawn (factor : Factor) (bound : Int64) : Int64 := Int64.ofInt ⌊factor.1 * bound.toInt⌋

/-- A factor of a bound is below it. -/
theorem toInt_drawn (factor : Factor) {bound : Int64} (hbound : 0 ≤ bound.toInt) :
    (drawn factor bound).toInt = ⌊factor.1 * bound.toInt⌋ := by
  obtain ⟨hzero, hone⟩ := factor.2
  have hq : (0 : ℚ) ≤ bound.toInt := by exact_mod_cast hbound
  have hlow : 0 ≤ ⌊factor.1 * bound.toInt⌋ := Int.floor_nonneg.2 (mul_nonneg hzero hq)
  have hhigh : ⌊factor.1 * bound.toInt⌋ ≤ bound.toInt := by
    have hle : factor.1 * bound.toInt ≤ bound.toInt := mul_le_of_le_one_left hq hone.le
    exact_mod_cast (Int.floor_le _).trans hle
  have := bound.toInt_lt
  exact Int64.toInt_ofInt_of_le (by omega) (by omega)

/-! ## The policy -/

namespace BackoffPolicy

/-- `reset`. -/
def reset (b : BackoffPolicy) : BackoffPolicy := { b with attempt := 0 }

/-- The bound of the next delay, `capped`. -/
def capped (b : BackoffPolicy) : Int64 :=
  max (min (b.baseMs * ((1 : Int64) <<< (min b.attempt 30).toInt64)) b.maxDelayMs) 0

/-- The number of delays a policy gives: `maxAttempts`, or none. -/
def budget (b : BackoffPolicy) : ℕ := b.maxAttempts.toInt.toNat

/-- The product of the base and the power of two of the n-th delay. -/
def product (b : BackoffPolicy) (n : ℕ) : ℤ := b.baseMs.toInt * 2 ^ min n 30

/-- The bound of the n-th delay in exact integers. -/
def schedule (b : BackoffPolicy) (n : ℕ) : ℤ := min (b.product n) b.maxDelayMs.toInt

/-- The product is a `Long`, or what wraps of it is cut off, or everything is. -/
def InRange (b : BackoffPolicy) (n : ℕ) : Prop :=
  b.product n < 2 ^ 63 ∨ b.maxDelayMs.toInt ≤ (b.product n).bmod (2 ^ 64) ∨
    b.maxDelayMs.toInt = 0

variable {b : BackoffPolicy}

/-- A base and a maximum that are not negative. -/
structure Sensible (b : BackoffPolicy) : Prop where
  base : 0 ≤ b.baseMs.toInt
  maxDelay : 0 ≤ b.maxDelayMs.toInt

theorem Sensible.product_nonneg (h : b.Sensible) (n : ℕ) : 0 ≤ b.product n :=
  mul_nonneg h.base (by positivity)

theorem Sensible.schedule_nonneg (h : b.Sensible) (n : ℕ) : 0 ≤ b.schedule n :=
  le_min (h.product_nonneg n) h.maxDelay

/-- The schedule never decreases. -/
theorem Sensible.schedule_mono (h : b.Sensible) : Monotone b.schedule := by
  intro m n hmn
  have hpow : (2 : ℤ) ^ min m 30 ≤ 2 ^ min n 30 :=
    pow_le_pow_right₀ (by norm_num) (min_le_min_right 30 hmn)
  exact min_le_min_right _ (mul_le_mul_of_nonneg_left hpow h.base)

theorem nextDelayMs_eq (b : BackoffPolicy) (draw : Int64 → Int64) :
    b.nextDelayMs draw = if b.maxAttempts ≤ b.attempt then none
      else some (if b.capped ≤ 0 then 0 else draw b.capped, { b with attempt := b.attempt + 1 }) :=
  rfl

/-! ## The bound -/

theorem toInt_max (x y : Int64) : (max x y).toInt = max x.toInt y.toInt := by
  show (if x ≤ y then y else x).toInt = _
  split_ifs with h <;> rw [Int64.le_iff_toInt_le] at h <;> omega

theorem toInt_min (x y : Int64) : (min x y).toInt = min x.toInt y.toInt := by
  show (if x ≤ y then x else y).toInt = _
  split_ifs with h <;> rw [Int64.le_iff_toInt_le] at h <;> omega

/-- The power of two, up to the thirtieth. -/
theorem toInt_power {attempt : Int32} {n : ℕ} (h : attempt.toInt = n) :
    ((1 : Int64) <<< (min attempt 30).toInt64).toInt = 2 ^ min n 30 := by
  have hpowers : ∀ j ≤ 30, ((1 : Int64) <<< (Int32.ofNat j).toInt64).toInt = 2 ^ j := by decide
  have hmin : min attempt 30 = Int32.ofNat (min n 30) := by
    refine Int32.toInt_inj.1 ?_
    have hvalue : (Int32.ofNat (min n 30)).toInt = (min n 30 : ℕ) :=
      Int32.toInt_ofNat_of_lt (by omega)
    have hthirty : (30 : Int32).toInt = 30 := rfl
    rw [hvalue]
    show (if attempt ≤ 30 then attempt else 30).toInt = _
    split_ifs with hle <;> rw [Int32.le_iff_toInt_le, h, hthirty] at hle <;> omega
  rw [hmin]
  exact hpowers _ (min_le_right n 30)

/-- What the code computes: the product wraps before it is cut off. -/
theorem toInt_capped {n : ℕ} (h : b.attempt.toInt = n) :
    b.capped.toInt = max (min ((b.product n).bmod (2 ^ 64)) b.maxDelayMs.toInt) 0 := by
  rw [capped, toInt_max, toInt_min, Int64.toInt_mul, toInt_power h]
  rfl

/-- **The bound is that of the schedule exactly if the product is in range.** -/
theorem Sensible.toInt_capped_iff (h : b.Sensible) {n : ℕ} (hn : b.attempt.toInt = n) :
    b.capped.toInt = b.schedule n ↔ b.InRange n := by
  have hproduct := h.product_nonneg n
  have hmax := h.maxDelay
  have hlong := b.maxDelayMs.toInt_lt
  rw [toInt_capped hn, schedule, InRange]
  by_cases hwrap : b.product n < 2 ^ 63
  · have hexact : (b.product n).bmod (2 ^ 64) = b.product n :=
      Int.bmod_eq_of_le (by omega) (by omega)
    rw [hexact]
    exact iff_of_true (by omega) (Or.inl hwrap)
  · omega

/-! ## The budget -/

/-- The counter after `n` calls since a reset. -/
def Counts (b : BackoffPolicy) (n : ℕ) : Prop := b.attempt.toInt = min n b.budget

theorem counts_reset (b : BackoffPolicy) : b.reset.Counts 0 := by
  simp [Counts, reset]

theorem spent_iff {n : ℕ} (h : b.Counts n) : b.maxAttempts ≤ b.attempt ↔ b.budget ≤ n := by
  rw [Int32.le_iff_toInt_le, h, budget]
  omega

/-- A delay within the budget, and its count. -/
theorem nextDelayMs_of_lt {n : ℕ} (h : b.Counts n) (hn : n < b.budget) (draw : Int64 → Int64) :
    ∃ b', b.nextDelayMs draw = some (if b.capped ≤ 0 then 0 else draw b.capped, b') ∧
      b' = { b with attempt := b.attempt + 1 } ∧ b'.Counts (n + 1) := by
  refine ⟨_, by rw [nextDelayMs_eq, if_neg (by rw [spent_iff h]; omega)], rfl, ?_⟩
  have hint := b.maxAttempts.toInt_lt
  have hone : (1 : Int32).toInt = 1 := rfl
  simp only [Counts, budget] at h hn ⊢
  rw [Int32.toInt_add, h, hone, Int.bmod_eq_of_le (by omega) (by omega)]
  omega

/-- None beyond it. -/
theorem nextDelayMs_of_le {n : ℕ} (h : b.Counts n) (hn : b.budget ≤ n) (draw : Int64 → Int64) :
    b.nextDelayMs draw = none ∧ b.Counts (n + 1) := by
  refine ⟨by rw [nextDelayMs_eq, if_pos ((spent_iff h).2 hn)], ?_⟩
  rw [Counts] at h ⊢
  omega

/-- The delays of consecutive calls. -/
def delays (b : BackoffPolicy) : List Factor → List Int64
  | [] => []
  | factor :: factors =>
    match b.nextDelayMs (drawn factor) with
    | some (delay, b') => delay :: b'.delays factors
    | none => b.delays factors

theorem length_delays {n : ℕ} (h : b.Counts n) (factors : List Factor) :
    (b.delays factors).length = min factors.length (b.budget - n) := by
  induction factors generalizing b n with
  | nil => simp [delays]
  | cons factor factors ih =>
    rw [delays]
    by_cases hn : n < b.budget
    · obtain ⟨b', hnext, hb', hcounts⟩ := nextDelayMs_of_lt h hn (drawn factor)
      have hbudget : b'.budget = b.budget := by rw [hb']; rfl
      rw [hnext]
      simp only [List.length_cons, ih hcounts, hbudget]
      omega
    · obtain ⟨hnext, hcounts⟩ := nextDelayMs_of_le h (not_lt.1 hn) (drawn factor)
      rw [hnext]
      simp only [List.length_cons, ih hcounts]
      omega

end BackoffPolicy

/-! ## Runs -/

/-- A call of the policy. -/
inductive BackoffCall where
  | nextDelayMs (factor : Factor)
  | reset

/-- A policy, and how often it was asked for a delay since the last reset. -/
structure BackoffRun where
  policy : BackoffPolicy
  asked : ℕ

namespace BackoffRun

/-- A policy nobody has asked yet. -/
def start (b : BackoffPolicy) : BackoffRun := ⟨b.reset, 0⟩

/-- The policy behind a call. -/
def step (s : BackoffRun) : BackoffCall → BackoffRun
  | .nextDelayMs factor =>
    match s.policy.nextDelayMs (drawn factor) with
    | some (_, policy) => ⟨policy, s.asked + 1⟩
    | none => ⟨s.policy, s.asked + 1⟩
  | .reset => start s.policy

/-- A call that keeps to the schedule: within the budget it gives a delay, drawn from the
bound of the schedule, and beyond the budget none. -/
def OnSchedule (s : BackoffRun) : BackoffCall → Prop
  | .nextDelayMs factor =>
    if s.asked < s.policy.budget then
      s.policy.capped.toInt = s.policy.schedule s.asked ∧
        ∃ delay policy, s.policy.nextDelayMs (drawn factor) = some (delay, policy) ∧
          delay.toInt = ⌊factor.1 * s.policy.schedule s.asked⌋
    else s.policy.nextDelayMs (drawn factor) = none
  | .reset => True

/-- What every run of a policy keeps: the policy but for its counter, and the count. -/
structure Inv (b : BackoffPolicy) (s : BackoffRun) : Prop where
  policy : s.policy.reset = b.reset
  counts : s.policy.Counts s.asked

variable {b : BackoffPolicy} {s : BackoffRun}

theorem inv_start (b : BackoffPolicy) : (start b).Inv b := ⟨rfl, b.counts_reset⟩

theorem Inv.budget (h : s.Inv b) : s.policy.budget = b.budget := by
  show s.policy.reset.budget = b.reset.budget
  rw [h.policy]

theorem Inv.inRange (h : s.Inv b) (n : ℕ) : s.policy.InRange n ↔ b.InRange n := by
  show s.policy.reset.InRange n ↔ b.reset.InRange n
  rw [h.policy]

theorem Inv.sensible (h : s.Inv b) (hb : b.Sensible) : s.policy.Sensible := by
  have hreset : s.policy.reset.Sensible := h.policy ▸ ⟨hb.base, hb.maxDelay⟩
  exact ⟨hreset.base, hreset.maxDelay⟩

theorem Inv.reset (h : s.Inv b) : (s.step .reset).Inv b := ⟨h.policy, s.policy.counts_reset⟩

theorem Inv.next (h : s.Inv b) (factor : Factor) :
    (s.step (.nextDelayMs factor)).Inv b ∧ (s.step (.nextDelayMs factor)).asked = s.asked + 1 := by
  rw [step]
  by_cases hn : s.asked < s.policy.budget
  · obtain ⟨b', hnext, rfl, hcounts⟩ :=
      BackoffPolicy.nextDelayMs_of_lt h.counts hn (drawn factor)
    rw [hnext]
    exact ⟨⟨h.policy, hcounts⟩, rfl⟩
  · obtain ⟨hnext, hcounts⟩ :=
      BackoffPolicy.nextDelayMs_of_le h.counts (not_lt.1 hn) (drawn factor)
    rw [hnext]
    exact ⟨⟨h.policy, hcounts⟩, rfl⟩

/-- **One call keeps to the schedule exactly if the product it uses is in range.** -/
theorem onSchedule_next_iff (hb : b.Sensible) (h : s.Inv b) (factor : Factor) :
    s.OnSchedule (.nextDelayMs factor) ↔ (s.asked < b.budget → b.InRange s.asked) := by
  have hsensible := h.sensible hb
  rw [OnSchedule, h.budget, ← h.inRange]
  split_ifs with hn
  · have hwithin : s.asked < s.policy.budget := h.budget ▸ hn
    rw [← hsensible.toInt_capped_iff (by rw [h.counts, Nat.min_eq_left hwithin.le])]
    refine ⟨fun hcall _ => hcall.1, fun hbound => ⟨hbound hn, ?_⟩⟩
    obtain ⟨b', hnext, -⟩ := BackoffPolicy.nextDelayMs_of_lt h.counts hwithin (drawn factor)
    refine ⟨_, b', hnext, ?_⟩
    have hnonneg := hsensible.schedule_nonneg s.asked
    rw [← hbound hn] at hnonneg ⊢
    split_ifs with hzero
    · rw [Int64.le_iff_toInt_le] at hzero
      have hbound0 : s.policy.capped.toInt = 0 := le_antisymm hzero hnonneg
      rw [hbound0]
      simp
    · exact toInt_drawn factor hnonneg
  · have hspent : s.policy.budget ≤ s.asked := by
      rw [h.budget]
      exact not_lt.1 hn
    have hnone := (BackoffPolicy.nextDelayMs_of_le h.counts hspent (drawn factor)).1
    exact iff_of_true hnone fun hlt => absurd hlt hn

/-- How often a policy is asked between two resets, at most, if it has been `asked` before. -/
def mostAsked : ℕ → List BackoffCall → ℕ
  | asked, [] => asked
  | asked, .nextDelayMs _ :: calls => mostAsked (asked + 1) calls
  | asked, .reset :: calls => max asked (mostAsked 0 calls)

/-- A run that has used the products before `asked` keeps to the schedule exactly if all
that it uses are in range. -/
theorem along_onSchedule (hb : b.Sensible) (calls : List BackoffCall) (h : s.Inv b) :
    ((∀ n < s.asked, n < b.budget → b.InRange n) ∧ Machine.Along step OnSchedule s calls) ↔
      ∀ n < mostAsked s.asked calls, n < b.budget → b.InRange n := by
  induction calls generalizing s with
  | nil => exact and_iff_left trivial
  | cons call calls ih =>
    cases call with
    | nextDelayMs factor =>
      obtain ⟨hinv, hasked⟩ := h.next factor
      have hrest := ih hinv
      rw [hasked] at hrest
      rw [mostAsked, ← hrest, Machine.Along, onSchedule_next_iff hb h, Nat.forall_lt_succ_right]
      tauto
    | reset =>
      have hrest := ih h.reset
      have hasked : (s.step .reset).asked = 0 := rfl
      simp only [hasked, Nat.not_lt_zero, false_implies, implies_true, true_and] at hrest
      simp only [mostAsked, lt_max_iff, or_imp, forall_and, ← hrest, Machine.Along, OnSchedule,
        true_and]

end BackoffRun

/-- A run of a policy from its construction. -/
theorem onSchedule_run {b : BackoffPolicy} (hb : b.Sensible) (calls : List BackoffCall) :
    Machine.Along BackoffRun.step BackoffRun.OnSchedule (.start b) calls ↔
      ∀ n < BackoffRun.mostAsked 0 calls, n < b.budget → b.InRange n := by
  have h := BackoffRun.along_onSchedule hb calls (BackoffRun.inv_start b)
  rw [← (show (BackoffRun.start b).asked = 0 from rfl), ← h]
  exact (and_iff_right fun n hn => absurd hn (Nat.not_lt_zero n)).symm

/-- **The schedule never decreases, a policy gives as many delays as its budget between
two resets, and a run keeps to the schedule exactly if every product that it uses is in
range.** -/
theorem onSchedule_iff (b : BackoffPolicy) (hbase : 0 ≤ b.baseMs) (hmax : 0 ≤ b.maxDelayMs) :
    Monotone b.schedule ∧
    (∀ factors, (b.reset.delays factors).length = min factors.length b.budget) ∧
    ∀ calls, Machine.Along BackoffRun.step BackoffRun.OnSchedule (.start b) calls ↔
      ∀ n < BackoffRun.mostAsked 0 calls, n < b.budget → b.InRange n := by
  have hsensible : b.Sensible :=
    ⟨Int64.le_iff_toInt_le.1 hbase, Int64.le_iff_toInt_le.1 hmax⟩
  refine ⟨hsensible.schedule_mono, fun factors => ?_, onSchedule_run hsensible⟩
  exact BackoffPolicy.length_delays b.counts_reset factors

theorem onSchedule_iff_two_calls : Machine.Along BackoffRun.step BackoffRun.OnSchedule
    (.start ⟨Int64.maxValue, 60000, 5, 0⟩) [.nextDelayMs ⟨1 / 2, by norm_num⟩, .reset] := by
  refine ((onSchedule_iff ⟨Int64.maxValue, 60000, 5, 0⟩ (by decide) (by decide)).2.2 _).2 ?_
  intro n hn _
  have hfirst : n = 0 := Nat.lt_one_iff.1 hn
  subst hfirst
  exact Or.inl (by decide)

/-- Half the largest `Long`: its fourfold leaves the range, and the third delay is nothing. -/
theorem not_onSchedule : ¬ ∀ (b : BackoffPolicy) (calls : List BackoffCall),
    0 ≤ b.baseMs → 0 ≤ b.maxDelayMs →
      Machine.Along BackoffRun.step BackoffRun.OnSchedule (.start b) calls := by
  intro hall
  have hrun := hall ⟨4611686018427387903, 60000, 5, 0⟩
    (List.replicate 3 (.nextDelayMs ⟨0, by norm_num⟩)) (by decide) (by decide)
  rw [onSchedule_run ⟨by decide, by decide⟩] at hrun
  rcases hrun 2 (by decide) (by decide) with hlong | hlong | hlong
  · exact absurd hlong (by decide)
  · exact absurd hlong (by decide)
  · exact absurd hlong (by decide)

/-- **The service keeps to the schedule.** -/
theorem onSchedule_default (calls : List BackoffCall) :
    Machine.Along BackoffRun.step BackoffRun.OnSchedule (.start {}) calls := by
  rw [onSchedule_run ⟨by decide, by decide⟩]
  intro n _ hn
  have hfive : n < 5 := hn
  refine Or.inl ?_
  interval_cases n <;> decide

end ShadeVpn.Service
