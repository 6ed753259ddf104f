import ShadeVpn.Lib.Machine

/-!
# A shared cell

Threads update one cell.  An update reads the value, computes another one of it, and writes
that back: in a loop around a compare-and-set, or by a plain write.  The compare-and-set
compares values, so it may succeed on a value that has gone and come back; it does not
matter which of the two an update is applied to.

* `inOrder_iff` — the value is that of the updates in the order of their writes, exactly if
  no plain write puts back something else than its update makes of the value it finds.
* `applied_of_along` — then no update is lost.
-/

/-- Updates: what each makes of a value, and whether it is written in a loop. -/
structure Updates (U σ : Type) where
  apply : U → σ → σ
  looping : U → Bool

/-- The updates of a list, one after the other. -/
def Updates.applyAll {U σ : Type} (m : Updates U σ) (value : σ) (us : List U) : σ :=
  us.foldl (fun v u => m.apply u v) value

/-- Where a thread stands.  Its update has the number of its call. -/
inductive Progress (U σ : Type) where
  | idle
  /-- The read is next. -/
  | called (id : ℕ) (u : U)
  /-- The write is next. -/
  | seen (id : ℕ) (u : U) (value : σ)

/-- The update a thread has called and not done. -/
def Progress.pending {U σ : Type} : Progress U σ → Option (ℕ × U)
  | .idle => none
  | .called id u => some (id, u)
  | .seen id u _ => some (id, u)

/-- The cell and its threads, with the updates called so far, and the numbers of those that
are done in the order of their writes. -/
structure Cell (ι U σ : Type) where
  value : σ
  thread : ι → Progress U σ
  calls : List U
  done : List ℕ

namespace Cell

variable {ι U σ : Type}

/-- A cell that no thread has touched. -/
def new (value : σ) : Cell ι U σ := ⟨value, fun _ => .idle, [], []⟩

variable [DecidableEq ι]

/-- Thread `i` goes on. -/
def goto (s : Cell ι U σ) (i : ι) (t : Progress U σ) : Cell ι U σ :=
  { s with thread := Function.update s.thread i t }

def call (s : Cell ι U σ) (i : ι) (u : U) : Cell ι U σ :=
  match s.thread i with
  | .idle => { s.goto i (.called s.calls.length u) with calls := s.calls ++ [u] }
  | _ => s

/-- An update is written. -/
def write (s : Cell ι U σ) (i : ι) (id : ℕ) (value : σ) : Cell ι U σ :=
  { s.goto i .idle with value, done := s.done ++ [id] }

variable (m : Updates U σ)

/-- The next access of thread `i`. -/
def go [DecidableEq σ] (s : Cell ι U σ) (i : ι) : Cell ι U σ :=
  match s.thread i with
  | .idle => s
  | .called id u => s.goto i (.seen id u s.value)
  | .seen id u value =>
    if m.looping u ∧ s.value ≠ value then s.goto i (.called id u)
    else s.write i id (m.apply u value)

inductive Event (ι U : Type) where
  | call (i : ι) (u : U)
  | go (i : ι)

def step [DecidableEq σ] (s : Cell ι U σ) : Event ι U → Cell ι U σ
  | .call i u => s.call i u
  | .go i => s.go m i

/-! ## Calls and writes -/

/-- The updates that are done, in the order of their writes. -/
def order (s : Cell ι U σ) : List U := s.done.filterMap fun id => s.calls[id]?

/-- Every call is done once or in progress on one thread. -/
structure Inv (s : Cell ι U σ) : Prop where
  done_lt : ∀ id ∈ s.done, id < s.calls.length
  nodup : s.done.Nodup
  pending : ∀ i id u, (s.thread i).pending = some (id, u) → s.calls[id]? = some u ∧ id ∉ s.done
  unique : ∀ i j id u v, (s.thread i).pending = some (id, u) →
    (s.thread j).pending = some (id, v) → i = j
  accounted : ∀ id < s.calls.length, id ∈ s.done ∨ ∃ i u, (s.thread i).pending = some (id, u)

omit [DecidableEq ι] in
theorem inv_new (value : σ) : (new value : Cell ι U σ).Inv where
  done_lt id h := by cases h
  nodup := List.nodup_nil
  pending i id u h := by cases h
  unique i j id u v h := by cases h
  accounted id h := absurd h (Nat.not_lt_zero id)

/-- What a step can do. -/
inductive Moves (s : Cell ι U σ) : Cell ι U σ → Prop
  | none : Moves s s
  | call (i : ι) (u : U) (here : s.thread i = .idle) :
    Moves s { s.goto i (.called s.calls.length u) with calls := s.calls ++ [u] }
  | turn (i : ι) (t : Progress U σ) (same : t.pending = (s.thread i).pending) :
    Moves s (s.goto i t)
  | write (i : ι) (id : ℕ) (u : U) (value : σ) (here : s.thread i = .seen id u value)
    (match_ : m.looping u = true → s.value = value) : Moves s (s.write i id (m.apply u value))

theorem step_moves [DecidableEq σ] (s : Cell ι U σ) (e : Event ι U) : s.Moves m (s.step m e) := by
  cases e with
  | call i u =>
    rw [step, Cell.call]
    split
    · next here => exact .call i u here
    · exact .none
  | go i =>
    rw [step, go]
    split
    · exact .none
    · next here => exact .turn i _ (by rw [here]; rfl)
    · next id u value here =>
      split_ifs with h
      · exact .turn i _ (by rw [here]; rfl)
      · exact .write i id u value here fun hloop => by_contra fun hne => h ⟨hloop, hne⟩

variable {m} {s s' : Cell ι U σ}

theorem goto_thread (s : Cell ι U σ) (i j : ι) (t : Progress U σ) :
    (s.goto i t).thread j = if j = i then t else s.thread j := by
  simp [goto, Function.update_apply]

theorem Inv.turn (hi : s.Inv) {i : ι} {t : Progress U σ}
    (same : t.pending = (s.thread i).pending) : (s.goto i t).Inv := by
  have hsame : ∀ j, ((s.goto i t).thread j).pending = (s.thread j).pending := by
    intro j
    rw [goto_thread]
    split_ifs with h
    · rw [h, same]
    · rfl
  constructor
  · exact hi.done_lt
  · exact hi.nodup
  · intro j id u h
    exact hi.pending j id u (hsame j ▸ h)
  · intro j k id u v hj hk
    exact hi.unique j k id u v (hsame j ▸ hj) (hsame k ▸ hk)
  · intro id hid
    simp only [hsame]
    exact hi.accounted id hid

theorem Inv.call (hi : s.Inv) {i : ι} (u : U) (here : s.thread i = .idle) :
    Inv { s.goto i (.called s.calls.length u) with calls := s.calls ++ [u] } := by
  have hlt : ∀ j id v, (s.thread j).pending = some (id, v) → id < s.calls.length := by
    intro j id v h
    exact (List.getElem?_eq_some_iff.1 (hi.pending j id v h).1).1
  -- a thread's update is the new one, or what it was
  have hnew : ∀ j id v, ((s.goto i (.called s.calls.length u)).thread j).pending = some (id, v) →
      j = i ∧ id = s.calls.length ∧ v = u ∨ j ≠ i ∧ (s.thread j).pending = some (id, v) := by
    intro j id v h
    rw [goto_thread] at h
    split_ifs at h with hj
    · obtain ⟨rfl, rfl⟩ : s.calls.length = id ∧ u = v := by simpa [Progress.pending] using h
      exact Or.inl ⟨hj, rfl, rfl⟩
    · exact Or.inr ⟨hj, h⟩
  constructor
  · intro id hid
    have := hi.done_lt id hid
    simp
    omega
  · exact hi.nodup
  · intro j id v h
    rcases hnew j id v h with ⟨-, rfl, rfl⟩ | ⟨-, hold⟩
    · exact ⟨by simp, fun hdone => absurd (hi.done_lt _ hdone) (lt_irrefl _)⟩
    · obtain ⟨hget, hnot⟩ := hi.pending j id v hold
      exact ⟨by simp [List.getElem?_append_left (hlt j id v hold), hget], hnot⟩
  · intro j k id v w hj hk
    rcases hnew j id v hj with ⟨hij, hid, -⟩ | ⟨-, hold⟩
    · rcases hnew k id w hk with ⟨hik, -, -⟩ | ⟨-, hold'⟩
      · rw [hij, hik]
      · exact absurd (hlt k id w hold') (hid ▸ lt_irrefl _)
    · rcases hnew k id w hk with ⟨-, hid, -⟩ | ⟨-, hold'⟩
      · exact absurd (hlt j id v hold) (hid ▸ lt_irrefl _)
      · exact hi.unique j k id v w hold hold'
  · intro id hid
    rcases Nat.lt_succ_iff_lt_or_eq.1 (by simpa using hid) with hlt' | rfl
    · rcases hi.accounted id hlt' with hdone | ⟨j, v, hj⟩
      · exact Or.inl hdone
      · refine Or.inr ⟨j, v, ?_⟩
        have hne : j ≠ i := by
          rintro rfl
          rw [here] at hj
          cases hj
        simpa [goto_thread, hne] using hj
    · exact Or.inr ⟨i, u, by simp [goto_thread, Progress.pending]⟩

theorem Inv.write (hi : s.Inv) {i : ι} {id : ℕ} {u : U} {value : σ}
    (here : s.thread i = .seen id u value) (new : σ) : (s.write i id new).Inv := by
  have hpending : (s.thread i).pending = some (id, u) := by
    rw [here]
    rfl
  obtain ⟨hget, hnot⟩ := hi.pending i id u hpending
  have hnew : ∀ j k v, ((s.write i id new).thread j).pending = some (k, v) →
      j ≠ i ∧ (s.thread j).pending = some (k, v) := by
    intro j k v h
    change ((s.goto i .idle).thread j).pending = _ at h
    rw [goto_thread] at h
    split_ifs at h with hj
    · cases h
    · exact ⟨hj, h⟩
  constructor
  · intro k hk
    rcases List.mem_append.1 hk with hk | hk
    · exact hi.done_lt k hk
    · rw [List.mem_singleton.1 hk]
      exact (List.getElem?_eq_some_iff.1 hget).1
  · refine List.nodup_append.2 ⟨hi.nodup, List.nodup_singleton id, ?_⟩
    intro k hk k' hk' heq
    rw [List.mem_singleton.1 hk'] at heq
    exact hnot (heq ▸ hk)
  · intro j k v h
    obtain ⟨hj, hold⟩ := hnew j k v h
    obtain ⟨hget', hnot'⟩ := hi.pending j k v hold
    refine ⟨hget', fun hdone => ?_⟩
    rcases List.mem_append.1 hdone with hdone | hdone
    · exact hnot' hdone
    · rw [List.mem_singleton.1 hdone] at hold
      exact hj (hi.unique j i id v u hold hpending)
  · intro j k l v w hj hk
    exact hi.unique j k l v w (hnew j l v hj).2 (hnew k l w hk).2
  · intro k hk
    by_cases hid : k = id
    · exact Or.inl (by simp [Cell.write, hid])
    rcases hi.accounted k hk with hdone | ⟨j, v, hj⟩
    · exact Or.inl (List.mem_append_left _ hdone)
    · refine Or.inr ⟨j, v, ?_⟩
      have hne : j ≠ i := by
        rintro rfl
        rw [hpending] at hj
        cases hj
        exact hid rfl
      change ((s.goto i .idle).thread j).pending = _
      simpa [goto_thread, hne] using hj

theorem Inv.moves (hi : s.Inv) (h : s.Moves m s') : s'.Inv := by
  cases h with
  | none => exact hi
  | call i u here => exact hi.call u here
  | turn i t same => exact hi.turn same
  | write i id u value here => exact hi.write here _

theorem Inv.step [DecidableEq σ] (hi : s.Inv) (e : Event ι U) : (s.step m e).Inv :=
  hi.moves (s.step_moves m e)

/-! ## The order of the writes -/

variable (m) in
/-- The value is that of the updates in the order of their writes. -/
def InOrder (first : σ) (s : Cell ι U σ) : Prop := s.value = m.applyAll first s.order

variable (m) in
/-- No update is lost: while none is in progress, the value is that of all of them in some
order. -/
def Applied (first : σ) (s : Cell ι U σ) : Prop :=
  (∀ i, (s.thread i).pending = none) →
    ∃ us : List U, us.Perm s.calls ∧ s.value = m.applyAll first us

variable (m) in
/-- A plain write puts back what its update makes of the value it finds. -/
def Fresh (s : Cell ι U σ) : Event ι U → Prop
  | .call _ _ => True
  | .go i => ∀ id u value, s.thread i = .seen id u value → m.looping u = false →
    m.apply u value = m.apply u s.value

theorem order_call (hi : s.Inv) {i : ι} {t : Progress U σ} (u : U) :
    order { s.goto i t with calls := s.calls ++ [u] } = s.order := by
  refine List.filterMap_congr fun id hid => ?_
  exact List.getElem?_append_left (hi.done_lt id hid)

theorem order_write {i : ι} {id : ℕ} {u : U} (h : s.calls[id]? = some u) (new : σ) :
    (s.write i id new).order = s.order ++ [u] := by
  simp [order, write, goto, List.filterMap_append, h]

theorem applyAll_concat (first : σ) (us : List U) (u : U) :
    m.applyAll first (us ++ [u]) = m.apply u (m.applyAll first us) := by
  simp [Updates.applyAll]

/-- **A step keeps the order of the writes** exactly if a plain write is fresh. -/
theorem inOrder_step [DecidableEq σ] (hi : s.Inv) {first : σ} (h : s.InOrder m first)
    (e : Event ι U) : (s.step m e).InOrder m first ↔ s.Fresh m e := by
  cases e with
  | call i u =>
    refine iff_of_true ?_ trivial
    rw [step, Cell.call]
    split
    · rw [InOrder, order_call hi]
      exact h
    · exact h
  | go i =>
    rw [step, go, Fresh]
    split
    · next here => exact iff_of_true h fun id u value hseen => by rw [here] at hseen; cases hseen
    · next here => exact iff_of_true h fun id u value hseen => by rw [here] at hseen; cases hseen
    · next id u value here =>
      have hfresh : (∀ id' u' value', s.thread i = .seen id' u' value' → m.looping u' = false →
          m.apply u' value' = m.apply u' s.value) ↔
          (m.looping u = false → m.apply u value = m.apply u s.value) := by
        rw [here]
        exact ⟨fun hall => hall id u value rfl, by rintro hone _ _ _ ⟨⟩; exact hone⟩
      rw [hfresh]
      have hget := (hi.pending i id u (by rw [here]; rfl)).1
      have hwrite : (s.write i id (m.apply u value)).InOrder m first ↔
          m.apply u value = m.apply u s.value := by
        rw [InOrder, order_write hget, applyAll_concat, ← h]
        rfl
      split_ifs with hloop
      · exact iff_of_true h fun hplain => by simp [hplain] at hloop
      · rw [hwrite]
        refine ⟨fun heq _ => heq, fun hplain => ?_⟩
        -- a compare-and-set has found the value that it read
        by_cases hlooping : m.looping u = true
        · rw [not_not.1 fun hne => hloop ⟨hlooping, hne⟩]
        · exact hplain (by simpa using hlooping)

omit [DecidableEq ι] in
/-- While no update is in progress, all that were called are done. -/
theorem order_perm (hi : s.Inv) (hidle : ∀ i, (s.thread i).pending = none) :
    s.order.Perm s.calls := by
  have hdone : s.done.Perm (List.range s.calls.length) := by
    refine (List.perm_ext_iff_of_nodup hi.nodup List.nodup_range).2 fun id => ?_
    rw [List.mem_range]
    refine ⟨hi.done_lt id, fun hlt => ?_⟩
    rcases hi.accounted id hlt with hmem | ⟨i, u, hpending⟩
    · exact hmem
    · rw [hidle i] at hpending
      cases hpending
  have hall : ∀ us : List U, (List.range us.length).filterMap (us[·]?) = us := by
    intro us
    induction us using List.reverseRecOn with
    | nil => rfl
    | append_singleton us u ih =>
      rw [List.length_append, List.length_singleton, List.range_succ, List.filterMap_append]
      have hfront : (List.range us.length).filterMap ((us ++ [u])[·]?) = us := by
        conv_rhs => rw [← ih]
        refine List.filterMap_congr fun id hid => ?_
        exact List.getElem?_append_left (List.mem_range.1 hid)
      rw [hfront]
      simp
  have hperm := hdone.filterMap (s.calls[·]?)
  rwa [hall] at hperm

omit [DecidableEq ι] in
theorem applied_of_inOrder (hi : s.Inv) {first : σ} (h : s.InOrder m first) :
    s.Applied m first :=
  fun hidle => ⟨s.order, order_perm hi hidle, h⟩

/-- **When the value is that of the updates in the order of their writes**, throughout a run
of any threads: exactly if every plain write is fresh. -/
theorem inOrder_iff [DecidableEq σ] (first : σ) (es : List (Event ι U)) :
    Machine.Always (step m) (InOrder m first) (new first : Cell ι U σ) es ↔
      Machine.Along (step m) (Fresh m) (new first : Cell ι U σ) es :=
  Machine.always_iff_along (fun _ e hi => hi.step e) (fun _ e hi h => inOrder_step hi h e) es
    (inv_new first) rfl

/-- **No update is lost** in a run whose plain writes are fresh. -/
theorem applied_of_along [DecidableEq σ] {first : σ} {es : List (Event ι U)}
    (h : Machine.Along (step m) (Fresh m) (new first : Cell ι U σ) es) :
    Machine.Always (step m) (Applied m first) (new first : Cell ι U σ) es := by
  intro pre hpre
  have hinv : (Machine.run (step m) (new first : Cell ι U σ) pre).Inv :=
    Machine.run_inv (I := Inv) (fun _ e hi => hi.step e) pre (inv_new first)
  exact applied_of_inOrder hinv ((inOrder_iff first es).2 h pre hpre)

/-! ## Loops alone -/

theorem calls_step [DecidableEq σ] (s : Cell ι U σ) (e : Event ι U) :
    (s.step m e).calls = s.calls ∨ ∃ i u, e = .call i u ∧ (s.step m e).calls = s.calls ++ [u] := by
  cases e with
  | call i u =>
    rw [step, Cell.call]
    split
    · exact Or.inr ⟨i, u, rfl, rfl⟩
    · exact Or.inl rfl
  | go i =>
    rw [step, go]
    split
    · exact Or.inl rfl
    · exact Or.inl rfl
    · split_ifs <;> exact Or.inl rfl

/-- A run whose updates all loop has no plain write. -/
theorem along_fresh_of_looping [DecidableEq σ] {first : σ} {es : List (Event ι U)}
    (h : ∀ i u, .call i u ∈ es → m.looping u = true) :
    Machine.Along (step m) (Fresh m) (new first : Cell ι U σ) es := by
  have hfrom : ∀ (es : List (Event ι U)) (s : Cell ι U σ), s.Inv →
      (∀ u ∈ s.calls, m.looping u = true) → (∀ i u, .call i u ∈ es → m.looping u = true) →
      Machine.Along (step m) (Fresh m) s es := by
    intro es
    induction es with
    | nil => exact fun _ _ _ _ => trivial
    | cons e es ih =>
      intro s hi hcalls hes
      refine ⟨?_, ih _ (hi.step e) ?_ fun i u hmem => hes i u (List.mem_cons_of_mem e hmem)⟩
      · cases e with
        | call i u => trivial
        | go i =>
          intro id u value here hplain
          have hget := (hi.pending i id u (by rw [here]; rfl)).1
          rw [hcalls u (List.mem_of_getElem? hget)] at hplain
          cases hplain
      · intro u hu
        rcases s.calls_step e with heq | ⟨i, v, rfl, heq⟩
        · exact hcalls u (heq ▸ hu)
        · rw [heq, List.mem_append, List.mem_singleton] at hu
          rcases hu with hu | rfl
          · exact hcalls u hu
          · exact hes i u List.mem_cons_self
  exact hfrom es _ (inv_new first) (fun u hu => by cases hu) h

end Cell
