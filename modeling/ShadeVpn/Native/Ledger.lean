import ShadeVpn.Native.Session

/-!
# The ledger of sequence numbers

What numbering records comes to, without keys, sockets or threads.  Two counters
hand out numbers for the records of one handshake state: the session's, which a
probe moves on only after its write, and the pump's, which is loaded from the
session's at a start and never given back.  A `Lease` is a handshake state with
the number it starts at.

* `Good` — what every ledger keeps: a counter whose history is clean stands right
  behind the numbers given out, and one whose history is not stands on a number
  that is taken.
* `distinct_snoc` — from a good ledger without a repeated number, the next
  number is fresh exactly if its counter's history is clean.
-/

namespace ShadeVpn.Native

open Octets

/-! ## Numbers in a row -/

/-- The records `xs` carry the numbers from `base` on, one each, and `next`
is the number after them. -/
structure Counts (base : UInt64) (xs : List Sealed) (next : UInt64) : Prop where
  next_eq : next = base + UInt64.ofNat xs.length
  mem_iff : ∀ seq, seq ∈ xs.map Sealed.seq ↔ ∃ i < xs.length, seq = base + UInt64.ofNat i

theorem Counts.nil (base : UInt64) : Counts base [] base := ⟨by simp, by simp⟩

/-- One more record with the next number. -/
theorem Counts.snoc {base next : UInt64} {xs : List Sealed} (h : Counts base xs next)
    {x : Sealed} (hx : x.seq = next) : Counts base (xs ++ [x]) (next + 1) := by
  constructor
  · rw [h.next_eq, List.length_append, List.length_singleton, UInt64.ofNat_add]
    exact UInt64.add_assoc ..
  · intro seq
    rw [List.map_append, List.mem_append, h.mem_iff]
    simp only [List.map_cons, List.map_nil, List.mem_singleton, List.length_append,
      List.length_singleton, hx]
    constructor
    · rintro (⟨i, hi, rfl⟩ | rfl)
      · exact ⟨i, by omega, rfl⟩
      · exact ⟨xs.length, by omega, h.next_eq⟩
    · rintro ⟨i, hi, rfl⟩
      rcases Nat.lt_succ_iff_lt_or_eq.1 hi with hlt | rfl
      · exact Or.inl ⟨i, hlt, rfl⟩
      · exact Or.inr h.next_eq.symm

/-- The next number is taken only once all 2^64 are. -/
theorem Counts.next_mem_iff {base next : UInt64} {xs : List Sealed} (h : Counts base xs next) :
    next ∈ xs.map Sealed.seq ↔ 2 ^ 64 ≤ xs.length := by
  rw [h.mem_iff]
  constructor
  · rintro ⟨i, hi, heq⟩
    rw [h.next_eq, UInt64.add_right_inj] at heq
    have := congrArg UInt64.toNat heq
    rw [UInt64.toNat_ofNat', UInt64.toNat_ofNat'] at this
    omega
  · intro hlen
    refine ⟨xs.length - 2 ^ 64, by omega, ?_⟩
    rw [h.next_eq, UInt64.add_right_inj]
    apply UInt64.toNat_inj.1
    rw [UInt64.toNat_ofNat', UInt64.toNat_ofNat']
    omega

/-! ## The ledger -/

/-- A handshake state and the number its records start at. -/
structure Lease where
  id : ℕ
  base : UInt64

/-- A pump run: whose records it numbers, which start it is, and its next number. -/
structure Run where
  lease : Lease
  number : ℕ
  seq : UInt64

/-- The ledger: the session's handshake state and counter, the run of the pump,
how many states and starts there were, and the records sealed. -/
structure Ledger where
  current : Option Lease
  next : UInt64
  run : Option Run
  created : ℕ
  starts : ℕ
  log : List Sealed

/-- The records of one handshake state. -/
def under (log : List Sealed) (id : ℕ) : List Sealed := log.filter (·.handle = id)

/-- What a step does to the ledger. -/
inductive Ledger.Step : Ledger → Ledger → Prop
  | stay (g : Ledger) : Step g g
  | install (g : Ledger) :
    Step g { g with current := some ⟨g.created, g.next⟩, created := g.created + 1 }
  | drop (g : Ledger) : Step g { g with current := none, next := 0 }
  | start (g : Ledger) (l : Lease) (h : g.current = some l) :
    Step g { g with run := some ⟨l, g.starts + 1, g.next⟩, starts := g.starts + 1 }
  | halt (g : Ledger) : Step g { g with run := none }
  | probe (g : Ledger) (l : Lease) (h : g.current = some l) (written : Bool) (pt : Bytes) :
    Step g { g with
      next := if written then g.next + 1 else g.next
      log := g.log ++ [⟨l.id, g.next, .probe written, g.starts, pt⟩] }
  | packet (g : Ledger) (r : Run) (h : g.run = some r) (written : Bool) (pt : Bytes) :
    Step g { g with
      run := if written then some { r with seq := r.seq + 1 } else none
      log := g.log ++ [⟨r.lease.id, r.seq, .packet, r.number, pt⟩] }

/-! ## Clean histories -/

/-- The history behind the session's counter is clean: only probes whose write
succeeded. -/
def CleanForProbe (xs : List Sealed) : Prop := ∀ x ∈ xs, x.origin = .probe true

/-- The history behind the counter of pump run `number` is clean: probes whose
write succeeded, sealed before the start, and packets of this run. -/
def CleanForPacket (number : ℕ) (xs : List Sealed) : Prop :=
  ∀ x ∈ xs, (x.origin = .probe true ∧ x.start < number) ∨ (x.origin = .packet ∧ x.start = number)

/-- No two records of one handshake state carry the same number. -/
def Distinct (log : List Sealed) : Prop := (log.map fun x => (x.handle, x.seq)).Nodup

instance (log : List Sealed) : Decidable (Distinct log) :=
  inferInstanceAs (Decidable (List.Nodup _))

/-- A record may be sealed after `log`: the history of its counter is clean, and
its handshake state has numbers left. -/
def Allowed (log : List Sealed) (x : Sealed) : Prop :=
  (match x.origin with
    | .probe _ => CleanForProbe (under log x.handle)
    | .packet => CleanForPacket x.start (under log x.handle)) ∧
  (under log x.handle).length < 2 ^ 64

/-- What every ledger keeps. -/
structure Ledger.Good (g : Ledger) : Prop where
  handle_lt : ∀ x ∈ g.log, x.handle < g.created
  start_le : ∀ x ∈ g.log, x.start ≤ g.starts
  current_lt : ∀ l ∈ g.current, l.id < g.created
  run_lt : ∀ r ∈ g.run, r.lease.id < g.created ∧ r.number = g.starts
  same_lease : ∀ l ∈ g.current, ∀ r ∈ g.run, l.id = r.lease.id → l = r.lease
  probe_clean : ∀ l ∈ g.current, CleanForProbe (under g.log l.id) →
    Counts l.base (under g.log l.id) g.next
  packet_clean : ∀ r ∈ g.run, CleanForPacket r.number (under g.log r.lease.id) →
    Counts r.lease.base (under g.log r.lease.id) r.seq
  probe_taken : Distinct g.log → ∀ l ∈ g.current, ¬ CleanForProbe (under g.log l.id) →
    g.next ∈ (under g.log l.id).map Sealed.seq
  packet_taken : Distinct g.log → ∀ r ∈ g.run,
    ¬ CleanForPacket r.number (under g.log r.lease.id) →
    r.seq ∈ (under g.log r.lease.id).map Sealed.seq

/-! ## One more record -/

/-- The records under a handshake state after one more. -/
theorem under_snoc (log : List Sealed) (x : Sealed) (id : ℕ) :
    under (log ++ [x]) id = if x.handle = id then under log id ++ [x] else under log id := by
  rw [under, List.filter_append]
  split_ifs with h <;> simp [under, h]

theorem under_snoc_self (log : List Sealed) (x : Sealed) :
    under (log ++ [x]) x.handle = under log x.handle ++ [x] := by
  rw [under_snoc, if_pos rfl]

theorem under_snoc_ne (log : List Sealed) {x : Sealed} {id : ℕ} (h : id ≠ x.handle) :
    under (log ++ [x]) id = under log id := by
  rw [under_snoc, if_neg (Ne.symm h)]

/-- A handshake state nothing was sealed under. -/
theorem under_eq_nil {log : List Sealed} {id : ℕ} (h : ∀ x ∈ log, x.handle < id) :
    under log id = [] :=
  List.filter_eq_nil_iff.2 fun x hx => by simpa using (h x hx).ne

/-- One more record repeats no number if its number is not taken. -/
theorem distinct_snoc (log : List Sealed) (x : Sealed) :
    Distinct (log ++ [x]) ↔ Distinct log ∧ x.seq ∉ (under log x.handle).map Sealed.seq := by
  have hmem : (x.handle, x.seq) ∈ log.map (fun y => (y.handle, y.seq)) ↔
      x.seq ∈ (under log x.handle).map Sealed.seq := by
    simp only [List.mem_map, under, List.mem_filter, decide_eq_true_eq, Prod.mk.injEq]
    constructor
    · rintro ⟨y, hy, hhandle, hseq⟩
      exact ⟨y, ⟨hy, hhandle⟩, hseq⟩
    · rintro ⟨y, ⟨hy, hhandle⟩, hseq⟩
      exact ⟨y, hy, hhandle, hseq⟩
  rw [← hmem, Distinct, Distinct, List.map_append, List.nodup_append]
  constructor
  · rintro ⟨hlog, -, hdisj⟩
    exact ⟨hlog, fun h => hdisj _ h _ (by simp) rfl⟩
  · rintro ⟨hlog, hnew⟩
    refine ⟨hlog, by simp, ?_⟩
    rintro a ha b hb rfl
    rw [List.map_cons, List.map_nil, List.mem_singleton] at hb
    exact hnew (hb ▸ ha)

/-- The number a counter hands out is fresh exactly if the history behind it is
clean and numbers are left. -/
theorem fresh_iff {clean : Prop} {base next : UInt64} {xs : List Sealed}
    (hclean : clean → Counts base xs next) (htaken : ¬ clean → next ∈ xs.map Sealed.seq) :
    next ∉ xs.map Sealed.seq ↔ clean ∧ xs.length < 2 ^ 64 := by
  constructor
  · intro h
    have hc : clean := by_contra fun hc => h (htaken hc)
    exact ⟨hc, not_le.1 fun hle => h ((hclean hc).next_mem_iff.2 hle)⟩
  · rintro ⟨hc, hlt⟩ hmem
    exact absurd ((hclean hc).next_mem_iff.1 hmem) (not_le.2 hlt)

theorem CleanForProbe.snoc_iff {xs : List Sealed} {x : Sealed} :
    CleanForProbe (xs ++ [x]) ↔ CleanForProbe xs ∧ x.origin = .probe true := by
  simp only [CleanForProbe, List.forall_mem_append, List.forall_mem_singleton]

theorem CleanForPacket.snoc_iff {number : ℕ} {xs : List Sealed} {x : Sealed} :
    CleanForPacket number (xs ++ [x]) ↔ CleanForPacket number xs ∧
      ((x.origin = .probe true ∧ x.start < number) ∨ (x.origin = .packet ∧ x.start = number)) := by
  simp only [CleanForPacket, List.forall_mem_append, List.forall_mem_singleton]

/-- At a start the two histories are the same. -/
theorem cleanForPacket_start {starts : ℕ} {xs : List Sealed} (h : ∀ x ∈ xs, x.start ≤ starts) :
    CleanForPacket (starts + 1) xs ↔ CleanForProbe xs := by
  constructor
  · intro hclean x hx
    rcases hclean x hx with ⟨horigin, -⟩ | ⟨-, hstart⟩
    · exact horigin
    · have := h x hx
      omega
  · intro hclean x hx
    exact Or.inl ⟨hclean x hx, Nat.lt_succ_of_le (h x hx)⟩

theorem mem_under {log : List Sealed} {id : ℕ} {x : Sealed} (h : x ∈ under log id) : x ∈ log :=
  (List.mem_filter.1 h).1

/-! ## Every ledger is good -/

namespace Ledger

/-- The ledger before the first step. -/
def empty : Ledger := ⟨none, 0, none, 0, 0, []⟩

theorem good_empty : empty.Good := by
  constructor <;> simp [empty]

/-- The next probe's number. -/
theorem Good.probe_fresh_iff {g : Ledger} (h : g.Good) (hd : Distinct g.log) {l : Lease}
    (hl : g.current = some l) :
    g.next ∉ (under g.log l.id).map Sealed.seq ↔
      CleanForProbe (under g.log l.id) ∧ (under g.log l.id).length < 2 ^ 64 :=
  fresh_iff (h.probe_clean l hl) (h.probe_taken hd l hl)

/-- The next packet's number. -/
theorem Good.packet_fresh_iff {g : Ledger} (h : g.Good) (hd : Distinct g.log) {r : Run}
    (hr : g.run = some r) :
    r.seq ∉ (under g.log r.lease.id).map Sealed.seq ↔
      CleanForPacket r.number (under g.log r.lease.id) ∧
        (under g.log r.lease.id).length < 2 ^ 64 :=
  fresh_iff (h.packet_clean r hr) (h.packet_taken hd r hr)

/-- Two clean counters of one handshake state stand on the same number. -/
theorem Good.next_eq_seq {g : Ledger} (h : g.Good) {l : Lease} {r : Run} (hl : g.current = some l)
    (hr : g.run = some r) (hid : l.id = r.lease.id) (hprobe : CleanForProbe (under g.log l.id))
    (hpacket : CleanForPacket r.number (under g.log r.lease.id)) : g.next = r.seq := by
  have hsame := h.same_lease l hl r hr hid
  rw [(h.probe_clean l hl hprobe).next_eq, (h.packet_clean r hr hpacket).next_eq, hsame]

theorem Good.install {g : Ledger} (h : g.Good) :
    Good { g with current := some ⟨g.created, g.next⟩, created := g.created + 1 } := by
  have hnil : under g.log g.created = [] := under_eq_nil h.handle_lt
  exact
    { handle_lt := fun x hx => (h.handle_lt x hx).trans (Nat.lt_succ_self _)
      start_le := h.start_le
      current_lt := by
        rintro l ⟨⟩
        exact Nat.lt_succ_self _
      run_lt := fun r hr => ⟨(h.run_lt r hr).1.trans (Nat.lt_succ_self _), (h.run_lt r hr).2⟩
      same_lease := by
        rintro l ⟨⟩ r hr hid
        exact absurd hid (h.run_lt r hr).1.ne'
      probe_clean := by
        rintro l ⟨⟩ -
        rw [hnil]
        exact .nil _
      packet_clean := h.packet_clean
      probe_taken := by
        rintro - l ⟨⟩ hclean
        exact absurd (by rw [hnil]; simp [CleanForProbe]) hclean
      packet_taken := h.packet_taken }

theorem Good.start {g : Ledger} (h : g.Good) {l : Lease} (hl : g.current = some l) :
    Good { g with run := some ⟨l, g.starts + 1, g.next⟩, starts := g.starts + 1 } := by
  have hstarts : CleanForPacket (g.starts + 1) (under g.log l.id) ↔
      CleanForProbe (under g.log l.id) :=
    cleanForPacket_start fun x hx => h.start_le x (mem_under hx)
  exact
    { handle_lt := h.handle_lt
      start_le := fun x hx => (h.start_le x hx).trans (Nat.le_succ _)
      current_lt := h.current_lt
      run_lt := by
        rintro r ⟨⟩
        exact ⟨h.current_lt l hl, rfl⟩
      same_lease := by
        rintro l' hl' r ⟨⟩ -
        exact Option.some.inj (hl'.symm.trans hl)
      probe_clean := h.probe_clean
      packet_clean := by
        rintro r ⟨⟩ hclean
        exact h.probe_clean l hl (hstarts.1 hclean)
      probe_taken := h.probe_taken
      packet_taken := by
        rintro hd r ⟨⟩ hclean
        exact h.probe_taken hd l hl fun hp => hclean (hstarts.2 hp) }

/-- A probe's record. -/
theorem Good.probe {g : Ledger} (h : g.Good) {l : Lease} (hl : g.current = some l)
    (written : Bool) (pt : Bytes) :
    Good { g with
      next := if written then g.next + 1 else g.next
      log := g.log ++ [⟨l.id, g.next, .probe written, g.starts, pt⟩] } := by
  set x : Sealed := ⟨l.id, g.next, .probe written, g.starts, pt⟩ with hx
  have hself : under (g.log ++ [x]) l.id = under g.log l.id ++ [x] := under_snoc_self g.log x
  -- without a repeated number the history before the probe was clean
  have hbefore : Distinct (g.log ++ [x]) →
      Distinct g.log ∧ CleanForProbe (under g.log l.id) := by
    intro hd
    obtain ⟨hlog, hnew⟩ := (distinct_snoc g.log x).1 hd
    exact ⟨hlog, ((h.probe_fresh_iff hlog hl).1 hnew).1⟩
  constructor
  case handle_lt =>
    simp only [List.forall_mem_append, List.forall_mem_singleton]
    exact ⟨h.handle_lt, h.current_lt l hl⟩
  case start_le =>
    simp only [List.forall_mem_append, List.forall_mem_singleton]
    exact ⟨h.start_le, le_rfl⟩
  case current_lt => exact h.current_lt
  case run_lt => exact h.run_lt
  case same_lease => exact h.same_lease
  case probe_clean =>
    intro l' hl' hclean
    obtain rfl : l = l' := Option.some.inj (hl.symm.trans hl')
    rw [hself, CleanForProbe.snoc_iff] at hclean
    obtain rfl : written = true := by simpa [hx] using hclean.2
    rw [hself]
    exact (h.probe_clean l hl hclean.1).snoc rfl
  case packet_clean =>
    intro r hr hclean
    by_cases hid : r.lease.id = l.id
    · rw [hid, hself, CleanForPacket.snoc_iff] at hclean
      have hnumber := (h.run_lt r hr).2
      rcases hclean.2 with ⟨-, hlt⟩ | ⟨horigin, -⟩
      · exact absurd hlt (by simp [hx, hnumber])
      · cases horigin
    · rw [under_snoc_ne g.log hid] at hclean ⊢
      exact h.packet_clean r hr hclean
  case probe_taken =>
    intro hd l' hl' hclean
    obtain rfl : l = l' := Option.some.inj (hl.symm.trans hl')
    rw [hself, CleanForProbe.snoc_iff] at hclean
    obtain rfl : written = false := by
      cases written with
      | true => exact absurd ⟨(hbefore hd).2, rfl⟩ hclean
      | false => rfl
    rw [hself]
    simp [hx]
  case packet_taken =>
    intro hd r hr hclean
    obtain ⟨hlog, hprobe⟩ := hbefore hd
    by_cases hid : r.lease.id = l.id
    · rw [hid, hself, List.map_append, List.mem_append]
      by_cases hpacket : CleanForPacket r.number (under g.log r.lease.id)
      · exact Or.inr (by simp [hx, h.next_eq_seq hl hr hid.symm hprobe hpacket])
      · exact Or.inl (hid ▸ h.packet_taken hlog r hr hpacket)
    · rw [under_snoc_ne g.log hid] at hclean ⊢
      exact h.packet_taken hlog r hr hclean

/-- A packet's record. -/
theorem Good.packet {g : Ledger} (h : g.Good) {r : Run} (hr : g.run = some r) (written : Bool)
    (pt : Bytes) :
    Good { g with
      run := if written then some { r with seq := r.seq + 1 } else none
      log := g.log ++ [⟨r.lease.id, r.seq, .packet, r.number, pt⟩] } := by
  set x : Sealed := ⟨r.lease.id, r.seq, .packet, r.number, pt⟩ with hx
  have hself : under (g.log ++ [x]) r.lease.id = under g.log r.lease.id ++ [x] :=
    under_snoc_self g.log x
  -- without a repeated number the history before the packet was clean
  have hbefore : Distinct (g.log ++ [x]) →
      Distinct g.log ∧ CleanForPacket r.number (under g.log r.lease.id) := by
    intro hd
    obtain ⟨hlog, hnew⟩ := (distinct_snoc g.log x).1 hd
    exact ⟨hlog, ((h.packet_fresh_iff hlog hr).1 hnew).1⟩
  have hrun : ∀ r' ∈ (if written then some { r with seq := r.seq + 1 } else none : Option Run),
      r' = { r with seq := r.seq + 1 } := by
    intro r' hr'
    cases written with
    | true => exact (Option.some.inj hr').symm
    | false => cases hr'
  constructor
  case handle_lt =>
    simp only [List.forall_mem_append, List.forall_mem_singleton]
    exact ⟨h.handle_lt, (h.run_lt r hr).1⟩
  case start_le =>
    simp only [List.forall_mem_append, List.forall_mem_singleton]
    exact ⟨h.start_le, (h.run_lt r hr).2.le⟩
  case current_lt => exact h.current_lt
  case run_lt =>
    intro r' hr'
    rw [hrun r' hr']
    exact h.run_lt r hr
  case same_lease =>
    intro l hl r' hr' hid
    rw [hrun r' hr'] at hid ⊢
    exact h.same_lease l hl r hr hid
  case probe_clean =>
    intro l hl hclean
    by_cases hid : l.id = r.lease.id
    · rw [hid, hself, CleanForProbe.snoc_iff] at hclean
      cases hclean.2
    · rw [under_snoc_ne g.log hid] at hclean ⊢
      exact h.probe_clean l hl hclean
  case packet_clean =>
    intro r' hr' hclean
    rw [hrun r' hr'] at hclean ⊢
    rw [hself, CleanForPacket.snoc_iff] at hclean
    rw [hself]
    exact (h.packet_clean r hr hclean.1).snoc rfl
  case probe_taken =>
    intro hd l hl hclean
    obtain ⟨hlog, hpacket⟩ := hbefore hd
    by_cases hid : l.id = r.lease.id
    · rw [hid, hself, List.map_append, List.mem_append]
      by_cases hprobe : CleanForProbe (under g.log l.id)
      · exact Or.inr (by simp [hx, h.next_eq_seq hl hr hid hprobe hpacket])
      · exact Or.inl (hid ▸ h.probe_taken hlog l hl hprobe)
    · rw [under_snoc_ne g.log hid] at hclean ⊢
      exact h.probe_taken hlog l hl hclean
  case packet_taken =>
    intro hd r' hr' hclean
    rw [hrun r' hr', hself, CleanForPacket.snoc_iff] at hclean
    exact absurd ⟨(hbefore hd).2, Or.inr ⟨rfl, rfl⟩⟩ hclean

/-- **A step keeps the ledger good.** -/
theorem Good.step {g g' : Ledger} (h : g.Good) (hstep : g.Step g') : g'.Good := by
  cases hstep with
  | stay => exact h
  | install => exact h.install
  | drop =>
    exact { h with
      current_lt := by simp
      same_lease := by simp
      probe_clean := by simp
      probe_taken := by simp }
  | start l hl => exact h.start hl
  | halt =>
    exact { h with
      run_lt := by simp
      same_lease := by simp
      packet_clean := by simp
      packet_taken := by simp }
  | probe l hl written pt => exact h.probe hl written pt
  | packet r hr written pt => exact h.packet hr written pt

/-- **The next number is fresh** exactly if the history of its counter is clean. -/
theorem Good.distinct_iff {g g' : Ledger} (h : g.Good) (hd : Distinct g.log)
    (hstep : g.Step g') :
    Distinct g'.log ↔ ∀ x, g'.log = g.log ++ [x] → Allowed g.log x := by
  have hquiet : Distinct g.log ↔ ∀ x, g.log = g.log ++ [x] → Allowed g.log x :=
    ⟨fun _ x hx => by simp at hx, fun _ => hd⟩
  have hlast : ∀ y, (∀ x, g.log ++ [y] = g.log ++ [x] → Allowed g.log x) ↔ Allowed g.log y := by
    intro y
    refine ⟨fun hx => hx y rfl, fun hy x hx => ?_⟩
    rwa [← List.singleton_inj.1 (List.append_cancel_left hx)]
  cases hstep with
  | stay => exact hquiet
  | install => exact hquiet
  | drop => exact hquiet
  | start l hl => exact hquiet
  | halt => exact hquiet
  | probe l hl written pt =>
    rw [distinct_snoc, and_iff_right hd, h.probe_fresh_iff hd hl]
    exact (hlast ⟨l.id, g.next, .probe written, g.starts, pt⟩).symm
  | packet r hr written pt =>
    rw [distinct_snoc, and_iff_right hd, h.packet_fresh_iff hd hr]
    exact (hlast ⟨r.lease.id, r.seq, .packet, r.number, pt⟩).symm

end Ledger

end ShadeVpn.Native
