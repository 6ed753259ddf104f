import ShadeVpn.Lib.Cell
import ShadeVpn.Service.Orchestrator

/-!
# Snapshot updates at once

The service's threads and the UI write one `MutableStateFlow`.  `mutate` is a loop around
`compareAndSet`, which compares snapshots with `equals`; `reset` reads the value and assigns
another one, with the profile, the permission and the version of what it read.

* `applied_of_kept` — no update is lost in a run in which these three are, when a `reset`
  assigns, what they were when it read.  In particular none is lost without a `reset`
  (`applied_of_mutates`).
* `inOrder_iff_kept` — this is also when the snapshot is that of the updates in the order of
  their writes.
-/

namespace ShadeVpn.Service

/-- A state update of the orchestrator. -/
inductive SnapshotUpdate where
  | mutate (block : ConnectionSnapshot → ConnectionSnapshot)
  | reset

/-- What the updates make of a snapshot, and which of them loop. -/
def snapshotUpdates : Updates SnapshotUpdate ConnectionSnapshot where
  apply
    | .mutate block => block
    | .reset => .reset
  looping
    | .mutate _ => true
    | .reset => false

/-- What `reset` keeps of two snapshots is the same. -/
def ConnectionSnapshot.SameKept (s t : ConnectionSnapshot) : Prop :=
  s.permissionGranted = t.permissionGranted ∧ s.nativeVersion = t.nativeVersion ∧
    s.selectedProfile = t.selectedProfile

instance (s t : ConnectionSnapshot) : Decidable (s.SameKept t) :=
  inferInstanceAs (Decidable (_ ∧ _ ∧ _))

theorem reset_eq_iff {s t : ConnectionSnapshot} : s.reset = t.reset ↔ s.SameKept t := by
  simp [ConnectionSnapshot.reset, ConnectionSnapshot.SameKept]

/-- An update on the orchestrator, in one step. -/
def App.update {κ : Type} (a : App κ) : SnapshotUpdate → App κ
  | .mutate block => a.mutate block
  | .reset => a.reset

/-- Updates one after the other are those of the orchestrator. -/
theorem snapshot_foldl_update {κ : Type} (us : List SnapshotUpdate) (a : App κ) :
    (us.foldl App.update a).snapshot = snapshotUpdates.applyAll a.snapshot us := by
  induction us generalizing a with
  | nil => rfl
  | cons u us ih =>
    rw [List.foldl_cons, ih]
    cases u <;> rfl

variable {ι : Type} [DecidableEq ι]

/-- The flow, its threads and the updates they have called. -/
abbrev StateFlow (ι : Type) := Cell ι SnapshotUpdate ConnectionSnapshot

/-- A step is not the assignment of a `reset` behind a change of what it keeps. -/
def StateFlow.Kept (s : StateFlow ι) : Cell.Event ι SnapshotUpdate → Prop
  | .call _ _ => True
  | .go i =>
    match s.thread i with
    | .seen _ .reset value => value.SameKept s.value
    | _ => True

instance (s : StateFlow ι) (e : Cell.Event ι SnapshotUpdate) : Decidable (s.Kept e) := by
  unfold StateFlow.Kept
  split
  · infer_instance
  · split <;> infer_instance

omit [DecidableEq ι] in
/-- The condition is that plain writes are fresh. -/
theorem fresh_iff_kept (s : StateFlow ι) (e : Cell.Event ι SnapshotUpdate) :
    s.Fresh snapshotUpdates e ↔ s.Kept e := by
  cases e with
  | call i u => exact Iff.rfl
  | go i =>
    rw [Cell.Fresh, StateFlow.Kept]
    constructor
    · intro hfresh
      split
      · next id value here => exact reset_eq_iff.1 (hfresh id .reset value here rfl)
      · trivial
    · rintro hkept id (block | _) value here hplain
      · cases hplain
      · rw [here] at hkept
        exact reset_eq_iff.2 hkept

theorem along_fresh_iff (first : ConnectionSnapshot) (es : List (Cell.Event ι SnapshotUpdate)) :
    Machine.Along (Cell.step snapshotUpdates) (Cell.Fresh snapshotUpdates)
        (Cell.new first : StateFlow ι) es ↔
      Machine.Along (Cell.step snapshotUpdates) StateFlow.Kept (Cell.new first : StateFlow ι) es :=
  Machine.along_iff_along (I := fun _ => True) (fun s e _ => fresh_iff_kept s e)
    (fun _ _ _ _ => trivial) es trivial

/-- **When the snapshot is that of the updates in the order of their writes.** -/
theorem inOrder_iff_kept (first : ConnectionSnapshot) (es : List (Cell.Event ι SnapshotUpdate)) :
    Machine.Always (Cell.step snapshotUpdates) (Cell.InOrder snapshotUpdates first)
        (Cell.new first : StateFlow ι) es ↔
      Machine.Along (Cell.step snapshotUpdates) StateFlow.Kept (Cell.new first : StateFlow ι) es := by
  rw [Cell.inOrder_iff, along_fresh_iff]

/-- **No snapshot update is lost**: whatever updates any threads call and in whatever order
they take their steps, if profile, permission and version are, when a `reset` assigns, what
they were when it read, then whenever no update is in progress the snapshot is that of all
updates in some order. -/
theorem applied_of_kept {first : ConnectionSnapshot} {es : List (Cell.Event ι SnapshotUpdate)}
    (h : Machine.Along (Cell.step snapshotUpdates) StateFlow.Kept
      (Cell.new first : StateFlow ι) es) :
    Machine.Always (Cell.step snapshotUpdates) (Cell.Applied snapshotUpdates first)
      (Cell.new first : StateFlow ι) es :=
  Cell.applied_of_along ((along_fresh_iff first es).2 h)

/-- Without a `reset`, no update is lost. -/
theorem applied_of_mutates {first : ConnectionSnapshot} {es : List (Cell.Event ι SnapshotUpdate)}
    (h : ∀ i, .call i .reset ∉ es) :
    Machine.Always (Cell.step snapshotUpdates) (Cell.Applied snapshotUpdates first)
      (Cell.new first : StateFlow ι) es := by
  refine Cell.applied_of_along (Cell.along_fresh_of_looping ?_)
  rintro i (block | _) hmem
  · rfl
  · exact absurd hmem (h i)

/-- A profile is loaded, and then a second thread resets. -/
def loadThenReset : List (Cell.Event Bool SnapshotUpdate) :=
  [.call false (.mutate (.profileLoaded sampleProfile)), .go false, .go false,
    .call true .reset, .go true, .go true]

theorem applied_loadThenReset :
    Machine.Always (Cell.step snapshotUpdates) (Cell.Applied snapshotUpdates {})
      (Cell.new {} : StateFlow Bool) loadThenReset :=
  applied_of_kept (by decide +kernel)

/-- A profile is loaded between the read and the assignment of a reset. -/
def resetAroundLoad : List (Cell.Event Bool SnapshotUpdate) :=
  [.call true .reset, .go true, .call false (.mutate (.profileLoaded sampleProfile)), .go false,
    .go false, .go true]

/-- Resets do not lose a profile that is loaded before them. -/
theorem selectedProfile_applyAll {profile : VlessProfile} {us : List SnapshotUpdate}
    (h : ∀ u ∈ us, u = .mutate (.profileLoaded profile) ∨ u = .reset)
    (hloaded : .mutate (.profileLoaded profile) ∈ us) (first : ConnectionSnapshot) :
    (snapshotUpdates.applyAll first us).selectedProfile = some profile := by
  induction us using List.reverseRecOn with
  | nil => cases hloaded
  | append_singleton us u ih =>
    rw [Cell.applyAll_concat]
    rcases h u (by simp) with rfl | rfl
    · rfl
    · refine ih (fun v hv => h v (List.mem_append_left _ hv)) ?_
      simpa using hloaded

/-- The profile is gone, and no order of the two updates loses it. -/
theorem not_applied : ¬ ∀ es : List (Cell.Event Bool SnapshotUpdate),
    Machine.Always (Cell.step snapshotUpdates) (Cell.Applied snapshotUpdates {})
      (Cell.new {} : StateFlow Bool) es := by
  intro hall
  obtain ⟨us, hperm, hvalue⟩ := (hall resetAroundLoad).last (by decide +kernel)
  have hnone : (Machine.run (Cell.step snapshotUpdates) (Cell.new {} : StateFlow Bool)
      resetAroundLoad).value.selectedProfile = none := by
    decide +kernel
  have hcalls : (Machine.run (Cell.step snapshotUpdates) (Cell.new {} : StateFlow Bool)
      resetAroundLoad).calls = [.reset, .mutate (.profileLoaded sampleProfile)] := rfl
  rw [hvalue, @selectedProfile_applyAll sampleProfile] at hnone
  · cases hnone
  · intro u hu
    simpa [hcalls, or_comm] using hperm.mem_iff.1 hu
  · exact hperm.mem_iff.2 (by simp [hcalls])

end ShadeVpn.Service
