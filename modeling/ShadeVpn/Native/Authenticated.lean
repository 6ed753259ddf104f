import ShadeVpn.Native.Threads

/-!
# No data before authentication

`complete` sets the flag first and writes the keys before it has seen the
confirmation, and it runs outside the session lock.  A probe or a pump start
that reads the flag in between seals records for a server that has proved nothing.

* `authenticated_of_settled` — in every run where no probe and no pump start passes
  its checks while a `complete` on its handshake is under way, every record is
  sealed under a handshake for which a `complete` has returned `Ok`.
* `not_authenticated` — a probe in the middle of a `complete` that is rejected.
-/

namespace ShadeVpn.Native

open Octets Checked Handshake Transport Vless Pump

variable {κ : Type} {C : Crypto κ UInt8} {ι : Type} [DecidableEq ι]

/-! ## The property and the condition -/

/-- The records sealed so far. -/
def Shared.sealed (s : Shared ι κ) : List Sealed := s.past.log.filterMap Effect.record?

/-- Every record was sealed under a handshake that a `complete` has accepted. -/
def Shared.Authenticated (s : Shared ι κ) : Prop := ∀ r ∈ s.sealed, r.handle ∈ s.past.confirmed

instance (s : Shared ι κ) : Decidable s.Authenticated := List.decidableBAll _ _

instance : DecidablePred CallStage.Owns
  | .entered => isFalse id
  | .holding => isTrue trivial
  | .confirming => isTrue trivial
  | .rejecting => isTrue trivial
  | .returned _ => isFalse id

/-- The handshake of a thread in a `complete` past the compare-exchange. -/
def ThreadState.owned : ThreadState κ → Option ℕ
  | .completing h _ _ stage => if stage.Owns then some h.id else none
  | _ => none

/-- A `complete` on handshake `id` has set the flag and has not returned. -/
def Shared.MidComplete (s : Shared ι κ) (id : ℕ) : Prop := ∃ i, (s.thread i).owned = some id

variable [Fintype ι] in
instance (s : Shared ι κ) (id : ℕ) : Decidable (s.MidComplete id) := Fintype.decidableExistsFintype

/-- The handshake on which a probe or a pump start passes its checks in this step. -/
def Shared.passing (s : Shared ι κ) : Act ι κ → Option (Handle κ)
  | .call _ _ => none
  | .step i =>
    match s.thread i with
    | .probing io => if s.lock.isSome then none else (s.current.gate io.clone).toOption
    | .starting _ io => if s.lock.isSome then none else (s.current.gate io.sessionClone).toOption
    | _ => none

/-- Nothing passes its checks on a handshake with a `complete` under way. -/
def Shared.Settled (s : Shared ι κ) (a : Act ι κ) : Prop :=
  ∀ h ∈ s.passing a, ¬ s.MidComplete h.id

variable [Fintype ι] in
instance (s : Shared ι κ) (a : Act ι κ) : Decidable (s.Settled a) :=
  inferInstanceAs (Decidable (∀ h ∈ s.passing a, ¬ s.MidComplete h.id))

/-! ## What every such run keeps -/

/-- The handshake of a thread in a `complete`. -/
def ThreadState.works : ThreadState κ → Option ℕ
  | .completing h _ _ _ => some h.id
  | _ => none

/-- The handshake of a probe or a pump start behind its checks. -/
def ThreadState.passed : ThreadState κ → Option ℕ
  | .sealing h _ => some h.id
  | .reading h _ _ => some h.id
  | _ => none

/-- A set flag is explained by an accepted `complete` or one under way, and whoever
seals or may seal does it under an accepted handshake. -/
structure Shared.Guarded (s : Shared ι κ) : Prop where
  flag : ∀ id st, s.cells id = some st → st.completed = true →
    id ∈ s.past.confirmed ∨ s.MidComplete id
  known : ∀ h ∈ s.session.handshake, (s.cells h.id).isSome
  works : ∀ i, ∀ id ∈ (s.thread i).works, (s.cells id).isSome
  passed : ∀ i, ∀ id ∈ (s.thread i).passed, id ∈ s.past.confirmed
  pump : ∀ t ∈ s.session.pump.threads, t.handle.id ∈ s.past.confirmed
  log : s.Authenticated

/-- A thread that owns no flag moves, and no handshake changes. -/
theorem Shared.Guarded.frame {s s' : Shared ι κ} (h : s.Guarded) {i : ι} {u t : ThreadState κ}
    (here : s.thread i = u) (owned : u.owned = none)
    (hthread : s'.thread = Function.update s.thread i t)
    (hcells : s'.cells = s.cells) (hconfirmed : s'.past.confirmed = s.past.confirmed)
    (known : ∀ hd ∈ s'.session.handshake, (s.cells hd.id).isSome)
    (works : ∀ id ∈ t.works, (s.cells id).isSome)
    (passed : ∀ id ∈ t.passed, id ∈ s.past.confirmed)
    (pump : ∀ u ∈ s'.session.pump.threads, u.handle.id ∈ s.past.confirmed)
    (log : ∀ r ∈ s'.sealed, r.handle ∈ s.past.confirmed) : s'.Guarded := by
  constructor
  · intro id st hst hdone
    rw [hcells] at hst
    rw [hconfirmed]
    rcases h.flag id st hst hdone with hmem | ⟨j, hj⟩
    · exact Or.inl hmem
    · have hij : j ≠ i := by
        rintro rfl
        rw [here, owned] at hj
        cases hj
      refine Or.inr ⟨j, ?_⟩
      rw [hthread, Function.update_of_ne hij]
      exact hj
  · rw [hcells]
    exact known
  · rw [hthread, hcells]
    exact (Function.forall_update_iff s.thread (fun _ u => ∀ id ∈ u.works, (s.cells id).isSome)).2
      ⟨works, fun j _ => h.works j⟩
  · rw [hthread, hconfirmed]
    exact (Function.forall_update_iff s.thread
      (fun _ u => ∀ id ∈ u.passed, id ∈ s.past.confirmed)).2 ⟨passed, fun j _ => h.passed j⟩
  · rw [hconfirmed]
    exact pump
  · unfold Shared.Authenticated
    rw [hconfirmed]
    exact log

/-- `frame` for a thread that neither works on a handshake nor has passed a check
afterwards, and a session that stays as it is or loses its handshake. -/
theorem Shared.Guarded.frame_kept {s s' : Shared ι κ} (h : s.Guarded) {i : ι} {u t : ThreadState κ}
    (here : s.thread i = u) (owned : u.owned = none) (works : t.works = none)
    (passed : t.passed = none) (hthread : s'.thread = Function.update s.thread i t)
    (hcells : s'.cells = s.cells) (hconfirmed : s'.past.confirmed = s.past.confirmed)
    (hlog : s'.past.log = s.past.log)
    (hpump : s'.session.pump.threads = s.session.pump.threads)
    (hhandshake : ∀ hd ∈ s'.session.handshake, hd ∈ s.session.handshake) : s'.Guarded := by
  apply h.frame here owned hthread hcells hconfirmed
  · intro hd hhd
    exact h.known hd (hhandshake hd hhd)
  · rw [works]
    simp
  · rw [passed]
    simp
  · rw [hpump]
    exact h.pump
  · unfold Shared.sealed
    rw [hlog]
    exact h.log

/-- The store of a new handshake, whose flag is not set. -/
theorem Shared.Guarded.install {s : Shared ι κ} (h : s.Guarded) {i : ι} {r : ConnectRequest κ}
    (here : s.thread i = .connecting r none) {state : HandshakeState κ UInt8}
    (hinit : initiate C r.params r.ephemeral r.unixTime = .ok state) :
    ((s.install state).goto i (.installed s.session.created r.vlessParams)).Guarded := by
  have hgrown : ∀ id, (s.cells id).isSome →
      (Function.update s.cells s.session.created (some state) id).isSome := by
    intro id hid
    by_cases heq : id = s.session.created
    · rw [heq, Function.update_self]
      rfl
    · rw [Function.update_of_ne heq]
      exact hid
  constructor
  · intro id st hst hdone
    by_cases heq : id = s.session.created
    · subst heq
      simp only [Shared.goto, Shared.install, Function.update_self] at hst
      cases hst
      rw [(initiate_fresh hinit).2.1] at hdone
      cases hdone
    · simp only [Shared.goto, Shared.install, Function.update_of_ne heq] at hst
      rcases h.flag id st hst hdone with hmem | ⟨j, hj⟩
      · exact Or.inl hmem
      · have hij : j ≠ i := by
          rintro rfl
          rw [here] at hj
          cases hj
        refine Or.inr ⟨j, ?_⟩
        simp only [Shared.goto, Shared.install, Function.update_of_ne hij]
        exact hj
  · rintro hd ⟨⟩
    simp only [Shared.goto, Shared.install, Function.update_self, Option.isSome_some]
  · refine (Function.forall_update_iff s.thread
      (fun _ u => ∀ id ∈ u.works, (Function.update s.cells s.session.created (some state) id).isSome)).2
      ⟨by simp [ThreadState.works], ?_⟩
    intro j _ id hid
    exact hgrown id (h.works j id hid)
  · refine (Function.forall_update_iff s.thread
      (fun _ u => ∀ id ∈ u.passed, id ∈ s.past.confirmed)).2
      ⟨by simp [ThreadState.passed], ?_⟩
    intro j _
    exact h.passed j
  · exact h.pump
  · exact h.log

/-- The flag after a step of `complete`: given back, or explained. -/
theorem Shared.Guarded.advance_flag {s : Shared ι κ} (h : s.Guarded) {i : ι} {hd : Handle κ}
    {bytes : Bytes} {created : ℕ} {stage stage' : CallStage}
    (here : s.thread i = .completing hd bytes created stage) {state : HandshakeState κ UInt8}
    (hmove : CallStage.Moves (hd.now s.cells).state stage state stage')
    (hgoing : ∀ result, stage ≠ .returned result) (hdone : state.completed = true) :
    hd.id ∈ (s.advance hd.id state stage').past.confirmed ∨
      ((s.advance hd.id state stage').goto i
        (.completing hd bytes created stage')).MidComplete hd.id := by
  have howned : stage'.Owns → ((s.advance hd.id state stage').goto i
      (.completing hd bytes created stage')).MidComplete hd.id := by
    intro howns
    refine ⟨i, ?_⟩
    simp only [Shared.goto, Function.update_self, ThreadState.owned, if_pos howns]
  cases hmove with
  | refused hset =>
    obtain ⟨st, hst⟩ := Option.isSome_iff_exists.1
      (h.works i hd.id (by simp [here, ThreadState.works]))
    have hnow : (hd.now s.cells).state = st := by
      simp only [Handle.now, hst, Option.getD_some]
    rw [hnow] at hset
    rcases h.flag hd.id st hst hset with hmem | ⟨j, hj⟩
    · exact Or.inl hmem
    · have hij : j ≠ i := by
        rintro rfl
        rw [here, ThreadState.owned, if_neg (by simp [CallStage.Owns])] at hj
        cases hj
      refine Or.inr ⟨j, ?_⟩
      simp only [Shared.goto, Function.update_of_ne hij]
      exact hj
  | taken => exact Or.inr (howned trivial)
  | failed => exact Or.inr (howned trivial)
  | keyed => exact Or.inr (howned trivial)
  | opened => exact Or.inl List.mem_cons_self
  | gaveBack => cases hdone
  | idle result => exact absurd rfl (hgoing result)

omit [DecidableEq ι] in
/-- What has been accepted stays accepted. -/
theorem Shared.advance_confirmed (s : Shared ι κ) (id : ℕ) (state : HandshakeState κ UInt8)
    (stage : CallStage) {other : ℕ} (h : other ∈ s.past.confirmed) :
    other ∈ (s.advance id state stage).past.confirmed := by
  unfold Shared.advance
  dsimp only
  split
  · exact List.mem_cons_of_mem _ h
  · exact h

/-- A step of `complete`. -/
theorem Shared.Guarded.advance {s : Shared ι κ} (h : s.Guarded) {i : ι} {hd : Handle κ}
    {bytes : Bytes} {created : ℕ} {stage stage' : CallStage}
    (here : s.thread i = .completing hd bytes created stage) {state : HandshakeState κ UInt8}
    (hmove : CallStage.Moves (hd.now s.cells).state stage state stage')
    (hgoing : ∀ result, stage ≠ .returned result) :
    ((s.advance hd.id state stage').goto i (.completing hd bytes created stage')).Guarded := by
  have hgrown : ∀ id, (s.cells id).isSome →
      (Function.update s.cells hd.id (some state) id).isSome := by
    intro id hid
    by_cases heq : id = hd.id
    · rw [heq, Function.update_self]
      rfl
    · rw [Function.update_of_ne heq]
      exact hid
  have hworks := h.works i hd.id (by simp [here, ThreadState.works])
  constructor
  · intro id st hst hdone
    by_cases heq : id = hd.id
    · subst heq
      simp only [Shared.goto, Shared.advance, Function.update_self] at hst
      cases hst
      exact h.advance_flag here hmove hgoing hdone
    · simp only [Shared.goto, Shared.advance, Function.update_of_ne heq] at hst
      rcases h.flag id st hst hdone with hmem | ⟨j, hj⟩
      · exact Or.inl (Shared.advance_confirmed s hd.id state stage' hmem)
      · have hij : j ≠ i := by
          rintro rfl
          rw [here, ThreadState.owned] at hj
          split_ifs at hj
          exact heq (Option.some.inj hj).symm
        refine Or.inr ⟨j, ?_⟩
        simp only [Shared.goto, Function.update_of_ne hij]
        exact hj
  · intro hd' hhd'
    exact hgrown hd'.id (h.known hd' hhd')
  · refine (Function.forall_update_iff s.thread
      (fun _ u => ∀ id ∈ u.works, (Function.update s.cells hd.id (some state) id).isSome)).2
        ⟨?_, ?_⟩
    · rintro id ⟨⟩
      exact hgrown hd.id hworks
    · intro j _ id hid
      exact hgrown id (h.works j id hid)
  · refine (Function.forall_update_iff s.thread
      (fun _ u => ∀ id ∈ u.passed, id ∈ (s.advance hd.id state stage').past.confirmed)).2
      ⟨by simp [ThreadState.passed], ?_⟩
    intro j _ id hid
    exact Shared.advance_confirmed s hd.id state stage' (h.passed j id hid)
  · intro t ht
    exact Shared.advance_confirmed s hd.id state stage' (h.pump t ht)
  · intro r hr
    exact Shared.advance_confirmed s hd.id state stage' (h.log r hr)

omit [DecidableEq ι] in
/-- What passes the checks has been accepted, unless a `complete` is under way on it. -/
theorem Shared.Guarded.passes {s : Shared ι κ} (h : s.Guarded) {clone : Option String}
    {hd : Handle κ} (hgate : s.current.gate clone = .ok hd) (hsettled : ¬ s.MidComplete hd.id) :
    hd.id ∈ s.past.confirmed := by
  obtain ⟨hcurrent, hdone, -⟩ := gate_ok hgate
  obtain ⟨hd', hhd', rfl⟩ := Option.map_eq_some_iff.1 hcurrent
  obtain ⟨st, hst⟩ := Option.isSome_iff_exists.1 (h.known hd' hhd')
  have hflag : st.completed = true := by
    simpa only [Handle.now, hst, Option.getD_some] using hdone
  exact (h.flag hd'.id st hst hflag).resolve_right hsettled

/-- A thread that passes its checks holds a handshake whose `complete` has accepted. -/
theorem Shared.Guarded.pass {s : Shared ι κ} (h : s.Guarded) {i : ι} {u t : ThreadState κ}
    {clone : Option String} {hd : Handle κ} (here : s.thread i = u) (owned : u.owned = none)
    (hgate : s.current.gate clone = .ok hd) (hsettled : ¬ s.MidComplete hd.id)
    (works : t.works = none) (passed : t.passed = some hd.id) :
    ({ s with lock := some i }.goto i t).Guarded := by
  refine h.frame here owned rfl rfl rfl h.known ?_ ?_ h.pump h.log
  · rw [works]
    rintro id ⟨⟩
  · rw [passed]
    rintro id ⟨⟩
    exact h.passes hgate hsettled

omit [DecidableEq ι] in
theorem Shared.sealed_after (s : Shared ι κ) (o : Outcome κ) :
    (s.after o).sealed = s.sealed ++ o.effects.filterMap Effect.record? :=
  List.filterMap_append

/-- A step that changes its thread only. -/
theorem Shared.Guarded.goto {s : Shared ι κ} (h : s.Guarded) {i : ι} {u t : ThreadState κ}
    (here : s.thread i = u) (owned : u.owned = none) (works : t.works = none)
    (passed : t.passed = none) : (s.goto i t).Guarded :=
  h.frame_kept here owned works passed rfl rfl rfl rfl rfl fun _ hhd => hhd

/-- A turn of a pump thread, which works on the session as it is now. -/
theorem Shared.Guarded.turn {s : Shared ι κ} (h : s.Guarded) {i : ι} {e : TunRead ⊕ SocketRead}
    (here : s.thread i = .turning e) {o : Outcome κ}
    (hsession : ∃ pump, o.session = { s.current with pump } ∧ pump.stop = s.current.pump.stop)
    (hthreads : ∀ t ∈ o.session.pump.threads, ∃ t' ∈ s.current.pump.threads, t.handle = t'.handle)
    (hsealed : ∀ r, Effect.sealed r ∈ o.effects →
      ∃ t' ∈ s.current.pump.threads, r.handle = t'.handle.id) :
    ((s.after o).goto i (.returned o.result)).Guarded := by
  have hpump : ∀ t ∈ s.current.pump.threads, t.handle.id ∈ s.past.confirmed := by
    intro t ht
    obtain ⟨t', ht', rfl⟩ := Option.mem_map.1 ht
    exact h.pump t' ht'
  refine h.frame here rfl rfl rfl rfl ?_ ?_ ?_ ?_ ?_
  · intro hd hhd
    obtain ⟨pump, hsession, -⟩ := hsession
    replace hhd : hd ∈ o.session.handshake := hhd
    rw [hsession] at hhd
    obtain ⟨hd', hhd', rfl⟩ := Option.mem_map.1 hhd
    exact h.known hd' hhd'
  · simp [ThreadState.works]
  · simp [ThreadState.passed]
  · intro t ht
    obtain ⟨t', ht', hsame⟩ := hthreads t ht
    rw [hsame]
    exact hpump t' ht'
  · intro r hr
    rcases List.mem_append.1 (s.sealed_after o ▸ hr) with hold | hnew
    · exact h.log r hold
    · obtain ⟨t', ht', hsame⟩ := hsealed r (mem_records.1 hnew)
      rw [hsame]
      exact hpump t' ht'

/-- A probe and a pump start behind their checks. -/
theorem Shared.Guarded.sealed {s : Shared ι κ} (h : s.Guarded) {i : ι} {hd : Handle κ}
    {io : ProbeIo}
    (here : s.thread i = .sealing hd io) :
    ({ s.after (s.session.probeOn C (hd.now s.cells) io) with lock := none }.goto i
      (.returned (s.session.probeOn C (hd.now s.cells) io).result)).Guarded := by
  obtain ⟨⟨nextOut, nextIn, hsession⟩, hsealed⟩ := probeOn_keeps (C := C) s.session (hd.now s.cells) io
  have haccepted : hd.id ∈ s.past.confirmed := h.passed i hd.id (by rw [here]; rfl)
  refine h.frame here rfl rfl rfl rfl ?_ ?_ ?_ ?_ ?_
  · intro hd' hhd'
    replace hhd' : hd' ∈ (s.session.probeOn C (hd.now s.cells) io).session.handshake := hhd'
    rw [hsession] at hhd'
    exact h.known hd' hhd'
  · simp [ThreadState.works]
  · simp [ThreadState.passed]
  · intro t ht
    replace ht : t ∈ (s.session.probeOn C (hd.now s.cells) io).session.pump.threads := ht
    rw [hsession] at ht
    exact h.pump t ht
  · intro r hr
    rcases List.mem_append.1 (s.sealed_after _ ▸ hr) with hold | hnew
    · exact h.log r hold
    · rw [hsealed r (mem_records.1 hnew)]
      exact haccepted

theorem Shared.Guarded.read {s : Shared ι κ} (h : s.Guarded) {i : ι} {hd : Handle κ}
    {blockIpv6 : Bool} {io : StartIo} (here : s.thread i = .reading hd blockIpv6 io) :
    ({ s.afterStart hd (s.session.startPumpOn (hd.now s.cells) blockIpv6 io) with lock := none }.goto i
      (.returned (s.session.startPumpOn (hd.now s.cells) blockIpv6 io).result)).Guarded := by
  obtain ⟨⟨pump, hsession⟩, heffects, hthreads⟩ :=
    startPumpOn_keeps s.session (hd.now s.cells) blockIpv6 io
  have haccepted : hd.id ∈ s.past.confirmed := h.passed i hd.id (by rw [here]; rfl)
  refine h.frame here rfl rfl rfl rfl ?_ ?_ ?_ ?_ ?_
  · intro hd' hhd'
    replace hhd' : hd' ∈ (s.session.startPumpOn (hd.now s.cells) blockIpv6 io).session.handshake :=
      hhd'
    rw [hsession] at hhd'
    exact h.known hd' hhd'
  · simp [ThreadState.works]
  · simp [ThreadState.passed]
  · intro t ht
    rcases hthreads t ht with hold | hnew
    · exact h.pump t hold
    · rw [hnew]
      exact haccepted
  · intro r hr
    rcases List.mem_append.1 (s.sealed_after _ ▸ hr) with hold | hnew
    · exact h.log r hold
    · rw [heffects] at hnew
      cases hnew

/-- **A step keeps the session guarded** unless something passes its checks with a
`complete` under way. -/
theorem Shared.Guarded.step {s : Shared ι κ} (h : s.Guarded) {i : ι}
    (hsettled : s.Settled (.step i)) : (s.step C i).Guarded := by
  have hmove := Shared.step_moves (C := C) s i
  generalize s.step C i = s' at hmove
  cases hmove with
  | idle => exact h
  | unreached here e => exact h.goto here rfl rfl rfl
  | install here hinit free => exact h.install here hinit
  | storeVless here =>
    exact h.frame_kept here rfl rfl rfl rfl rfl rfl rfl rfl fun _ hhd => hhd
  | noClone here e => exact h.goto here rfl rfl rfl
  | clone here hh free =>
    refine h.frame here rfl rfl rfl rfl h.known ?_ ?_ ?_ ?_
    · rintro id ⟨⟩
      exact h.known _ hh
    · simp [ThreadState.passed]
    · exact h.pump
    · exact h.log
  | accepted here => exact h.goto here rfl rfl rfl
  | refused here => exact h.goto here rfl rfl rfl
  | advance here hmove hgoing => exact h.advance here hmove hgoing
  | dropRejected here free => exact h.frame_kept here rfl rfl rfl rfl rfl rfl rfl rfl (by rintro _ ⟨⟩)
  | drop here free => exact h.frame_kept here rfl rfl rfl rfl rfl rfl rfl rfl (by rintro _ ⟨⟩)
  | clear here => exact h.frame_kept here rfl rfl rfl rfl rfl rfl rfl rfl fun _ hhd => hhd
  | noProbe here e => exact h.goto here rfl rfl rfl
  | @probe io here free hd hgate =>
    have hpassing : s.passing (.step i) = some hd := by
      simp only [Shared.passing, here, free, hgate, Option.isSome_none, Bool.false_eq_true,
        if_false, Except.toOption]
    exact h.pass here rfl hgate (hsettled hd hpassing) rfl rfl
  | sealed here => exact h.sealed here
  | noStart here e => exact h.goto here rfl rfl rfl
  | @start blockIpv6 io here free hd hgate =>
    have hpassing : s.passing (.step i) = some hd := by
      simp only [Shared.passing, here, free, hgate, Option.isSome_none, Bool.false_eq_true,
        if_false, Except.toOption]
    exact h.pass here rfl hgate (hsettled hd hpassing) rfl rfl
  | read here => exact h.read here
  | stop here free => exact h.frame_kept here rfl rfl rfl rfl rfl rfl rfl rfl fun _ hhd => hhd
  | @outbound e here =>
    obtain ⟨hthreads, hsealed⟩ := outboundTurn_threads (C := C) s.current e
    exact h.turn here (outboundTurn_pump s.current e) hthreads hsealed
  | @inbound e here =>
    obtain ⟨hthreads, hsealed⟩ := inboundTurn_threads (C := C) s.current e
    refine h.turn here (inboundTurn_pump s.current e) hthreads ?_
    intro r hr
    exact absurd hr (hsealed r)

theorem Shared.Guarded.act {s : Shared ι κ} (h : s.Guarded) (a : Act ι κ) (hsettled : s.Settled a) :
    (s.act C a).Guarded := by
  cases a with
  | step i => exact h.step hsettled
  | call i op =>
    unfold Shared.act
    dsimp only
    split
    · next result here => cases op <;> exact h.goto here rfl rfl rfl
    · exact h

omit [DecidableEq ι] in
theorem guarded_new : (Shared.new : Shared ι κ).Guarded := by
  constructor
  · rintro id st ⟨⟩
  · rintro hd ⟨⟩
  · rintro i id ⟨⟩
  · rintro i id ⟨⟩
  · rintro t ⟨⟩
  · rintro r hr
    cases hr

/-- **No data before authentication**, in runs where nothing passes its checks in the
middle of a `complete`.  Threads call connect, complete, probe, start and stop of
the pump and disconnect, with any arguments, and take their steps in any order; in
every state of the run, each record so far was sealed under a handshake for which
a `complete` had returned `Ok`. -/
theorem authenticated_of_settled {es : List (Act ι κ)}
    (h : Machine.Along (Shared.act C) Shared.Settled Shared.new es) :
    Machine.Always (Shared.act C) Shared.Authenticated Shared.new es := by
  have hguarded := Machine.always_of_along (fun s a hs hsettled => hs.act (C := C) a hsettled) es
    guarded_new h
  exact hguarded.imp fun s hs => hs.log

/-- One thread connects, completes and has probed. -/
def probedRun : List (Act Bool UInt8) :=
  Act.calls false (.connect sampleRequest none) 2 ++
    Act.calls false (.complete (some sampleResponse)) 5 ++
    Act.calls false (.probe ⟨none, none, .ok none⟩) 2

theorem authenticated_of_settled_probed :
    (Machine.run (Shared.act Crypto.toy) Shared.new probedRun).sealed ≠ [] ∧
      Machine.Always (Shared.act Crypto.toy) Shared.Authenticated Shared.new probedRun := by
  have h : (Machine.run (Shared.act Crypto.toy) Shared.new probedRun).sealed ≠ [] ∧
      Machine.Along (Shared.act Crypto.toy) Shared.Settled Shared.new probedRun := by
    decide +kernel
  exact ⟨h.1, authenticated_of_settled h.2⟩

/-- A server's response with a bad confirmation.  Thread `true` probes when thread
`false` has written the keys in `complete` and has not opened the confirmation;
then that `complete` is rejected. -/
def earlyProbeRun : List (Act Bool UInt8) :=
  Act.calls false (.connect sampleRequest none) 2 ++
    Act.calls false (.complete (some (sampleResponse.dropLast ++ [0]))) 3 ++
    Act.calls true (.probe ⟨none, none, .ok none⟩) 2 ++ Act.steps false 5

/-- **A probe before authentication**: it seals a record under a handshake that no
`complete` ever accepts. -/
theorem not_authenticated :
    ¬ ∀ es : List (Act Bool UInt8),
      Machine.Always (Shared.act Crypto.toy) Shared.Authenticated Shared.new es := by
  intro h
  have hlast := (h earlyProbeRun).last
  revert hlast
  decide +kernel

end ShadeVpn.Native
