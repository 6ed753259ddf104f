import ShadeVpn.Service.VpnService

/-!
# The TUN of a pump

A pump start that succeeds is to be given the descriptor of a TUN that is open and
belongs to the command whose session is installed.  The connect thread looks at the
generation before the start; its descriptor, `tunInterface` and the native session
may be another command's by then.

* `pumpTun_of_inOrder` — it is given such a TUN in every run where the threads of
  older commands keep out of the last command's way.
* `not_pumpTun` — a STOP that is still to close its TUN closes the next START's.
-/

namespace ShadeVpn.Native

open Octets Checked Handshake Transport Vless Pump

variable {κ : Type} {C : Crypto κ UInt8} {ι : Type} [DecidableEq ι]

/-! ## What a native step leaves -/

/-- A thread whose connect has stored its session. -/
def ThreadState.hasStored : ThreadState κ → Bool
  | .installed _ _ | .returned (.ok ()) => true
  | _ => false

/-- A native step stores a session, or counts no connect. -/
theorem Shared.Moves.created {s s' : Shared ι κ} {i : ι} (hmove : Shared.Moves C s i s') :
    s'.session.created = s.session.created ∨
      ∃ r, s.thread i = .connecting r none ∧ s.lock = none ∧
        (initiate C r.params r.ephemeral r.unixTime).toBool = true := by
  cases hmove with
  | install here hinit free => exact Or.inr ⟨_, here, free, by rw [hinit]; rfl⟩
  | @sealed h io =>
    obtain ⟨⟨nextOut, nextIn, hsession⟩, -⟩ := probeOn_keeps (C := C) s.session (h.now s.cells) io
    left
    simp only [Shared.goto, Shared.after, hsession]
  | @outbound e =>
    obtain ⟨pump, hsession, -⟩ := outboundTurn_pump (C := C) s.current e
    left
    simp only [Shared.goto, Shared.after, hsession]
    rfl
  | @inbound e =>
    obtain ⟨pump, hsession, -⟩ := inboundTurn_pump (C := C) s.current e
    left
    simp only [Shared.goto, Shared.after, hsession]
    rfl
  | _ => exact Or.inl rfl

/-- A native step starts the pump, or counts no start. -/
theorem Shared.Moves.started {s s' : Shared ι κ} {i : ι} (hmove : Shared.Moves C s i s') :
    s'.past.started.length = s.past.started.length ∨
      ∃ h blockIpv6 io, s.thread i = .reading h blockIpv6 io ∧ s.session.pump.running = false ∧
        io.outClone = none := by
  cases hmove with
  | @read h blockIpv6 io here =>
    cases hresult : (s.session.startPumpOn (h.now s.cells) blockIpv6 io).result with
    | error e =>
      left
      simp only [Shared.goto, Shared.afterStart, hresult]
    | ok =>
      obtain ⟨hrunning, hclone⟩ := startPumpOn_ok hresult
      exact Or.inr ⟨h, blockIpv6, io, here, hrunning, hclone⟩
  | _ => exact Or.inl rfl

end ShadeVpn.Native

namespace ShadeVpn.Service

open Octets Checked Handshake Transport Pump Native

variable {ι κ : Type} [DecidableEq ι] {C : Crypto κ UInt8} {os : Platform}

/-! ## The property and the condition -/

/-- Every pump start that succeeded was given the descriptor of an open TUN of the
command whose session was installed. -/
def ShadeVpnService.PumpTun (s : ShadeVpnService ι κ) : Prop :=
  ∀ p ∈ s.starts, ∃ generation ∈ p.tuns, p.session = some generation

/-- The next step of thread `i` starts the pump. -/
def ShadeVpnService.startsPump (s : ShadeVpnService ι κ) (i : ι) : Bool :=
  match s.native.thread i with
  | .reading _ _ io => !s.native.session.pump.running && io.outClone.isNone
  | _ => false

/-- The next step of thread `i`, the connect thread of the last command, takes the
descriptor of another command's TUN. -/
def ShadeVpnService.takesOther (s : ShadeVpnService ι κ) (i : ι) : Bool :=
  match s.thread i with
  | .connect ⟨generation, _, _, _, [], .fetched (some tun)⟩ =>
    generation == s.connectGeneration &&
      s.tuns[tun]?.any fun t => t.isOpen && t.generation != generation
  | _ => false

/-- The next step of thread `i`, a disconnect thread, closes the TUN of the last
command. -/
def ShadeVpnService.closesLast (s : ShadeVpnService ι κ) (i : ι) : Bool :=
  match s.thread i with
  | .disconnect ⟨_, [], .closing (some tun)⟩ =>
    s.tuns[tun]?.any fun t => t.isOpen && t.generation == s.connectGeneration
  | _ => false

variable (C) in
/-- A step of thread `i` that keeps to the order of the commands: it starts the pump only
for the last one, stores no session over the last one's, takes for the last one no TUN
but its own, and does not close that one. -/
structure ShadeVpnService.KeepsOrder (s : ShadeVpnService ι κ) (i : ι) : Prop where
  start : s.startsPump i = true → (s.thread i).generation = some s.connectGeneration
  store : s.stores C i = true →
    (s.thread i).generation = some s.connectGeneration ∨ s.sessionOf ≠ some s.connectGeneration
  take : s.takesOther i = false
  close : s.closesLast i = false

instance (s : ShadeVpnService ι κ) (i : ι) : Decidable (s.KeepsOrder C i) :=
  decidable_of_iff
    ((s.startsPump i = true → (s.thread i).generation = some s.connectGeneration) ∧
      (s.stores C i = true → (s.thread i).generation = some s.connectGeneration ∨
        s.sessionOf ≠ some s.connectGeneration) ∧
      s.takesOther i = false ∧ s.closesLast i = false)
    ⟨fun ⟨start, store, take, close⟩ => ⟨start, store, take, close⟩,
      fun h => ⟨h.start, h.store, h.take, h.close⟩⟩

variable (C) in
/-- The threads of older commands keep out of the last command's way. -/
def ShadeVpnService.InOrder (s : ShadeVpnService ι κ) : Event ι κ → Prop
  | .step i _ => s.KeepsOrder C i
  | _ => True

instance (s : ShadeVpnService ι κ) : DecidablePred (s.InOrder C)
  | .step i _ => inferInstanceAs (Decidable (s.KeepsOrder C i))
  | .start _ _ _ | .stop _ | .turn _ => isTrue trivial

/-! ## Threads in their calls -/

/-- The native call a thread is in. -/
def ServiceThread.call : ServiceThread → Option Call
  | .finished => none
  | .connect t => t.stage.call
  | .disconnect t => t.stage.call

/-- Where a thread can stand in the native layer during a call. -/
def Within (call : Option Call) : ThreadState κ → Prop
  | .returned _ => True
  | .connecting _ _ | .installed _ _ => call = some .connect
  | .cloning _ | .completing _ _ _ _ | .rejected _ _ _ => call = some .complete
  | .clearing _ => call = some .complete ∨ call = some .disconnect
  | .probing _ | .sealing _ _ => call = some .probe
  | .starting _ _ | .reading _ _ _ => call = some .startPump
  | .disconnecting => call = some .disconnect
  | .stopping | .turning _ => False

theorem within_entry {op : Op κ} {call : Call} (h : opCall op = some call) :
    Within (some call) op.entry := by
  cases op with
  | stopPump => cases h
  | outbound => cases h
  | inbound => cases h
  | _ => exact h.symm

/-- A step of a native call stays in the call. -/
theorem within_step {s s' : Shared ι κ} {i : ι} {call : Option Call}
    (hmove : Shared.Moves C s i s') (h : Within call (s.thread i)) : Within call (s'.thread i) := by
  have hgoto : ∀ t : ThreadState κ, Within call t →
    Within call (Function.update s.thread i t i) := by
    intro t ht
    rwa [Function.update_self]
  cases hmove with
  | idle => exact h
  | install here => exact hgoto _ (by rwa [here] at h)
  | clone here => exact hgoto _ (by rwa [here] at h)
  | refused here => exact hgoto _ (by rwa [here] at h)
  | advance here => exact hgoto _ (by rwa [here] at h)
  | dropRejected here => exact hgoto _ (Or.inl (by rwa [here] at h))
  | drop here => exact hgoto _ (Or.inr (by rwa [here] at h))
  | probe here => exact hgoto _ (by rwa [here] at h)
  | start here => exact hgoto _ (by rwa [here] at h)
  | _ => exact hgoto _ trivial

/-- A connect that has stored its session had before, or does so now. -/
theorem hasStored_step {s s' : Shared ι κ} {i : ι} (hmove : Shared.Moves C s i s')
    (hcall : Within (some .connect) (s.thread i)) (hstored : (s'.thread i).hasStored = true) :
    (s.thread i).hasStored = true ∨ s'.session.created ≠ s.session.created := by
  have hleft : ∀ t : ThreadState κ, (Function.update s.thread i t i).hasStored = true →
      t.hasStored = true := by
    intro t ht
    rwa [Function.update_self] at ht
  cases hmove with
  | idle => exact Or.inl hstored
  | unreached here e => cases hleft _ hstored
  | install here hinit free => exact Or.inr (Nat.succ_ne_self _)
  | storeVless here =>
    left
    rw [here]
    rfl
  | clear here =>
    rw [here] at hcall
    rcases hcall with hcall | hcall <;> cases hcall
  | _ here =>
    rw [here] at hcall
    cases hcall

/-! ## The TUNs -/

omit [DecidableEq ι] in
theorem mem_tunsOf {s : ShadeVpnService ι κ} {fd : Int32} {generation : ℕ} :
    generation ∈ s.tunsOf fd ↔
      ∃ tun ∈ s.tuns, tun.isOpen = true ∧ tun.fd = fd ∧ tun.generation = generation := by
  simp only [ShadeVpnService.tunsOf, List.mem_map, List.mem_filter, Bool.and_eq_true, beq_iff_eq,
    and_assoc]

omit [DecidableEq ι] in
/-- A TUN stays open when another is closed. -/
theorem mem_tunsOf_close {s : ShadeVpnService ι κ} {fd : Int32} {generation tun : ℕ}
    (h : generation ∈ s.tunsOf fd)
    (hother : (s.tuns[tun]?.any fun t => t.isOpen && t.generation == generation) = false) :
    generation ∈ (s.close tun).tunsOf fd := by
  obtain ⟨own, hmem, hopen, hfd, rfl⟩ := mem_tunsOf.1 h
  obtain ⟨k, hk⟩ := List.mem_iff_getElem?.1 hmem
  refine mem_tunsOf.2 ⟨own, List.mem_iff_getElem?.2 ⟨k, ?_⟩, hopen, hfd, rfl⟩
  have hne : tun ≠ k := by
    rintro rfl
    simp [hk, hopen] at hother
  simp only [ShadeVpnService.close, List.getElem?_modify, if_neg hne, hk, Option.map_eq_map,
    Option.map_some]

/-! ## What every such run keeps -/

/-- What connect thread `i` of the last command has: behind the look at its descriptor its
own TUN, behind its connect its own session. -/
structure ShadeVpnService.Owns (s : ShadeVpnService ι κ) (i : ι) (t : ConnectThread) : Prop where
  tun : t.stage.part ∈ [.attempt, .connecting, .session] ∨
    t.stage.part = .established ∧ ¬ t.fd < 0 → t.generation ∈ s.tunsOf t.fd
  session : t.stage.part = .session ∨
    t.stage.part = .connecting ∧ (s.native.thread i).hasStored = true →
      s.sessionOf = some t.generation

/-- Every thread is in its call, no command is to come yet, and the connect thread of the
last one has what it is to have. -/
structure ShadeVpnService.Paired (s : ShadeVpnService ι κ) : Prop where
  calls : ∀ i, Within (s.thread i).call (s.native.thread i)
  generations : ∀ i, ∀ generation ∈ (s.thread i).generation, generation ≤ s.connectGeneration
  owns : ∀ i t, s.thread i = .connect t → t.generation = s.connectGeneration → s.Owns i t
  pumpTun : s.PumpTun

/-- A step of thread `i` outside the native layer that closes no TUN of the last command. -/
theorem ShadeVpnService.Paired.beside {s s' : ShadeVpnService ι κ} (h : s.Paired) {i : ι}
    (hbeside : s.Beside i s')
    (htuns : ∀ fd, s.connectGeneration ∈ s.tunsOf fd → s.connectGeneration ∈ s'.tunsOf fd)
    (hcall : Within (s'.thread i).call (s'.native.thread i))
    (hgeneration : ∀ generation ∈ (s'.thread i).generation, generation ≤ s.connectGeneration)
    (howns : ∀ t, s'.thread i = .connect t → t.generation = s.connectGeneration → s'.Owns i t) :
    s'.Paired := by
  have hnative : ∀ j, j ≠ i → s'.native.thread j = s.native.thread j := by
    intro j hji
    rcases hbeside.native with hsame | ⟨op, hcall⟩
    · rw [hsame]
    · rw [hcall]
      exact Function.update_of_ne hji _ _
  constructor
  · intro j
    by_cases hji : j = i
    · rw [hji]
      exact hcall
    · rw [hbeside.thread j hji, hnative j hji]
      exact h.calls j
  · intro j
    rw [hbeside.connectGeneration]
    by_cases hji : j = i
    · rw [hji]
      exact hgeneration
    · rw [hbeside.thread j hji]
      exact h.generations j
  · intro j t
    rw [hbeside.connectGeneration]
    intro hthread hlast
    by_cases hji : j = i
    · subst hji
      exact howns t hthread hlast
    · rw [hbeside.thread j hji] at hthread
      have hold := h.owns j t hthread hlast
      constructor
      · intro hpart
        have hmem := hold.tun hpart
        rw [hlast] at hmem ⊢
        exact htuns _ hmem
      · rw [hnative j hji, hbeside.sessionOf]
        exact hold.session
  · rw [ShadeVpnService.PumpTun, hbeside.starts]
    exact h.pumpTun

/-- A step of a thread that is no connect thread, or one no more. -/
theorem ShadeVpnService.Paired.aside {s s' : ShadeVpnService ι κ} (h : s.Paired) {i : ι}
    (hbeside : s.Beside i s')
    (htuns : ∀ fd, s.connectGeneration ∈ s.tunsOf fd → s.connectGeneration ∈ s'.tunsOf fd)
    (hcall : Within (s'.thread i).call (s'.native.thread i))
    (hthread : s'.thread i = .finished ∨ ∃ t : DisconnectThread,
      s'.thread i = .disconnect t ∧ t.generation ≤ s.connectGeneration) : s'.Paired := by
  refine h.beside hbeside htuns hcall ?_ ?_
  · rcases hthread with hthread | ⟨t, hthread, hgeneration⟩
    · rw [hthread]
      rintro _ ⟨⟩
    · rw [hthread]
      rintro _ ⟨⟩
      exact hgeneration
  · rcases hthread with hthread | ⟨t, hthread, -⟩
    · rw [hthread]
      rintro _ ⟨⟩
    · rw [hthread]
      rintro _ ⟨⟩

omit [DecidableEq ι] in
/-- There is nothing to have before the look at the descriptor and on the way out. -/
theorem owns_nothing {s : ShadeVpnService ι κ} {i : ι} {t : ConnectThread}
    (hpart : t.stage.part = .early ∨ t.stage.part = .leaving) : s.Owns i t := by
  constructor <;> rcases hpart with hpart | hpart <;> simp [hpart]

/-- A step of connect thread `i`. -/
theorem ShadeVpnService.Paired.own {s s' : ShadeVpnService ι κ} (h : s.Paired) {i : ι}
    (hbeside : s.Beside i s')
    (htuns : ∀ fd, s.connectGeneration ∈ s.tunsOf fd → s.connectGeneration ∈ s'.tunsOf fd)
    (hcall : Within (s'.thread i).call (s'.native.thread i)) {t t' : ConnectThread}
    (here : s.thread i = .connect t) (hthread : s'.thread i = .connect t')
    (hgeneration : t'.generation = t.generation)
    (howns : t.generation = s.connectGeneration → s'.Owns i t') : s'.Paired := by
  refine h.beside hbeside htuns hcall ?_ ?_
  · rw [hthread]
    rintro _ ⟨⟩
    rw [hgeneration]
    exact h.generations i _ (by rw [here]; rfl)
  · intro u hu hlast
    obtain rfl : t' = u := ServiceThread.connect.inj (hthread.symm.trans hu)
    exact howns (hgeneration ▸ hlast)

/-- Connect thread `i` goes on. -/
theorem ShadeVpnService.Paired.goto {s : ShadeVpnService ι κ} (h : s.Paired) {i : ι}
    {t t' : ConnectThread} (here : s.thread i = .connect t) {result : Except SessionError Unit}
    (back : s.native.thread i = .returned result) (hgeneration : t'.generation = t.generation)
    (howns : t.generation = s.connectGeneration → (s.goto i (.connect t')).Owns i t') :
    (s.goto i (.connect t')).Paired := by
  refine h.own (s.beside_goto i _) (fun _ hmem => hmem) ?_ here (Function.update_self ..)
    hgeneration howns
  show Within _ (s.native.thread i)
  rw [back]
  trivial

/-- Connect thread `i` calls into the native layer. -/
theorem ShadeVpnService.Paired.call {s : ShadeVpnService ι κ} (h : s.Paired) {i : ι}
    {t t' : ConnectThread} (here : s.thread i = .connect t) {op : Op κ} {call : Call}
    (hop : opCall op = some call) (hcall : t'.stage.call = some call)
    (hgeneration : t'.generation = t.generation)
    (howns : t.generation = s.connectGeneration →
      ((s.goto i (.connect t')).call i op).Owns i t') :
    ((s.goto i (.connect t')).call i op).Paired := by
  have hthread : ((s.goto i (.connect t')).call i op).thread i = .connect t' :=
    Function.update_self ..
  have hentry : ((s.goto i (.connect t')).call i op).native.thread i = op.entry :=
    Function.update_self ..
  refine h.own (s.beside_call i _ op) (fun _ hmem => hmem) ?_ here hthread hgeneration howns
  rw [hthread, hentry]
  show Within t'.stage.call op.entry
  rw [hcall]
  exact within_entry hop

/-- A step of connect thread `i` outside the native layer that takes no other TUN. -/
theorem ShadeVpnService.Paired.connect {s s' : ShadeVpnService ι κ} (h : s.Paired) {i : ι}
    {t : ConnectThread} (here : s.thread i = .connect t) (ready : t.acts = [])
    {result : Except SessionError Unit} (back : s.native.thread i = .returned result)
    (hcont : s.Continues i t result s') (htake : s.takesOther i = false) : s'.Paired := by
  have hown : t.generation = s.connectGeneration → s.Owns i t := h.owns i t here
  have hbeside := hcont.beside
  cases hcont with
  | wait => exact h
  | finish =>
    refine h.aside hbeside (fun _ hmem => hmem) ?_ (Or.inl (Function.update_self ..))
    show Within _ (s.native.thread i)
    rw [back]
    trivial
  | early acts stage hpart hcall =>
    exact h.goto here back rfl fun _ => owns_nothing (Or.inl hpart)
  | leave acts stage hpart hcall =>
    exact h.goto here back rfl fun _ => owns_nothing (Or.inr hpart)
  | establish tuns htuns tunInterface =>
    refine h.own hbeside ?_ ?_ here (Function.update_self ..) rfl fun _ => owns_nothing (Or.inl rfl)
    · intro fd hmem
      obtain ⟨tun, htun, hrest⟩ := mem_tunsOf.1 hmem
      exact mem_tunsOf.2 ⟨tun, List.mem_append_left _ htun, hrest⟩
    · show Within _ (s.native.thread i)
      rw [back]
      trivial
  | fetch tun hstage fd acts hfd =>
    refine h.goto here back rfl fun hlast => ⟨?_, by simp [Stage.part]⟩
    rintro (hpart | ⟨-, hnonneg⟩)
    · simp [Stage.part] at hpart
    · obtain ⟨k, generation, rfl, hk⟩ := hfd.resolve_left hnonneg
      have hsame : generation = t.generation := by
        obtain ⟨own, blockIpv6, fd', backoff, acts', stage⟩ := t
        dsimp only at ready hstage hlast
        subst ready hstage hlast
        simpa [ShadeVpnService.takesOther, here, hk] using htake
      exact mem_tunsOf.2 ⟨_, List.mem_of_getElem? hk, rfl, rfl, hsame⟩
  | attempt backoff acts stage hfrom hpart hcall =>
    exact h.goto here back rfl fun hlast => ⟨fun _ => (hown hlast).tun hfrom, by simp [hpart]⟩
  | connect request io answer hfrom =>
    refine h.call here rfl rfl rfl fun hlast => ⟨fun _ => (hown hlast).tun ?_, ?_⟩
    · simp [hfrom]
    · simp [Stage.part, ShadeVpnService.call, ShadeVpnService.goto, Shared.goto, Op.entry,
        ThreadState.hasStored]
  | connected answer hstage hok acts =>
    refine h.goto here back rfl fun hlast =>
      ⟨fun _ => (hown hlast).tun ?_, fun _ => (hown hlast).session ?_⟩
    · simp [hstage, Stage.part]
    · simp [hstage, Stage.part, back, hok, ThreadState.hasStored]
  | session acts stage hfrom hpart hcall =>
    exact h.goto here back rfl fun hlast =>
      ⟨fun _ => (hown hlast).tun (by simp [hfrom]), fun _ => (hown hlast).session (Or.inl hfrom)⟩
  | sessionCall stage op hfrom hpart hop hcall =>
    exact h.call here hop hcall rfl fun hlast =>
      ⟨fun _ => (hown hlast).tun (by simp [hfrom]), fun _ => (hown hlast).session (Or.inl hfrom)⟩
  | drop stage hfrom hpart hcall =>
    refine h.call here rfl hcall rfl fun hlast => ?_
    rcases hpart with hpart | hpart
    · exact ⟨fun _ => (hown hlast).tun (by simp [hfrom, hpart]), by simp [hpart]⟩
    · exact owns_nothing (Or.inr hpart)

/-- A step of disconnect thread `i` outside the native layer that does not close the TUN of
the last command. -/
theorem ShadeVpnService.Paired.disconnect {s : ShadeVpnService ι κ} (h : s.Paired) {i : ι}
    {t : DisconnectThread} (here : s.thread i = .disconnect t) (ready : t.acts = [])
    {result : Except SessionError Unit} (back : s.native.thread i = .returned result)
    (hclose : s.closesLast i = false) : (s.disconnectStep i t).Paired := by
  have hgeneration : t.generation ≤ s.connectGeneration :=
    h.generations i _ (by rw [here]; rfl)
  have hbeside := s.disconnectStep_beside i t
  have hreturned : ∀ call, Within call (s.native.thread i) := by
    intro call
    rw [back]
    trivial
  obtain ⟨generation, acts, stage⟩ := t
  dsimp only at ready
  subst ready
  cases stage with
  | disconnect =>
    refine h.aside hbeside (fun _ hmem => hmem) ?_ (Or.inr ⟨_, Function.update_self .., hgeneration⟩)
    simp [ShadeVpnService.disconnectStep, ShadeVpnService.call, ShadeVpnService.goto, Shared.goto,
      Op.entry, ServiceThread.call, StopStage.call, Within]
  | disconnected =>
    exact h.aside hbeside (fun _ hmem => hmem) (hreturned _)
      (Or.inr ⟨_, Function.update_self .., hgeneration⟩)
  | reading =>
    exact h.aside hbeside (fun _ hmem => hmem) (hreturned _)
      (Or.inr ⟨_, Function.update_self .., hgeneration⟩)
  | closing tun =>
    cases tun with
    | none =>
      exact h.aside hbeside (fun _ hmem => hmem) (hreturned _)
        (Or.inr ⟨_, Function.update_self .., hgeneration⟩)
    | some tun =>
      have hother :
          (s.tuns[tun]?.any fun t => t.isOpen && t.generation == s.connectGeneration) = false := by
        simpa only [ShadeVpnService.closesLast, here] using hclose
      exact h.aside hbeside (fun fd hmem => mem_tunsOf_close hmem hother) (hreturned _)
        (Or.inr ⟨_, Function.update_self .., hgeneration⟩)
  | clearing =>
    exact h.aside hbeside (fun _ hmem => hmem) (hreturned _)
      (Or.inr ⟨_, Function.update_self .., hgeneration⟩)
  | ended =>
    exact h.aside hbeside (fun _ hmem => hmem) (hreturned _) (Or.inl (Function.update_self ..))

theorem call_of_connecting {stage : Stage} (h : stage.part = .connecting) :
    stage.call = some .connect := by
  cases stage with
  | connectReturned => rfl
  | _ => cases h

theorem call_startPump {u : ServiceThread} (h : u.call = some .startPump) :
    ∃ t, u = .connect t ∧ t.stage.part = .session := by
  rcases u with _ | ⟨generation, blockIpv6, fd, backoff, acts, stage⟩ | ⟨generation, acts, stage⟩
  · cases h
  · cases stage with
    | startReturned => exact ⟨_, rfl, rfl⟩
    | _ => cases h
  · cases stage <;> cases h

/-- What a native step makes of the session's command. -/
theorem sessionOf_nativeStep (s : ShadeVpnService ι κ) (i : ι) :
    ((s.native.step C i).session.created = s.native.session.created ∧
      (s.nativeStep C i).sessionOf = s.sessionOf) ∨
    (s.stores C i = true ∧ (s.nativeStep C i).sessionOf = (s.thread i).generation) := by
  by_cases hsame : (s.native.step C i).session.created = s.native.session.created
  · exact Or.inl ⟨hsame, if_pos hsame⟩
  · right
    refine ⟨?_, if_neg hsame⟩
    obtain ⟨r, here, free, hinit⟩ := (Shared.step_moves s.native i).created.resolve_left hsame
    simp [ShadeVpnService.stores, here, free, hinit]

/-- What a native step makes of the pump starts. -/
theorem starts_nativeStep (s : ShadeVpnService ι κ) (i : ι) :
    (s.nativeStep C i).starts = s.starts ∨
    (s.startsPump i = true ∧ (∃ h blockIpv6 io, s.native.thread i = .reading h blockIpv6 io) ∧
      (s.nativeStep C i).starts = s.starts ++ [⟨s.tunsOf (s.thread i).fd, s.sessionOf⟩]) := by
  by_cases hsame : (s.native.step C i).past.started.length = s.native.past.started.length
  · exact Or.inl (if_pos hsame)
  · right
    obtain ⟨h, blockIpv6, io, here, hrunning, hclone⟩ :=
      (Shared.step_moves (C := C) s.native i).started.resolve_left hsame
    refine ⟨?_, ⟨h, blockIpv6, io, here⟩, if_neg hsame⟩
    simp [ShadeVpnService.startsPump, here, hrunning, hclone]

/-- What connect thread `j` of the last command has it keeps in a native step of thread `i`
that stores no other session over its own. -/
theorem ShadeVpnService.Owns.native {s : ShadeVpnService ι κ} {i j : ι} {t : ConnectThread}
    (hown : s.Owns j t) (hcalls : Within (s.thread j).call (s.native.thread j))
    (here : s.thread j = .connect t)
    (hstore : s.stores C i = true →
      (s.thread i).generation = some t.generation ∨ s.sessionOf ≠ some t.generation) :
    (s.nativeStep C i).Owns j t := by
  have hmove := Shared.step_moves (C := C) s.native i
  refine ⟨hown.tun, fun hhas => ?_⟩
  by_cases hji : j = i
  · subst hji
    rcases sessionOf_nativeStep (C := C) s j with ⟨hcreated, hsame⟩ | ⟨-, hnew⟩
    · rw [hsame]
      refine hown.session (hhas.imp_right fun ⟨hpart, hstored⟩ => ⟨hpart, ?_⟩)
      rw [here] at hcalls
      have hcall : Within (some .connect) (s.native.thread j) := by
        rw [← call_of_connecting hpart]
        exact hcalls
      exact (hasStored_step hmove hcall hstored).resolve_right fun hne => hne hcreated
    · rw [hnew, here]
      rfl
  · have hother : (s.native.step C i).thread j = s.native.thread j := by
      rw [hmove.thread, Function.update_of_ne hji]
    have hsession : s.sessionOf = some t.generation := by
      refine hown.session (hhas.imp_right fun ⟨hpart, hstored⟩ => ⟨hpart, ?_⟩)
      rw [← hother]
      exact hstored
    rcases sessionOf_nativeStep (C := C) s i with ⟨-, hsame⟩ | ⟨hstores, hnew⟩
    · rw [hsame, hsession]
    · rw [hnew]
      exact (hstore hstores).resolve_right fun hne => hne hsession

/-- A step of the native call that thread `i` is in. -/
theorem ShadeVpnService.Paired.native {s : ShadeVpnService ι κ} (h : s.Paired) {i : ι}
    (hstart : s.startsPump i = true → (s.thread i).generation = some s.connectGeneration)
    (hstore : s.stores C i = true →
      (s.thread i).generation = some s.connectGeneration ∨ s.sessionOf ≠ some s.connectGeneration) :
    (s.nativeStep C i).Paired := by
  have hmove := Shared.step_moves (C := C) s.native i
  constructor
  · intro j
    show Within (s.thread j).call ((s.native.step C i).thread j)
    by_cases hji : j = i
    · subst hji
      exact within_step hmove (h.calls j)
    · rw [hmove.thread, Function.update_of_ne hji]
      exact h.calls j
  · exact h.generations
  · intro j t here hlast
    refine (h.owns j t here hlast).native (h.calls j) here ?_
    rwa [show t.generation = s.connectGeneration from hlast]
  · rcases starts_nativeStep (C := C) s i with hsame | ⟨hstarts, ⟨hd, blockIpv6, io, hat⟩, hnew⟩
    · rw [ShadeVpnService.PumpTun, hsame]
      exact h.pumpTun
    · rw [ShadeVpnService.PumpTun, hnew]
      have hcall := h.calls i
      rw [hat] at hcall
      obtain ⟨t, here, hpart⟩ := call_startPump hcall
      have hlast : t.generation = s.connectGeneration := by
        have := hstart hstarts
        rw [here] at this
        exact Option.some.inj this
      have hown := h.owns i t here hlast
      intro p hp
      rcases List.mem_append.1 hp with hp | hp
      · exact h.pumpTun p hp
      · rw [List.mem_singleton.1 hp, here]
        exact ⟨t.generation, hown.tun (Or.inl (by simp [hpart])), hown.session (Or.inl hpart)⟩

/-- A new command: its thread has nothing yet, and the threads of older commands are no
longer the last one's. -/
theorem ShadeVpnService.Paired.command {s : ShadeVpnService ι κ} (h : s.Paired) {i : ι}
    (hdone : (s.thread i).done = true) {u : ServiceThread} (hcall : u.call = none)
    (hgeneration : u.generation = some (s.connectGeneration + 1))
    (hearly : ∀ t, u = .connect t → t.stage.part = .early) (stopping : Option ι) :
    ShadeVpnService.Paired { s.goto i u with
      connectGeneration := s.connectGeneration + 1
      stopping } := by
  have hold : ∀ j, ∀ generation ∈ (s.thread j).generation, generation ≤ s.connectGeneration + 1 :=
    fun j generation hmem => (h.generations j generation hmem).trans (Nat.le_succ _)
  constructor
  · refine (Function.forall_update_iff s.thread
      (fun j u => Within u.call (s.native.thread j))).2 ⟨?_, fun j _ => h.calls j⟩
    have hidle := h.calls i
    cases hat : s.thread i with
    | finished =>
      rw [hat] at hidle
      rwa [hcall]
    | connect => simp [hat, ServiceThread.done] at hdone
    | disconnect => simp [hat, ServiceThread.done] at hdone
  · refine (Function.forall_update_iff s.thread
      (fun _ u => ∀ generation ∈ u.generation, generation ≤ s.connectGeneration + 1)).2
      ⟨?_, fun j _ => hold j⟩
    rw [hgeneration]
    rintro _ ⟨⟩
    exact le_rfl
  · intro j t hthread hlast
    by_cases hji : j = i
    · subst hji
      exact owns_nothing (Or.inl (hearly t ((Function.update_self ..).symm.trans hthread)))
    · have here : s.thread j = .connect t := (Function.update_of_ne hji ..).symm.trans hthread
      have := h.generations j t.generation (by rw [here]; rfl)
      have hnew : t.generation = s.connectGeneration + 1 := hlast
      omega
  · exact h.pumpTun

omit [DecidableEq ι] in
/-- A write to a field of the orchestrator. -/
theorem perform_eq (s : ShadeVpnService ι κ) (act : Action) :
    ∃ pendingServerResponseB64 snapshot,
      s.perform act = { s with pendingServerResponseB64, snapshot } := by
  cases act <;> exact ⟨_, _, rfl⟩

theorem ShadeVpnService.Paired.writes {s : ShadeVpnService ι κ} (h : s.Paired) {i : ι}
    {t : ConnectThread} (here : s.thread i = .connect t) (act : Action) (acts : List Action) :
    ((s.perform act).goto i (.connect { t with acts })).Paired := by
  have hcall := h.calls i
  have hbeside := s.beside_perform i (.connect { t with acts }) act
  obtain ⟨pending, snapshot, heq⟩ := perform_eq s act
  rw [heq] at hbeside ⊢
  refine h.own hbeside (fun _ hmem => hmem) ?_ here (Function.update_self ..) rfl fun hlast =>
    ⟨(h.owns i t here hlast).tun, (h.owns i t here hlast).session⟩
  show Within (Function.update s.thread i _ i).call (s.native.thread i)
  rw [here] at hcall
  rw [Function.update_self]
  exact hcall

theorem ShadeVpnService.Paired.stopWrites {s : ShadeVpnService ι κ} (h : s.Paired) {i : ι}
    {t : DisconnectThread} (here : s.thread i = .disconnect t) (act : Action)
    (acts : List Action) : ((s.perform act).goto i (.disconnect { t with acts })).Paired := by
  have hcall := h.calls i
  have hgeneration : t.generation ≤ s.connectGeneration := h.generations i _ (by rw [here]; rfl)
  have hbeside := s.beside_perform i (.disconnect { t with acts }) act
  obtain ⟨pending, snapshot, heq⟩ := perform_eq s act
  rw [heq] at hbeside ⊢
  refine h.aside hbeside (fun _ hmem => hmem) ?_
    (Or.inr ⟨_, Function.update_self .., hgeneration⟩)
  show Within (Function.update s.thread i _ i).call (s.native.thread i)
  rw [here] at hcall
  rw [Function.update_self]
  exact hcall

variable (os) in
/-- **A step keeps the pairs** when it keeps to the order of the commands. -/
theorem ShadeVpnService.Paired.step {s : ShadeVpnService ι κ} (h : s.Paired) (e : Event ι κ)
    (hinorder : s.InOrder C e) : (s.step C os e).Paired := by
  cases e with
  | start i rawProfile blockIpv6 =>
    unfold ShadeVpnService.step
    dsimp only
    split_ifs with hdone
    · exact h.command hdone rfl rfl (by rintro _ ⟨⟩; rfl) none
    · exact h
  | stop i =>
    unfold ShadeVpnService.step
    dsimp only
    split_ifs with hdone
    · exact h.command hdone rfl rfl (by rintro _ ⟨⟩) (some i)
    · exact h
  | turn e => exact ⟨h.calls, h.generations, fun j t here hlast =>
      ⟨(h.owns j t here hlast).tun, (h.owns j t here hlast).session⟩, h.pumpTun⟩
  | step i env =>
    have hkeeps : s.KeepsOrder C i := hinorder
    have hmove : ShadeVpnService.Moves C s i (s.threadStep C os i env) := s.threadStep_moves i env
    show (s.threadStep C os i env).Paired
    generalize s.threadStep C os i env = s' at hmove
    cases hmove with
    | finished => exact h
    | native busy => exact h.native hkeeps.start hkeeps.store
    | writes here act acts => exact h.writes here act acts
    | stopWrites here act acts => exact h.stopWrites here act acts
    | connect here ready back hcont => exact h.connect here ready back hcont hkeeps.take
    | disconnect here ready back => exact h.disconnect here ready back hkeeps.close

omit [DecidableEq ι] in
theorem paired_new (nativeVersion : String) :
    (ShadeVpnService.new nativeVersion : ShadeVpnService ι κ).Paired :=
  ⟨fun _ => trivial, by rintro i _ ⟨⟩, by rintro i t ⟨⟩, by rintro p ⟨⟩⟩

/-- **A pump gets its session's TUN, open**, in runs where the threads of older commands
keep out of the last command's way. -/
theorem pumpTun_of_inOrder (nativeVersion : String) {es : List (Event ι κ)}
    (h : Machine.Along (ShadeVpnService.step C os) (ShadeVpnService.InOrder C)
      (ShadeVpnService.new nativeVersion) es) :
    Machine.Always (ShadeVpnService.step C os) ShadeVpnService.PumpTun
      (ShadeVpnService.new nativeVersion) es := by
  have hpaired := Machine.always_of_along (fun s e hs hinorder => hs.step os e hinorder) es
    (paired_new nativeVersion) h
  exact hpaired.imp fun s hs => hs.pumpTun

/-- What the next START meets: its TUN has a descriptor of its own. -/
def restartEnv : Env UInt8 := { sampleEnv with established := some 8 }

/-- A START whose pump runs and a STOP whose pump has left, and another START up to its
last look at the generation. -/
def restartedRun : List (Event Bool UInt8) :=
  .start false (some "vless://sample") false :: Event.steps false sampleEnv 41 ++
    .stop true :: Event.steps true {} 6 ++ .turn (.inl .stopped) :: .turn (.inr .stopped) ::
      .start false (some "vless://sample") true :: Event.steps false restartEnv 35

theorem pumpTun_of_inOrder_restarted :
    Machine.Always (ShadeVpnService.step Crypto.toy samplePlatform) ShadeVpnService.PumpTun
      (ShadeVpnService.new "shadevpn-native/0.7.0")
      (restartedRun ++ Event.steps false restartEnv 3) ∧
    (Machine.run (ShadeVpnService.step Crypto.toy samplePlatform)
      (ShadeVpnService.new "shadevpn-native/0.7.0")
      (restartedRun ++ Event.steps false restartEnv 3)).starts = [⟨[1], some 1⟩, ⟨[3], some 3⟩] :=
  ⟨pumpTun_of_inOrder _ (by decide +kernel), by decide +kernel⟩

/-- A STOP that has still to close its TUN closes the next START's behind its last look at
the generation, and the pump starts on it. -/
theorem not_pumpTun : ¬ ∀ es : List (Event Bool UInt8),
    Machine.Always (ShadeVpnService.step Crypto.toy samplePlatform) ShadeVpnService.PumpTun
      (ShadeVpnService.new "shadevpn-native/0.7.0") es := by
  intro h
  have hpairs := (h (restartedRun ++ Event.steps true {} 2 ++ Event.steps false restartEnv 3)).last
  have hstarts : (Machine.run (ShadeVpnService.step Crypto.toy samplePlatform)
      (ShadeVpnService.new "shadevpn-native/0.7.0")
      (restartedRun ++ Event.steps true {} 2 ++ Event.steps false restartEnv 3)).starts
        = [⟨[1], some 1⟩, ⟨[], some 3⟩] := by decide +kernel
  rw [ShadeVpnService.PumpTun, hstarts] at hpairs
  obtain ⟨generation, hmem, -⟩ := hpairs ⟨[], some 3⟩ (by simp)
  cases hmem

end ShadeVpn.Service
