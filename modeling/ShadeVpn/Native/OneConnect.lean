import ShadeVpn.Native.Threads

/-!
# Whose session it is

The handshake and the socket are stored under the session lock, the VLESS
parameters under a lock of their own, and `nativeCompleteHandshake` takes the
session lock a second time to tear down.  Between any two of these another connect
can come in.

* `oneConnect_of_whole` — the parts of a session stay together in every run where no
  other connect comes in between, and no pump start either.
* `not_oneConnect` — a pump start with the VLESS parameters of another connect, and a
  rejection that tears down the session of another connect.
-/

namespace ShadeVpn.Native

open Octets Checked Handshake Transport Vless Pump

variable {κ : Type} {C : Crypto κ UInt8} {ι : Type} [DecidableEq ι]

/-! ## The property and the condition -/

/-- Every pump start took a handshake, a socket and VLESS parameters of one connect,
and every rejection tore down the session of its own handshake, or none. -/
structure History.OneConnect (past : History) : Prop where
  started : ∀ p ∈ past.started, p.socket = some p.handshake ∧ p.vless = some p.handshake
  torn : ∀ p ∈ past.torn, p.2 = none ∨ p.2 = some p.1

instance : DecidablePred History.OneConnect := fun past =>
  decidable_of_iff
    ((∀ p ∈ past.started, p.socket = some p.handshake ∧ p.vless = some p.handshake) ∧
      ∀ p ∈ past.torn, p.2 = none ∨ p.2 = some p.1)
    ⟨fun h => ⟨h.1, h.2⟩, fun h => ⟨h.started, h.torn⟩⟩

/-- The connect whose session is there. -/
def Shared.holder (s : Shared ι κ) : Option ℕ := s.session.handshake.map Handle.id

/-- The connect of a thread between its two stores. -/
def ThreadState.owes : ThreadState κ → Option ℕ
  | .installed id _ => some id
  | _ => none

/-- Nothing comes in between: a connect stores its VLESS parameters while the session
is its own or gone; a pump that starts does not start before the connect of the
session has stored them; and a rejection is torn down while no connect has stored a
session since the call took its handshake, or the session is gone. -/
def Shared.WholeAt (s : Shared ι κ) : ThreadState κ → Prop
  | .installed id _ => ∀ other ∈ s.holder, other = id
  | .reading h _ io => s.session.pump.running = false → io.outClone = none →
    ∀ j, (s.thread j).owes ≠ some h.id
  | .rejected _ created _ => s.lock = none → s.holder = none ∨ s.session.created = created
  | _ => True

/-- The thread that takes a step, if it does, is not disturbed. -/
def Shared.Whole (s : Shared ι κ) : Act ι κ → Prop
  | .call _ _ => True
  | .step i => s.WholeAt (s.thread i)

variable [Fintype ι] in
instance (s : Shared ι κ) : DecidablePred s.WholeAt := fun t =>
  match t with
  | .installed id _ => inferInstanceAs (Decidable (∀ other ∈ s.holder, other = id))
  | .reading h _ io => inferInstanceAs (Decidable (s.session.pump.running = false →
      io.outClone = none → ∀ j, (s.thread j).owes ≠ some h.id))
  | .rejected _ created _ =>
    inferInstanceAs (Decidable (s.lock = none → s.holder = none ∨ s.session.created = created))
  | .returned _ | .connecting _ _ | .cloning _ | .completing _ _ _ _ | .disconnecting
  | .clearing _ | .probing _ | .sealing _ _ | .starting _ _ | .stopping | .turning _ =>
    isTrue trivial

variable [Fintype ι] in
instance (s : Shared ι κ) : DecidablePred s.Whole
  | .call _ _ => isTrue trivial
  | .step i => inferInstanceAs (Decidable (s.WholeAt (s.thread i)))

/-! ## What every such run keeps -/

/-- The handshake a completion took, and how many connects had stored a session. -/
def ThreadState.took : ThreadState κ → Option (ℕ × ℕ)
  | .completing h _ created _ => some (h.id, created)
  | .rejected id created _ => some (id, created)
  | _ => none

/-- The socket is the session's, and so are the VLESS parameters, or they are to come.  A
pump start behind its checks has the session's handshake, a teardown that goes on has left
none, and a completion has the session's handshake unless a connect has stored a session
since. -/
structure Shared.Parts (s : Shared ι κ) : Prop where
  socket : ∀ id ∈ s.holder, s.past.socketOf = some id
  vless : ∀ id ∈ s.holder, s.past.vlessOf = some id ∨ ∃ j, (s.thread j).owes = some id
  reads : ∀ i, ∀ id ∈ (s.thread i).reads, s.holder = some id
  cleared : ∀ i result, s.thread i = .clearing result → s.holder = none
  took : ∀ i, ∀ p ∈ (s.thread i).took, p.2 ≤ s.session.created ∧
    (p.2 = s.session.created → ∀ id ∈ s.holder, id = p.1)
  one : s.past.OneConnect

/-- A thread between no two stores moves, and the session stays whose it is. -/
theorem Shared.Parts.frame {s s' : Shared ι κ} (h : s.Parts) {i : ι} {u t : ThreadState κ}
    (here : s.thread i = u) (owes : u.owes = none)
    (hthread : s'.thread = Function.update s.thread i t) (hholder : s'.holder = s.holder)
    (hcreated : s'.session.created = s.session.created)
    (hsocket : s'.past.socketOf = s.past.socketOf) (hvless : s'.past.vlessOf = s.past.vlessOf)
    (reads : ∀ id ∈ t.reads, s.holder = some id)
    (cleared : ∀ result, t = .clearing result → s.holder = none)
    (took : ∀ p ∈ t.took, p.2 ≤ s.session.created ∧
      (p.2 = s.session.created → ∀ id ∈ s.holder, id = p.1))
    (one : s'.past.OneConnect) : s'.Parts := by
  constructor
  · rw [hholder, hsocket]
    exact h.socket
  · rw [hholder, hvless]
    intro id hid
    rcases h.vless id hid with hown | ⟨j, hj⟩
    · exact Or.inl hown
    · have hij : j ≠ i := by
        rintro rfl
        rw [here, owes] at hj
        cases hj
      refine Or.inr ⟨j, ?_⟩
      rw [hthread, Function.update_of_ne hij]
      exact hj
  · rw [hthread, hholder]
    exact (Function.forall_update_iff s.thread (fun _ u => ∀ id ∈ u.reads, s.holder = some id)).2
      ⟨reads, fun j _ => h.reads j⟩
  · rw [hthread, hholder]
    exact (Function.forall_update_iff s.thread
      (fun _ u => ∀ result, u = .clearing result → s.holder = none)).2
      ⟨cleared, fun j _ => h.cleared j⟩
  · rw [hthread, hholder, hcreated]
    exact (Function.forall_update_iff s.thread (fun _ u => ∀ p ∈ u.took, p.2 ≤ s.session.created ∧
      (p.2 = s.session.created → ∀ id ∈ s.holder, id = p.1))).2 ⟨took, fun j _ => h.took j⟩
  · exact one

/-- A step that leaves the session and the history alone. -/
theorem Shared.Parts.goto {s : Shared ι κ} (h : s.Parts) {i : ι} {u t : ThreadState κ}
    (here : s.thread i = u) (owes : u.owes = none) (holds : ¬ t.Holds) (reads : t.reads = none)
    (took : ∀ p ∈ t.took, p.2 ≤ s.session.created ∧
      (p.2 = s.session.created → ∀ id ∈ s.holder, id = p.1)) : (s.goto i t).Parts := by
  refine h.frame here owes rfl rfl rfl rfl rfl ?_ ?_ took ⟨h.one.started, h.one.torn⟩
  · rw [reads]
    simp
  · rintro result rfl
    exact absurd trivial holds

/-- The session is dropped, or what is left of it. -/
theorem Shared.Parts.emptied {s s' : Shared ι κ} (h : s.Parts) (hlocked : s.Locked) {i : ι}
    {t : ThreadState κ} (hlock : s.lock = none ∨ s.lock = some i)
    (hthread : s'.thread = Function.update s.thread i t) (hholder : s'.holder = none)
    (hcreated : s'.session.created = s.session.created)
    (reads : t.reads = none) (took : t.took = none) (one : s'.past.OneConnect) : s'.Parts := by
  constructor
  · rw [hholder]
    simp
  · rw [hholder]
    simp
  · intro j id hid
    rw [hthread] at hid
    by_cases hij : j = i
    · subst hij
      rw [Function.update_self, reads] at hid
      cases hid
    · rw [Function.update_of_ne hij, ThreadState.reads_none (hlocked.not_holds hlock hij)] at hid
      cases hid
  · intro _ _ _
    exact hholder
  · rw [hthread, hholder, hcreated]
    refine (Function.forall_update_iff s.thread (fun _ u => ∀ p ∈ u.took,
      p.2 ≤ s.session.created ∧ (p.2 = s.session.created → ∀ id ∈ none, id = p.1))).2 ⟨?_, ?_⟩
    · rw [took]
      simp
    · intro j _ p hp
      exact ⟨(h.took j p hp).1, by simp⟩
  · exact one

/-- A connect stores its session. -/
theorem Shared.Parts.install {s : Shared ι κ} (h : s.Parts) (hlocked : s.Locked) {i : ι}
    {r : ConnectRequest κ} (free : s.lock = none) (state : HandshakeState κ UInt8) :
    ((s.install state).goto i (.installed s.session.created r.vlessParams)).Parts := by
  have hnobody : ∀ j, j ≠ i → ¬ (s.thread j).Holds := fun j => hlocked.not_holds (Or.inl free)
  constructor
  · rintro id ⟨⟩
    rfl
  · rintro id ⟨⟩
    refine Or.inr ⟨i, ?_⟩
    simp only [Shared.goto, Function.update_self]
    rfl
  · refine (Function.forall_update_iff s.thread
      (fun _ u => ∀ id ∈ u.reads, some s.session.created = some id)).2
      ⟨by simp [ThreadState.reads], ?_⟩
    intro j hij id hid
    rw [ThreadState.reads_none (hnobody j hij)] at hid
    cases hid
  · refine (Function.forall_update_iff s.thread
      (fun _ u => ∀ result, u = .clearing result → some s.session.created = none)).2 ⟨?_, ?_⟩
    · rintro result ⟨⟩
    · intro j hij result hj
      exact absurd (by rw [hj]; trivial) (hnobody j hij)
  · refine (Function.forall_update_iff s.thread (fun _ u => ∀ p ∈ u.took,
      p.2 ≤ s.session.created + 1 ∧ (p.2 = s.session.created + 1 →
        ∀ id ∈ some s.session.created, id = p.1))).2 ⟨by simp [ThreadState.took], ?_⟩
    intro j _ p hp
    have hle := (h.took j p hp).1
    exact ⟨by omega, fun heq => absurd heq (by omega)⟩
  · exact ⟨h.one.started, h.one.torn⟩

/-- A connect stores its VLESS parameters, while the session is its own or gone. -/
theorem Shared.Parts.storeVless {s : Shared ι κ} (h : s.Parts) {i : ι} {id : ℕ}
    {vless : VlessParams} (hown : ∀ other ∈ s.holder, other = id) :
    ((s.storeVless (some vless) (some id)).goto i (.returned (.ok ()))).Parts := by
  constructor
  · exact h.socket
  · intro other hother
    rw [hown other hother]
    exact Or.inl rfl
  · exact (Function.forall_update_iff s.thread (fun _ u => ∀ id ∈ u.reads, s.holder = some id)).2
      ⟨by simp [ThreadState.reads], fun j _ => h.reads j⟩
  · exact (Function.forall_update_iff s.thread
      (fun _ u => ∀ result, u = .clearing result → s.holder = none)).2
      ⟨by rintro result ⟨⟩, fun j _ => h.cleared j⟩
  · exact (Function.forall_update_iff s.thread (fun _ u => ∀ p ∈ u.took, p.2 ≤ s.session.created ∧
      (p.2 = s.session.created → ∀ id ∈ s.holder, id = p.1))).2
      ⟨by simp [ThreadState.took], fun j _ => h.took j⟩
  · exact ⟨h.one.started, h.one.torn⟩

omit [DecidableEq ι] in
/-- A start adds the parts it took to the history, if it succeeds. -/
theorem mem_started_afterStart {s : Shared ι κ} {hd : Handle κ} {o : Outcome κ} {p : Started}
    (hp : p ∈ (s.afterStart hd o).past.started) :
    p ∈ s.past.started ∨ (o.result = .ok () ∧ p = ⟨hd.id, s.past.socketOf, s.past.vlessOf⟩) := by
  rcases hresult : o.result with e | ⟨⟩
  · simp only [Shared.afterStart, hresult] at hp
    exact Or.inl hp
  · simp only [Shared.afterStart, hresult, List.mem_append, List.mem_singleton] at hp
    exact hp.imp_right fun hnew => ⟨rfl, hnew⟩

/-- A pump start behind its checks, with nobody between its two stores. -/
theorem Shared.Parts.read {s : Shared ι κ} (h : s.Parts) {i : ι} {hd : Handle κ} {blockIpv6 : Bool}
    {io : StartIo} (here : s.thread i = .reading hd blockIpv6 io)
    (hwhole : s.session.pump.running = false → io.outClone = none →
      ∀ j, (s.thread j).owes ≠ some hd.id) :
    ({ s.afterStart hd (s.session.startPumpOn (hd.now s.cells) blockIpv6 io) with
      lock := none }.goto i
        (.returned (s.session.startPumpOn (hd.now s.cells) blockIpv6 io).result)).Parts := by
  obtain ⟨⟨pump, hsession⟩, -, -⟩ := startPumpOn_keeps s.session (hd.now s.cells) blockIpv6 io
  have hholder : s.holder = some hd.id := h.reads i hd.id (by rw [here]; rfl)
  have hhandshake : (s.session.startPumpOn (hd.now s.cells) blockIpv6 io).session.handshake
      = s.session.handshake := by rw [hsession]
  have hcreated : (s.session.startPumpOn (hd.now s.cells) blockIpv6 io).session.created
      = s.session.created := by rw [hsession]
  refine h.frame here rfl rfl (congrArg (Option.map Handle.id) hhandshake) hcreated rfl rfl
    (by rintro _ ⟨⟩) (by rintro _ ⟨⟩) (by rintro _ ⟨⟩) ⟨?_, h.one.torn⟩
  intro p hp
  rcases mem_started_afterStart hp with hold | ⟨hresult, rfl⟩
  · exact h.one.started p hold
  · obtain ⟨hrunning, hclone⟩ := startPumpOn_ok hresult
    refine ⟨h.socket hd.id hholder, ?_⟩
    rcases h.vless hd.id hholder with hown | ⟨j, hj⟩
    · exact hown
    · exact absurd hj (hwhole hrunning hclone j)

/-- A turn of a pump thread changes the pump only. -/
theorem Shared.Parts.turn {s : Shared ι κ} (h : s.Parts) {i : ι} {e : TunRead ⊕ SocketRead}
    (here : s.thread i = .turning e) {o : Outcome κ}
    (hpump : ∃ pump, o.session = { s.current with pump } ∧ pump.stop = s.current.pump.stop) :
    ((s.after o).goto i (.returned o.result)).Parts := by
  obtain ⟨pump, hsession, -⟩ := hpump
  have hholder : o.session.handshake.map Handle.id = s.holder := by
    rw [hsession]
    simp only [Shared.current, Session.now, Shared.holder, Option.map_map]
    rfl
  have hcreated : o.session.created = s.session.created := by
    rw [hsession]
    rfl
  exact h.frame here rfl rfl hholder hcreated rfl rfl (by rintro _ ⟨⟩) (by rintro _ ⟨⟩)
    (by rintro _ ⟨⟩) ⟨h.one.started, h.one.torn⟩

/-- **A step keeps the parts together** when nothing comes in between. -/
theorem Shared.Parts.step {s : Shared ι κ} (h : s.Parts) (hlocked : s.Locked) {i : ι}
    (hwhole : s.Whole (.step i)) : (s.step C i).Parts := by
  have hmove := Shared.step_moves (C := C) s i
  generalize s.step C i = s' at hmove
  unfold Shared.Whole at hwhole
  dsimp only at hwhole
  have hone : ∀ past : History, past.started = s.past.started → past.torn = s.past.torn →
      past.OneConnect := by
    intro past hstarted htorn
    exact ⟨hstarted ▸ h.one.started, htorn ▸ h.one.torn⟩
  cases hmove with
  | idle => exact h
  | unreached here e => exact h.goto here rfl id rfl (by rintro _ ⟨⟩)
  | install here hinit free => exact h.install hlocked free _
  | storeVless here =>
    rw [here] at hwhole
    exact h.storeVless hwhole
  | noClone here e => exact h.goto here rfl id rfl (by rintro _ ⟨⟩)
  | @clone bytes here hd hh free =>
    refine h.goto here rfl id rfl ?_
    rintro _ ⟨⟩
    refine ⟨le_rfl, fun _ id hid => ?_⟩
    rw [Shared.holder, hh] at hid
    exact (Option.some.inj hid).symm
  | accepted here => exact h.goto here rfl id rfl (by rintro _ ⟨⟩)
  | refused here =>
    refine h.goto here rfl id rfl ?_
    rintro _ ⟨⟩
    exact h.took i _ (by rw [here]; rfl)
  | advance here hmove hgoing =>
    refine h.frame here rfl rfl rfl rfl rfl rfl (by rintro _ ⟨⟩) (by rintro _ ⟨⟩) ?_
      (hone _ rfl rfl)
    rintro _ ⟨⟩
    exact h.took i _ (by rw [here]; rfl)
  | @dropRejected id created e here free =>
    refine h.emptied hlocked (Or.inl free) rfl rfl rfl rfl rfl ⟨h.one.started, ?_⟩
    intro p hp
    rcases List.mem_append.1 hp with hold | hnew
    · exact h.one.torn p hold
    · rw [List.mem_singleton.1 hnew]
      rw [here] at hwhole
      rcases hwhole free with hnone | hsame
      · exact Or.inl hnone
      · have htook := (h.took i (id, created) (by rw [here]; rfl)).2 hsame.symm
        rcases hholder : s.holder with _ | other
        · exact Or.inl hholder
        · rw [htook other hholder] at hholder
          exact Or.inr hholder
  | drop here free => exact h.emptied hlocked (Or.inl free) rfl rfl rfl rfl rfl (hone _ rfl rfl)
  | @clear result here =>
    have hholds : s.lock = some i := hlocked i (by rw [here]; trivial)
    exact h.emptied hlocked (Or.inr hholds) rfl (h.cleared i result here) rfl rfl rfl
      (hone _ rfl rfl)
  | noProbe here e => exact h.goto here rfl id rfl (by rintro _ ⟨⟩)
  | @probe io here free hd hgate =>
    exact h.frame here rfl rfl rfl rfl rfl rfl (by rintro _ ⟨⟩) (by rintro _ ⟨⟩) (by rintro _ ⟨⟩)
      (hone _ rfl rfl)
  | @sealed hd io here =>
    obtain ⟨⟨nextOut, nextIn, hsession⟩, -⟩ := probeOn_keeps (C := C) s.session (hd.now s.cells) io
    have hhandshake : (s.session.probeOn C (hd.now s.cells) io).session.handshake
        = s.session.handshake := by rw [hsession]
    have hcreated : (s.session.probeOn C (hd.now s.cells) io).session.created
        = s.session.created := by rw [hsession]
    exact h.frame here rfl rfl (congrArg (Option.map Handle.id) hhandshake) hcreated rfl rfl
      (by rintro _ ⟨⟩) (by rintro _ ⟨⟩) (by rintro _ ⟨⟩) (hone _ rfl rfl)
  | noStart here e => exact h.goto here rfl id rfl (by rintro _ ⟨⟩)
  | @start blockIpv6 io here free hd hgate =>
    refine h.frame here rfl rfl rfl rfl rfl rfl ?_ (by rintro _ ⟨⟩) (by rintro _ ⟨⟩)
      (hone _ rfl rfl)
    rintro id ⟨⟩
    obtain ⟨hd', hhd', rfl⟩ := Option.map_eq_some_iff.1 (gate_ok hgate).1
    rw [Shared.holder, hhd']
    rfl
  | read here =>
    rw [here] at hwhole
    exact h.read here hwhole
  | stop here free =>
    exact h.frame here rfl rfl rfl rfl rfl rfl (by rintro _ ⟨⟩) (by rintro _ ⟨⟩) (by rintro _ ⟨⟩)
      (hone _ rfl rfl)
  | @outbound e here => exact h.turn here (outboundTurn_pump s.current e)
  | @inbound e here => exact h.turn here (inboundTurn_pump s.current e)

theorem Shared.Parts.act {s : Shared ι κ} (h : s.Parts) (hlocked : s.Locked) (a : Act ι κ)
    (hwhole : s.Whole a) : (s.act C a).Parts ∧ (s.act C a).Locked := by
  cases a with
  | step i => exact ⟨h.step hlocked hwhole, hlocked.step (Shared.step_moves s i)⟩
  | call i op =>
    unfold Shared.act
    dsimp only
    split
    · next result here =>
      cases op <;> exact ⟨h.goto here rfl id rfl (by rintro _ ⟨⟩), hlocked.kept id rfl rfl⟩
    · exact ⟨h, hlocked⟩

omit [DecidableEq ι] in
theorem parts_new : (Shared.new : Shared ι κ).Parts := by
  constructor
  · rintro id ⟨⟩
  · rintro id ⟨⟩
  · rintro i id ⟨⟩
  · rintro i result ⟨⟩
  · rintro i p ⟨⟩
  · constructor
    · rintro p hp
      cases hp
    · rintro p hp
      cases hp

/-- **The parts of a session stay together** in runs where nothing comes in between.
In every state of such a run, each pump start so far took the handshake, the socket
and the VLESS parameters of one connect, and each rejection tore down the session
of its own handshake, or none. -/
theorem oneConnect_of_whole {es : List (Act ι κ)}
    (h : Machine.Along (Shared.act C) Shared.Whole Shared.new es) :
    Machine.Always (Shared.act C) (fun s => s.past.OneConnect) Shared.new es := by
  have hparts := Machine.always_of_along (I := fun s : Shared ι κ => s.Parts ∧ s.Locked)
    (fun s a hs hwhole => hs.1.act (C := C) hs.2 a hwhole) es ⟨parts_new, fun i hi => hi.elim⟩ h
  exact hparts.imp fun s hs => hs.1.one

/-- One thread connects, completes and starts the pump. -/
def startedRun : List (Act Bool UInt8) :=
  Act.calls false (.connect sampleRequest none) 2 ++
    Act.calls false (.complete (some sampleResponse)) 5 ++
    Act.calls false (.startPump false ⟨none, none, true⟩) 2

theorem oneConnect_of_whole_started :
    (Machine.run (Shared.act Crypto.toy) Shared.new startedRun).past.started = [⟨0, some 0, some 0⟩] ∧
      Machine.Always (Shared.act Crypto.toy) (fun s => s.past.OneConnect) Shared.new startedRun := by
  have h : (Machine.run (Shared.act Crypto.toy) Shared.new startedRun).past.started
      = [⟨0, some 0, some 0⟩] ∧
      Machine.Along (Shared.act Crypto.toy) Shared.Whole Shared.new startedRun := by
    decide +kernel
  exact ⟨h.1, oneConnect_of_whole h.2⟩

/-- A connect to the same server as another user. -/
def otherRequest : ConnectRequest UInt8 := { sampleRequest with uuid := List.Vector.replicate 16 8 }

/-- Both stores of thread `true` come between the two of thread `false`, whose VLESS
parameters stay; then thread `true` completes and starts the pump. -/
def mixedRun : List (Act Bool UInt8) :=
  Act.calls false (.connect sampleRequest none) 1 ++ Act.calls true (.connect otherRequest none) 2 ++
    Act.steps false 1 ++ Act.calls true (.complete (some sampleResponse)) 5 ++
    Act.calls true (.startPump false ⟨none, none, true⟩) 2

/-- Thread `false` has a response rejected.  Before it tears down, thread `true` connects. -/
def lateTeardownRun : List (Act Bool UInt8) :=
  Act.calls false (.connect sampleRequest none) 2 ++ Act.calls false (.complete (some [])) 5 ++
    Act.calls true (.connect otherRequest none) 2 ++ Act.steps false 1

/-- **Parts of two connects**: a pump start with the handshake and the socket of one
connect and the VLESS parameters of another, and a rejection of one connect's
handshake that tears down the session of another. -/
theorem not_oneConnect :
    (¬ ∀ es : List (Act Bool UInt8), Machine.Always (Shared.act Crypto.toy)
      (fun s => ∀ p ∈ s.past.started,
        p.socket = some p.handshake ∧ p.vless = some p.handshake) Shared.new es) ∧
    ¬ ∀ es : List (Act Bool UInt8), Machine.Always (Shared.act Crypto.toy)
      (fun s => ∀ p ∈ s.past.torn, p.2 = none ∨ p.2 = some p.1) Shared.new es := by
  constructor
  · intro h
    have hlast := (h mixedRun).last
    revert hlast
    decide +kernel
  · intro h
    have hlast := (h lateTeardownRun).last
    revert hlast
    decide +kernel

end ShadeVpn.Native
