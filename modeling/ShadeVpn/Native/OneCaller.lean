import ShadeVpn.Native.Alone
import ShadeVpn.Native.Steps

/-!
# Calls one after the other

A native layer whose calls do not overlap is the session with its atomic operations:
every call finds it calm and leaves it calm.

* `Session.Sound.step` — handshakes were made, and a pump on the session's own handshake has
  it as it is.
* `calm_call` — a call of a thread alone is the operation, and the native layer is calm
  again behind it.
-/

namespace ShadeVpn.Native

open Octets Checked Handshake Transport Vless Pump

variable {κ : Type} {C : Crypto κ UInt8} {ι : Type} [DecidableEq ι]

/-! ## Sessions -/

/-- The handshakes of the session and of its pump were made, and if they are one, the pump
has it as it is, and completed. -/
structure Session.Sound (s : Session κ) : Prop where
  handshake : ∀ h ∈ s.handshake, h.id < s.created
  threads : ∀ t ∈ s.pump.threads, t.handle.id < s.created
  same : ∀ h ∈ s.handshake, ∀ t ∈ s.pump.threads, t.handle.id = h.id →
    t.handle = h ∧ h.state.completed = true

theorem session_sound_new : (Session.new : Session κ).Sound :=
  ⟨by rintro h ⟨⟩, by rintro t ⟨⟩, by rintro h ⟨⟩⟩

/-- Another pump whose threads have the handshakes of the old one. -/
theorem Session.Sound.pump {s : Session κ} (h : s.Sound) {pump : TunnelPump κ}
    (hthreads : ∀ t ∈ pump.threads, ∃ t' ∈ s.pump.threads, t.handle = t'.handle) :
    ({ s with pump } : Session κ).Sound := by
  refine ⟨h.handshake, fun t ht => ?_, fun hd hhd t ht => ?_⟩
  · obtain ⟨t', ht', heq⟩ := hthreads t ht
    rw [heq]
    exact h.threads t' ht'
  · obtain ⟨t', ht', heq⟩ := hthreads t ht
    rw [heq]
    exact h.same hd hhd t' ht'

/-- A session without a handshake. -/
theorem Session.Sound.teardown {s : Session κ} (h : s.Sound) : s.teardown.Sound :=
  ⟨by rintro hd ⟨⟩, h.threads, by rintro hd ⟨⟩⟩

theorem Session.Sound.connect {s : Session κ} (h : s.Sound) (r : ConnectRequest κ)
    (io : Option String) : (s.connect C r io).session.Sound := by
  unfold Session.connect
  split
  · exact h
  · split
    · exact h
    · exact h
    · refine ⟨?_, fun t ht => (h.threads t ht).trans (Nat.lt_succ_self _), ?_⟩
      · rintro hd ⟨⟩
        exact Nat.lt_succ_self _
      · rintro hd ⟨⟩ t ht hid
        exact absurd hid (h.threads t ht).ne

theorem Session.Sound.complete {s : Session κ} (h : s.Sound) (response : Option Bytes) :
    (s.complete C response).session.Sound := by
  unfold Session.complete
  split
  · next bytes hd hhd =>
    split
    · next state hcomplete =>
      refine ⟨?_, h.threads, ?_⟩
      · rintro _ ⟨⟩
        exact h.handshake hd hhd
      · rintro _ ⟨⟩ t ht hid
        -- the pump's handshake is completed, and is not completed again
        obtain ⟨-, hdone⟩ := h.same hd hhd t ht hid
        rw [complete_of_completed hdone] at hcomplete
        cases hcomplete
    · exact h.teardown
  · exact h
  · exact h

theorem Session.Sound.probe {s : Session κ} (h : s.Sound) (io : ProbeIo) :
    (s.probe C io).session.Sound := by
  rcases probe_cases C s io with ⟨hsame, -⟩ | ⟨hd, written, nextIn, opened, -, -, hs, -⟩
  · rw [hsame]
    exact h
  · rw [hs]
    exact ⟨h.handshake, h.threads, h.same⟩

theorem Session.Sound.startPump {s : Session κ} (h : s.Sound) (blockIpv6 : Bool) (io : StartIo) :
    (s.startPump blockIpv6 io).session.Sound := by
  rw [startPump_eq_gate]
  rcases hgate : s.gate io.sessionClone with e | hd
  · exact h
  · obtain ⟨hhd, hdone, -⟩ := gate_ok hgate
    obtain ⟨⟨pump, hsession⟩, -, hthreads⟩ := startPumpOn_keeps s hd blockIpv6 io
    dsimp only
    rw [hsession] at hthreads ⊢
    refine ⟨h.handshake, fun t ht => ?_, fun hd' hhd' t ht hid => ?_⟩
    · rcases hthreads t ht with hold | hnew
      · exact h.threads t hold
      · rw [hnew]
        exact h.handshake hd hhd
    · rcases hthreads t ht with hold | hnew
      · exact h.same hd' hhd' t hold hid
      · obtain rfl : hd' = hd := Option.some.inj (hhd'.symm.trans hhd)
        exact ⟨hnew, hdone⟩

/-- **An operation keeps the session sound.** -/
theorem Session.Sound.step {s : Session κ} (h : s.Sound) (op : Op κ) :
    (s.step C op).session.Sound := by
  cases op with
  | connect r io => exact h.connect r io
  | complete response => exact h.complete response
  | probe io => exact h.probe io
  | startPump blockIpv6 io => exact h.startPump blockIpv6 io
  | stopPump => exact h.pump fun t ht => ⟨t, ht, rfl⟩
  | disconnect => exact h.teardown
  | outbound e =>
    obtain ⟨pump, hsession, -⟩ := outboundTurn_pump (C := C) s e
    have hthreads := (outboundTurn_threads (C := C) s e).1
    show (s.outboundTurn C e).session.Sound
    rw [hsession] at hthreads ⊢
    exact h.pump hthreads
  | inbound e =>
    obtain ⟨pump, hsession, -⟩ := inboundTurn_pump (C := C) s e
    have hthreads := (inboundTurn_threads (C := C) s e).1
    show (s.inboundTurn C e).session.Sound
    rw [hsession] at hthreads ⊢
    exact h.pump hthreads

/-! ## Handshakes and their cells -/

/-- The session's handshake has a cell. -/
def Shared.Known (s : Shared ι κ) : Prop := ∀ h ∈ s.session.handshake, (s.cells h.id).isSome

omit [DecidableEq ι] in
/-- A session with the same handshakes, and no cell less. -/
theorem Shared.Known.frame {s s' : Shared ι κ} (h : s.Known)
    (hhandshake : ∀ hd ∈ s'.session.handshake, ∃ hd' ∈ s.session.handshake, hd.id = hd'.id)
    (hcells : ∀ id, (s.cells id).isSome → (s'.cells id).isSome) : s'.Known := by
  intro hd hhd
  obtain ⟨hd', hhd', hid⟩ := hhandshake hd hhd
  rw [hid]
  exact hcells _ (h hd' hhd')

omit [DecidableEq ι] in
/-- The handshake behind a turn of a pump thread is the one before. -/
theorem Shared.Known.after {s s' : Shared ι κ} (h : s.Known) {o : Outcome κ} {pump : TunnelPump κ}
    (ho : o.session = { s.current with pump }) (hsession : s'.session = o.session)
    (hcells : s'.cells = s.cells) : s'.Known := by
  refine h.frame (fun hd hhd => ?_) fun id hid => ?_
  · rw [hsession, ho] at hhd
    obtain ⟨hd', hhd', rfl⟩ := Option.mem_map.1 hhd
    exact ⟨hd', hhd', rfl⟩
  · rw [hcells]
    exact hid

/-- **A step keeps the handshake's cell.** -/
theorem Shared.Known.step {s s' : Shared ι κ} (h : s.Known) {i : ι}
    (hmove : Shared.Moves C s i s') : s'.Known := by
  cases hmove with
  | install here hinit free =>
    rintro hd ⟨⟩
    show (Function.update s.cells s.session.created _ s.session.created).isSome
    rw [Function.update_self]
    rfl
  | @advance hd bytes created stage here state stage' hmove hgoing =>
    refine h.frame (fun hd' hhd' => ⟨hd', hhd', rfl⟩) ?_
    intro id hid
    show (Function.update s.cells hd.id (some state) id).isSome
    by_cases hsame : id = hd.id
    · rw [hsame, Function.update_self]
      rfl
    · rwa [Function.update_of_ne hsame]
  | dropRejected here free => rintro hd ⟨⟩
  | drop here free => rintro hd ⟨⟩
  | @sealed hd io here =>
    obtain ⟨⟨nextOut, nextIn, hsession⟩, -⟩ := probeOn_keeps (C := C) s.session (hd.now s.cells) io
    refine h.frame (fun hd' hhd' => ⟨hd', ?_, rfl⟩) fun _ hid => hid
    have hmem : hd' ∈ (s.session.probeOn C (hd.now s.cells) io).session.handshake := hhd'
    rwa [hsession] at hmem
  | read here => exact h
  | @outbound e here =>
    obtain ⟨pump, hsession, -⟩ := outboundTurn_pump (C := C) s.current e
    exact h.after hsession rfl rfl
  | @inbound e here =>
    obtain ⟨pump, hsession, -⟩ := inboundTurn_pump (C := C) s.current e
    exact h.after hsession rfl rfl
  | _ => exact h

theorem Shared.Known.act {s : Shared ι κ} (h : s.Known) (a : Act ι κ) : (s.act C a).Known := by
  cases a with
  | call i op =>
    unfold Shared.act
    dsimp only
    split
    · exact h
    · exact h
  | step i => exact h.step (s.step_moves i)

/-! ## Calls -/

/-- Nobody holds the lock, and the session is sound as it is now. -/
structure Shared.Calm (s : Shared ι κ) : Prop where
  lock : s.lock = none
  known : s.Known
  sound : s.current.Sound

omit [DecidableEq ι] in
theorem calm_new : (Shared.new : Shared ι κ).Calm := ⟨rfl, by rintro h ⟨⟩, session_sound_new⟩

omit [DecidableEq ι] in
theorem Shared.Calm.steady {s : Shared ι κ} (h : s.Calm) : s.Steady := by
  have hhandshake : ∀ hd ∈ s.session.handshake, hd.now s.cells ∈ s.current.handshake :=
    fun hd hhd => Option.mem_map_of_mem _ hhd
  have hthreads : ∀ t ∈ s.session.pump.threads,
      { t with handle := t.handle.now s.cells } ∈ s.current.pump.threads :=
    fun t ht => Option.mem_map_of_mem (fun t => { t with handle := t.handle.now s.cells }) ht
  refine ⟨h.lock, ?_, ?_, ?_⟩
  · intro hd hhd
    obtain ⟨st, hst⟩ := Option.isSome_iff_exists.1 (h.known hd hhd)
    rw [hst]
    simp only [Handle.now, hst, Option.getD_some]
  · intro t ht
    have hmade := h.sound.threads _ (hthreads t ht)
    exact hmade
  · intro hd hhd t ht hid
    exact h.sound.same _ (hhandshake hd hhd) _ (hthreads t ht) hid

/-- **A call of a thread alone** is the operation, and leaves the native layer calm. -/
theorem calm_call {s : Shared ι κ} (h : s.Calm) {i : ι} {result : Except SessionError Unit}
    (idle : s.thread i = .returned result) (op : Op κ) :
    ∃ n, s.Did i (s.current.step C op) (Machine.run (Shared.act C) s (Act.calls i op n)) ∧
      (Machine.run (Shared.act C) s (Act.calls i op n)).Calm := by
  obtain ⟨n, hdid⟩ := alone h.steady idle op
  refine ⟨n, hdid, hdid.lock, ?_, ?_⟩
  · exact Machine.run_inv (fun _ a hs => hs.act a) _ h.known
  · rw [hdid.session]
    exact h.sound.step op

end ShadeVpn.Native
