import ShadeVpn.Lib.Machine
import ShadeVpn.Native.Steps

/-!
# What a failed completion leaves

`nativeCompleteHandshake` tears the session down when the handshake rejects the response.
It has two more answers that are not `ok`: a string that is not base64, and no handshake in
progress; neither touches the session.

* `cleansUp_iff` — in every state that the native operations reach: a completion that fails
  leaves nothing behind if there was a handshake and the string was base64, or if nothing
  had been left before.
-/

namespace ShadeVpn.Native

open Octets Checked Handshake Transport Vless Pump

variable {κ : Type} (C : Crypto κ UInt8)

/-- Keys and socket are gone, and the pump has been told to stop. -/
structure Session.TornDown (s : Session κ) : Prop where
  handshake : s.handshake = none
  socket : s.socket = false
  nextOutSeq : s.nextOutSeq = 0
  nextInSeq : s.nextInSeq = 0
  vlessTunnel : s.vlessTunnel = none
  stop : s.pump.stop = true
  halt : s.pump.halt = false

/-- `nativeCompleteHandshake` on a string.  A `JString` that cannot be read is `""`. -/
def Session.completeText (decode : String → Option Bytes) (s : Session κ) (text : String) :
    Outcome κ :=
  s.complete C (decode text)

/-- If the call does not report ok, the session is torn down. -/
def Session.CleansUp (decode : String → Option Bytes) (s : Session κ) (text : String) : Prop :=
  (s.completeText C decode text).result ≠ .ok () →
    (s.completeText C decode text).session.TornDown

variable {C}

theorem Session.teardown_tornDown (s : Session κ) : s.teardown.TornDown :=
  ⟨rfl, rfl, rfl, rfl, rfl, rfl, rfl⟩

/-- What is torn down neither probes nor pumps. -/
theorem Session.TornDown.refuses {s : Session κ} (h : s.TornDown) (probe : ProbeIo)
    (blockIpv6 : Bool) (start : StartIo) :
    s.probe C probe = ⟨s, [], .error .handshakeNotCompleted⟩ ∧
      s.startPump blockIpv6 start = ⟨s, [], .error .handshakeNotCompleted⟩ := by
  constructor
  · simp only [Session.probe, h.handshake]
  · simp only [Session.startPump, h.handshake]

/-! ## Sessions without a handshake -/

/-- Without a handshake there is no socket, no sequence and no VLESS identity, and a pump
that has been told to stop has no halt handle. -/
structure Session.Tidy (s : Session κ) : Prop where
  socket : s.handshake = none → s.socket = false
  nextOutSeq : s.handshake = none → s.nextOutSeq = 0
  nextInSeq : s.handshake = none → s.nextInSeq = 0
  vlessTunnel : s.handshake = none → s.vlessTunnel = none
  halt : s.pump.stop = true → s.pump.halt = false

theorem tidy_new : (Session.new : Session κ).Tidy :=
  ⟨fun _ => rfl, fun _ => rfl, fun _ => rfl, fun _ => rfl, fun _ => rfl⟩

theorem Session.TornDown.tidy {s : Session κ} (h : s.TornDown) : s.Tidy :=
  ⟨fun _ => h.socket, fun _ => h.nextOutSeq, fun _ => h.nextInSeq, fun _ => h.vlessTunnel,
    fun _ => h.halt⟩

/-- With a handshake, only the pump has to be tidy. -/
theorem Session.tidy_of_handshake {s : Session κ} {h : Handle κ} (hsome : s.handshake = some h)
    (hhalt : s.pump.stop = true → s.pump.halt = false) : s.Tidy := by
  have hnot : s.handshake ≠ none := by
    rw [hsome]
    exact Option.some_ne_none h
  exact ⟨fun hn => absurd hn hnot, fun hn => absurd hn hnot, fun hn => absurd hn hnot,
    fun hn => absurd hn hnot, hhalt⟩

/-- Another pump, as tidy. -/
theorem Session.Tidy.pump {s : Session κ} (h : s.Tidy) {pump : TunnelPump κ}
    (hhalt : pump.stop = true → pump.halt = false) : Session.Tidy { s with pump } :=
  ⟨h.socket, h.nextOutSeq, h.nextInSeq, h.vlessTunnel, hhalt⟩

theorem signOff_halt {p : TunnelPump κ} (h : p.halt = false) (before after : Option Exit)
    (halts : Exit) : (p.signOff before after halts).halt = false := by
  rw [TunnelPump.signOff.eq_def]
  split
  · rw [TunnelPump.finish]
    split_ifs <;> first | rfl | exact h
  · exact h

theorem outboundTurn_halt {s : Session κ} (h : s.pump.halt = false) (e : TunRead) :
    (s.outboundTurn C e).session.pump.halt = false := by
  rw [Session.outboundTurn.eq_def]
  split
  · exact h
  · dsimp only
    split_ifs
    · exact h
    · apply signOff_halt
      exact h

theorem inboundTurn_halt {s : Session κ} (h : s.pump.halt = false) (e : SocketRead) :
    (s.inboundTurn C e).session.pump.halt = false := by
  rw [Session.inboundTurn.eq_def]
  split
  · exact h
  · dsimp only
    split_ifs
    · exact h
    · apply signOff_halt
      exact h

/-- A start clears `stop`, unless it is refused. -/
theorem start_halt {p : TunnelPump κ} (h : p.stop = true → p.halt = false) (handle : Handle κ)
    (config : PumpConfig) (nextOutSeq nextInSeq : UInt64) (io : StartIo) :
    (p.start handle config nextOutSeq nextInSeq io).2.stop = true →
      (p.start handle config nextOutSeq nextInSeq io).2.halt = false := by
  rw [TunnelPump.start]
  split_ifs
  · exact h
  · dsimp only
    split <;> exact fun hstop => absurd hstop Bool.false_ne_true

/-- **Every step keeps the session tidy.** -/
theorem Session.Tidy.step {s : Session κ} (h : s.Tidy) (op : Op κ) :
    (s.step C op).session.Tidy := by
  cases op with
  | connect r io =>
    rw [Session.step, Session.connect.eq_def]
    split
    · exact h
    · split
      · exact h
      · exact h
      · exact Session.tidy_of_handshake rfl h.halt
  | complete response =>
    rw [Session.step, Session.complete.eq_def]
    split
    · split
      · exact Session.tidy_of_handshake rfl h.halt
      · exact s.teardown_tornDown.tidy
    · exact h
    · exact h
  | probe io =>
    rcases probe_cases C s io with ⟨hs, -⟩ | ⟨hd, written, nextIn, opened, hhd, -, hs, -⟩
    · rw [Session.step, hs]
      exact h
    · rw [Session.step, hs]
      exact Session.tidy_of_handshake hhd h.halt
  | startPump blockIpv6 io =>
    rw [Session.step, Session.startPump]
    split
    · exact h
    · split_ifs
      · exact h
      · exact h
      · split
        · exact h
        · exact h.pump (start_halt h.halt _ _ _ _ io)
  | stopPump => exact h.pump fun _ => rfl
  | disconnect => exact s.teardown_tornDown.tidy
  | outbound e =>
    obtain ⟨pump, hsession, hstop⟩ := outboundTurn_pump (C := C) s e
    have hhalt := fun hh => outboundTurn_halt (C := C) (s := s) hh e
    rw [Session.step, hsession] at *
    exact h.pump fun hset => hhalt (h.halt (hstop ▸ hset))
  | inbound e =>
    obtain ⟨pump, hsession, hstop⟩ := inboundTurn_pump (C := C) s e
    have hhalt := fun hh => inboundTurn_halt (C := C) (s := s) hh e
    rw [Session.step, hsession] at *
    exact h.pump fun hset => hhalt (h.halt (hstop ▸ hset))

theorem tidy_run (ops : List (Op κ)) : (Machine.run (World.step C) .new ops).session.Tidy :=
  Machine.run_inv (I := fun w : World κ => w.session.Tidy) (fun _ op h => h.step op) ops tidy_new

/-! ## Completions that fail -/

variable {decode : String → Option Bytes}

/-- A string that is not base64 changes nothing, and neither does one without a handshake. -/
theorem completeText_unheard {s : Session κ} {text : String}
    (h : s.handshake = none ∨ decode text = none) :
    (s.completeText C decode text).session = s ∧
      (s.completeText C decode text).result ≠ .ok () := by
  rw [Session.completeText, Session.complete.eq_def]
  cases hdecode : decode text with
  | none => exact ⟨rfl, by simp⟩
  | some bytes =>
    have hnone : s.handshake = none := h.resolve_right (by simp [hdecode])
    rw [hnone]
    exact ⟨rfl, by simp⟩

/-- A response that is heard and rejected tears the session down. -/
theorem cleansUp_heard {s : Session κ} {text : String} {h : Handle κ} {bytes : Bytes}
    (hsome : s.handshake = some h) (hdecode : decode text = some bytes) :
    s.CleansUp C decode text := by
  rw [Session.CleansUp, Session.completeText, Session.complete.eq_def, hsome, hdecode]
  dsimp only
  split
  · exact fun hno => absurd rfl hno
  · exact fun _ => s.teardown_tornDown

/-- **When a completion that fails tears down**: after any operations, if a handshake is in
progress and the string is base64, or if nothing is in progress on a pump that has been told
to stop already. -/
theorem cleansUp_iff (ops : List (Op κ)) (text : String) :
    (Machine.run (World.step C) .new ops).session.CleansUp C decode text ↔
      (Machine.run (World.step C) .new ops).session.handshake ≠ none ∧ decode text ≠ none ∨
        (Machine.run (World.step C) .new ops).session.handshake = none ∧
          (Machine.run (World.step C) .new ops).session.pump.stop = true := by
  have htidy := tidy_run (C := C) ops
  generalize (Machine.run (World.step C) .new ops).session = s at *
  rcases hhandshake : s.handshake with _ | h
  · -- nothing is heard without a handshake
    obtain ⟨hsame, hfails⟩ := @completeText_unheard _ C decode s text (Or.inl hhandshake)
    constructor
    · intro hcleans
      exact Or.inr ⟨rfl, hsame ▸ (hcleans hfails).stop⟩
    · rintro (⟨hsome, -⟩ | ⟨-, hstop⟩)
      · exact absurd rfl hsome
      · intro _
        rw [hsame]
        exact ⟨hhandshake, htidy.socket hhandshake, htidy.nextOutSeq hhandshake,
          htidy.nextInSeq hhandshake, htidy.vlessTunnel hhandshake, hstop, htidy.halt hstop⟩
  · rcases hdecode : decode text with _ | bytes
    · obtain ⟨hsame, hfails⟩ := @completeText_unheard _ C decode s text (Or.inr hdecode)
      refine iff_of_false (fun hcleans => ?_) (by simp)
      have hgone := (hcleans hfails).handshake
      rw [hsame, hhandshake] at hgone
      cases hgone
    · exact iff_of_true (cleansUp_heard hhandshake hdecode) (Or.inl (by simp))

/-- A connect, and then a string that is not base64. -/
theorem not_cleansUp : ¬ ∀ (decode : String → Option Bytes) (ops : List (Op UInt8)) (text : String),
    (Machine.run (World.step Crypto.toy) .new ops).session.CleansUp Crypto.toy decode text := by
  intro hall
  have hcleans := hall (fun _ => none) [.connect sampleRequest none] "!"
  have hgone := (hcleans (by simp [Session.completeText, Session.complete])).socket
  revert hgone
  decide +kernel

end ShadeVpn.Native
