import ShadeVpn.Lib.Machine
import ShadeVpn.Native.Ledger
import ShadeVpn.Native.Steps

/-!
# Probe records in the VLESS stream

A probe seals a raw constant under the keys and sequence numbers of the pump,
whose records carry one Vision stream.  The peer's reader of that stream gets
the probe first and refuses it: it does not begin with the profile's UUID, and
for the one UUID it does begin with, the frame header behind it declares more
content than a frame may have.

* `probed_stream_not_legal` — no session that has sent a probe sends a legal stream.
-/

namespace ShadeVpn.Native

open Octets Checked Handshake Transport Vless Pump

variable {κ : Type} {C : Crypto κ UInt8}

/-! ## Legal streams -/

/-- The plaintexts sealed under a handshake state, in order. -/
def plaintexts (log : List Sealed) (id : ℕ) : List Bytes := (under log id).map Sealed.plaintext

/-- A legal VLESS stream: a peer's reader accepts record after record, and the
first content begins with a request header. -/
def LegalStream (t : Target) (uuid : Uuid) (records : List Bytes) : Prop :=
  ((unwrapRecords (some (.new uuid)) records).bind (splitRequest t)).any
    (fun received => received.request.isSome) = true

instance (t : Target) (uuid : Uuid) (records : List Bytes) :
    Decidable (LegalStream t uuid records) :=
  inferInstanceAs (Decidable (_ = true))

/-! ## The reader and the probe -/

/-- The UUID the probe begins with. -/
def probeUuid : Uuid := ⟨PROBE.take 16, by decide +kernel⟩

/-- **No reader accepts a probe** as its first buffer. -/
theorem unwrapRecord_probe (uuid : Uuid) : unwrapRecord (some (.new uuid)) PROBE = none := by
  by_cases huuid : PROBE.take 16 = uuid.toList
  · obtain rfl : probeUuid = uuid := List.Vector.toList_injective huuid
    decide +kernel
  · have hlen : 21 ≤ PROBE.length := by decide +kernel
    have hunpad : (VisionReader.new uuid).unpad PROBE
        = (.error (.err .uuidMismatch), { VisionReader.new uuid with firstBuffer := false }) := by
      simp [VisionReader.unpad, VisionReader.new, huuid, hlen]
    rw [unwrapRecord, hunpad]

/-- A stream that begins with a probe is not legal. -/
theorem not_legalStream_probe (t : Target) (uuid : Uuid) (records : List Bytes) :
    ¬ LegalStream t uuid (PROBE :: records) := by
  simp [LegalStream, unwrapRecords, unwrapRecord_probe]

/-! ## The first record -/

/-- A probe of a session that is completed and connected seals its record. -/
theorem probe_seals (hC : C.Lawful) {s : Session κ} {h : Handle κ} {keys : RecordKeys UInt8}
    (hh : s.handshake = some h) (hdone : h.state.completed = true)
    (hkeys : h.state.recordKeys = some keys) (hsocket : s.socket = true) {io : ProbeIo}
    (hclone : io.clone = none) : (s.probe C io).effects ≠ [] := by
  have hprobe : PROBE.length ≤ Crypto.AES_MAX := by decide +kernel
  obtain ⟨sealed, hseal⟩ := hC.encrypt_ok keys.send
    (deriveNonce C h.state.sealedSessionId s.nextOutSeq .client NONCE_PURPOSE_DATA) [] PROBE
    (by simp) hprobe
  have hrecord : h.state.sealRecord C s.nextOutSeq PROBE = .ok sealed := by
    simp [HandshakeState.sealRecord, hkeys, hseal]
  rw [Session.probe, hh]
  simp only [hdone, hsocket, hclone, hrecord, Bool.not_true, Bool.false_eq_true, if_false]
  split
  · simp
  · split
    · simp
    · simp
    · split
      · simp
      · split_ifs <;> simp

/-- The log of sealed records only grows. -/
theorem sealed_prefix (w : World κ) (ops : List (Op κ)) :
    ∃ more, (Machine.run (World.step C) w ops).sealed = w.sealed ++ more := by
  induction ops generalizing w with
  | nil => exact ⟨[], by simp⟩
  | cons op ops ih =>
    obtain ⟨more, hmore⟩ := ih (w.step C op)
    refine ⟨(w.session.step C op).effects.filterMap Effect.record? ++ more, ?_⟩
    rw [Machine.run_cons, hmore, ← List.append_assoc]
    simp [World.step, World.after, World.sealed]

/-- **A probed session sends no legal VLESS stream.**  For a session whose
handshake is completed and under which nothing was sealed yet, whatever VLESS
parameters it holds: after one probe or more, and whatever comes then (the start
of the pump, its packets, further probes), the plaintexts sealed under the
handshake are no legal stream for any UUID. -/
theorem probed_stream_not_legal (hC : C.Lawful) {w : World κ} {h : Handle κ}
    {keys : RecordKeys UInt8} (hh : w.session.handshake = some h)
    (hdone : h.state.completed = true) (hkeys : h.state.recordKeys = some keys)
    (hsocket : w.session.socket = true) (hnew : under w.sealed h.id = []) {io : ProbeIo}
    (hclone : io.clone = none) (probes : List ProbeIo) (ops : List (Op κ)) (t : Target)
    (uuid : Uuid) :
    ¬ LegalStream t uuid (plaintexts
      (Machine.run (World.step C) w ((io :: probes).map Op.probe ++ ops)).sealed h.id) := by
  obtain ⟨more, hmore⟩ := sealed_prefix (C := C) (w.step C (.probe io)) (probes.map Op.probe ++ ops)
  have hfirst : ∃ x : Sealed, x.handle = h.id ∧ x.plaintext = PROBE ∧
      (w.step C (.probe io)).sealed = w.sealed ++ [x] := by
    rcases probe_cases C w.session io with ⟨-, he⟩ |
      ⟨h', written, nextIn, opened, hh', hreply, -, he⟩
    · exact absurd he (probe_seals hC hh hdone hkeys hsocket hclone)
    · obtain rfl : h = h' := Option.some.inj (hh.symm.trans hh')
      refine ⟨⟨h.id, w.session.nextOutSeq, .probe written, w.session.pump.starts, PROBE⟩, rfl, rfl, ?_⟩
      have hrecords := hreply.record?
      simp only [World.sealed] at hrecords ⊢
      simp [World.step, World.after, Session.step, he, hrecords]
  obtain ⟨x, hhandle, hplain, hx⟩ := hfirst
  have hunder : under (w.sealed ++ [x] ++ more) h.id = x :: under more h.id := by
    have hself : under (w.sealed ++ [x]) h.id = [x] := by
      rw [← hhandle, under_snoc_self, hhandle, hnew, List.nil_append]
    rw [under, List.filter_append, ← under, ← under, hself, List.singleton_append]
  rw [List.map_cons, List.cons_append, Machine.run_cons, hmore, hx, plaintexts, hunder,
    List.map_cons, hplain]
  exact not_legalStream_probe t uuid _

/-- The sample session, connected and completed. -/
def sampleConnected : World UInt8 :=
  Machine.run (World.step Crypto.toy) World.new
    [.connect sampleRequest none, .complete (some sampleResponse)]

theorem probed_stream_not_legal_toy : ∃ h, sampleConnected.session.handshake = some h ∧
    ¬ LegalStream .aarch64 sampleRequest.uuid (plaintexts
      (Machine.run (World.step Crypto.toy) sampleConnected
        ([⟨none, none, .ok none⟩].map Op.probe ++ [.startPump true ⟨none, none, true⟩,
          .outbound (.packet (samplePacket 4) (fun _ => 0) none)])).sealed h.id) := by
  obtain ⟨h, hh⟩ : ∃ h, sampleConnected.session.handshake = some h :=
    Option.isSome_iff_exists.1 (by decide +kernel)
  have hdone : sampleConnected.session.handshake.all (fun h => h.state.completed) = true := by
    decide +kernel
  have hkeys : sampleConnected.session.handshake.all (fun h => h.state.recordKeys.isSome) = true := by
    decide +kernel
  rw [hh, Option.all_some] at hdone hkeys
  obtain ⟨keys, hkeys⟩ := Option.isSome_iff_exists.1 hkeys
  have hlog : sampleConnected.sealed = [] := by decide +kernel
  exact ⟨h, hh, probed_stream_not_legal Crypto.toy_lawful hh hdone hkeys (by decide +kernel)
    (by rw [hlog]; rfl) rfl [] _ .aarch64 sampleRequest.uuid⟩

/-- The probe of a session and a packet of its pump, read by a peer of the same UUID. -/
theorem not_legalStream_sample :
    ¬ LegalStream .aarch64 sampleRequest.uuid (plaintexts
      (Machine.run (World.step Crypto.toy) World.new
        [.connect sampleRequest none, .complete (some sampleResponse),
          .probe ⟨none, none, .ok none⟩, .startPump true ⟨none, none, true⟩,
          .outbound (.packet (samplePacket 4) (fun _ => 0) none)]).sealed 0) := by
  decide +kernel

end ShadeVpn.Native
