import ShadeVpn.Vless.VisionStream

/-!
# The VLESS stream of one session

`VlessOut`, `VlessIn` and the response header of `native/src/vless.rs`.  The
first payload a client wraps carries the request header in front of it and ends
the padding phase; later payloads are copied.  The first plaintext a client
unwraps carries the response header.

* `VlessOut.wrap_unpad` — a peer's reader handed the wrapped payloads one by one
  returns the header and the first payload, then the payloads.
* `VlessIn.unwrap_sound` — unwrapping never faults.
-/

namespace ShadeVpn.Vless

open Octets Checked Transduce

/-! ## Out -/

/-- `VlessOut`: the request header is in `header` until the first payload takes it. -/
structure VlessOut where
  header : Option Bytes
  writer : VisionWriter
  deriving DecidableEq

/-- `VlessOut::new`. -/
def VlessOut.new (uuid : Uuid) (flow : Option String) (command : UInt8) (address : Address)
    (port : UInt16) : Except VlessError VlessOut :=
  match buildRequestHeader uuid flow command address port with
  | .error e => .error e
  | .ok header => .ok { header := some header, writer := .new uuid }

/-- `VlessOut::wrap`. -/
def VlessOut.wrap (o : VlessOut) (draw : ℕ → ℕ) (payload : Bytes) :
    Except (Stop VlessError) (Bytes × VlessOut) :=
  match o.header with
  | some first => do
    let (out, writer) ← o.writer.pad draw (first ++ payload) true true
    .ok (out, { header := none, writer })
  | none => do
    let (out, writer) ← o.writer.pad draw payload false false
    .ok (out, { header := none, writer })

/-- What the next wrapped payload carries in front of itself. -/
def VlessOut.pending (o : VlessOut) : Bytes := o.header.getD []

/-- **Wrapped payloads arrive.**  Wrapping never faults; a reader in step with
the writer that gets the wrapped payload as one buffer returns the pending
header and the payload, and stays in step. -/
theorem VlessOut.wrap_unpad {o : VlessOut} {r : VisionReader} (h : InStep o.writer r)
    (draw : ℕ → ℕ) (payload : Bytes) :
    ∃ out o' r', o.wrap draw payload = .ok (out, o') ∧
      r.unpad out = (.ok (o.pending ++ payload), r') ∧ o'.header = none ∧ InStep o'.writer r' := by
  cases hh : o.header with
  | some first =>
    obtain ⟨out, w', r', hpad, hunpad, hstep⟩ := h.pad draw (first ++ payload) true true
    exact ⟨out, ⟨none, w'⟩, r', by simp [wrap, hh, hpad, bind, Except.bind],
      by rw [pending, hh]; exact hunpad, rfl, hstep⟩
  | none =>
    obtain ⟨out, w', r', hpad, hunpad, hstep⟩ := h.pad draw payload false false
    exact ⟨out, ⟨none, w'⟩, r', by simp [wrap, hh, hpad, bind, Except.bind],
      by rw [pending, hh]; exact hunpad, rfl, hstep⟩

/-- How long a wrapped payload can get. -/
theorem VlessOut.length_wrap_le {o o' : VlessOut} {draw : ℕ → ℕ} {payload out : Bytes}
    (h : o.wrap draw payload = .ok (out, o')) :
    out.length ≤ 16 + ((o.pending.length + payload.length) / MAX_FRAME_BODY + 1)
      * (5 + MAX_FRAME_BODY) := by
  cases hh : o.header with
  | some first =>
    rcases hpad : o.writer.pad draw (first ++ payload) true true with e | ⟨out', w'⟩
    · simp [wrap, hh, hpad, bind, Except.bind] at h
    · have := VisionWriter.length_pad_le hpad
      simp only [wrap, hh, hpad, bind, Except.bind, Except.ok.injEq, Prod.mk.injEq] at h
      simpa [pending, hh, ← h.1] using this
  | none =>
    rcases hpad : o.writer.pad draw payload false false with e | ⟨out', w'⟩
    · simp [wrap, hh, hpad, bind, Except.bind] at h
    · have := VisionWriter.length_pad_le hpad
      simp only [wrap, hh, hpad, bind, Except.bind, Except.ok.injEq, Prod.mk.injEq] at h
      simpa [pending, hh, ← h.1] using this

/-! ## In -/

/-- `build_response_header`. -/
def buildResponseHeader : Bytes := [VERSION, 0x0a, 0x01, 0x00]

/-- `parse_response_header`. -/
def parseResponseHeader (wire : Bytes) (requestVersion : UInt8) : Except VlessError Unit :=
  if wire.length < 4 ∨ wire.getD 0 0 ≠ requestVersion then .error .badResponse else .ok ()

/-- `VlessIn`. -/
structure VlessIn where
  responseSeen : Bool
  reader : VisionReader
  deriving DecidableEq

/-- `VlessIn::new`. -/
def VlessIn.new (uuid : Uuid) : VlessIn := { responseSeen := false, reader := .new uuid }

/-- `VlessIn::unwrap`. -/
def VlessIn.unwrap (v : VlessIn) (plaintext : Bytes) :
    Outcome (Stop VlessError) UInt8 VlessIn :=
  match v.reader.unpad plaintext with
  | (.error e, reader) => (.error e, { v with reader })
  | (.ok content, reader) =>
    if v.responseSeen then (.ok content, { v with reader })
    else
      match parseResponseHeader content VERSION with
      | .error e => (.error (.err e), { responseSeen := true, reader })
      | .ok () => (.ok (content.drop 4), { responseSeen := true, reader })

/-- **Unwrapping never faults**: any plaintext gives output or a VLESS error. -/
theorem VlessIn.unwrap_sound {v : VlessIn} (h : v.reader.Draining) (plaintext : Bytes) :
    (v.unwrap plaintext).2.reader.Draining ∧
      ∀ e, (v.unwrap plaintext).1 = .error e → ∃ w, e = .err w := by
  have hs := VisionReader.unpad_sound h plaintext
  rw [unwrap]
  rcases hu : v.reader.unpad plaintext with ⟨e | content, reader⟩ <;> rw [hu] at hs
  · exact ⟨hs.draining, hs.err⟩
  · dsimp only
    split_ifs
    · exact ⟨hs.draining, by simp⟩
    · rcases hp : parseResponseHeader content VERSION with e | u
      · exact ⟨hs.draining, fun e' he => ⟨e, by simpa using he.symm⟩⟩
      · exact ⟨hs.draining, by simp⟩

end ShadeVpn.Vless
