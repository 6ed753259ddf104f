import ShadeVpn.Pump.Transport

/-!
# A cut stream of frames

What a reader of `native/src/transport.rs` makes of a stream that `write_frame`
wrote and that ends early, at any point.

The frames before the cut come back whole and in order.  Then the end of the
stream is told apart from a cut inside a payload, but not from a cut inside a
length field: there the first `read_exact` meets the end of the stream, and
`read_frame` answers as it does between two frames.

* `readFrames_take` — what is read at any cut.
* `readFrames_take_iff` — the cuts at which that is what the two error cases promise.
-/

namespace ShadeVpn.Transport

open Octets

/-- The stream of some payloads, as `write_frame` puts it on an open socket. -/
def writeFrames (payloads : List Bytes) : Bytes := payloads.flatMap fun p => (writeFrame p none).2

/-- The payloads whose frames lie wholly before a cut. -/
def framesBefore : List Bytes → ℕ → List Bytes
  | [], _ => []
  | p :: ps, cut =>
    if (frameBytes p).length ≤ cut then p :: framesBefore ps (cut - (frameBytes p).length) else []

/-- A cut between two frames, or at an end of the stream. -/
def OnBoundary (payloads : List Bytes) (cut : ℕ) : Prop :=
  ∃ pre ∈ payloads.inits, (writeFrames pre).length = cut

/-- A cut behind the first, second or third byte of a length field. -/
def InLengthField (payloads : List Bytes) (cut : ℕ) : Prop :=
  ∃ pre ∈ payloads.inits, pre ≠ payloads ∧
    (writeFrames pre).length < cut ∧ cut < (writeFrames pre).length + 4

instance (payloads : List Bytes) (cut : ℕ) : Decidable (OnBoundary payloads cut) := by
  unfold OnBoundary
  infer_instance

instance (payloads : List Bytes) (cut : ℕ) : Decidable (InLengthField payloads cut) := by
  unfold InLengthField
  infer_instance

/-! ## Frames and cuts -/

theorem writeFrames_cons {p : Bytes} (h : p.length ≤ MAX_FRAME_LEN) (ps : List Bytes) :
    writeFrames (p :: ps) = frameBytes p ++ writeFrames ps := by
  simp [writeFrames, writeFrame_ok h]

/-- Boundaries behind the first frame are boundaries of the other frames. -/
theorem onBoundary_cons_of_le {p : Bytes} (h : p.length ≤ MAX_FRAME_LEN) {ps : List Bytes} {cut : ℕ}
    (hcut : (frameBytes p).length ≤ cut) :
    OnBoundary (p :: ps) cut ↔ OnBoundary ps (cut - (frameBytes p).length) := by
  have hpos := length_frameBytes p
  unfold OnBoundary
  rw [List.inits_cons]
  constructor
  · rintro ⟨pre, hpre, rfl⟩
    rcases List.mem_cons.1 hpre with rfl | hmem
    · rw [show (writeFrames []).length = 0 from rfl] at hcut
      omega
    · obtain ⟨pre', hpre', rfl⟩ := List.mem_map.1 hmem
      exact ⟨pre', hpre', by rw [writeFrames_cons h, List.length_append]; omega⟩
  · rintro ⟨pre, hpre, hlen⟩
    refine ⟨p :: pre, List.mem_cons_of_mem _ (List.mem_map_of_mem hpre), ?_⟩
    rw [writeFrames_cons h, List.length_append]
    omega

theorem inLengthField_cons_of_le {p : Bytes} (h : p.length ≤ MAX_FRAME_LEN) {ps : List Bytes}
    {cut : ℕ} (hcut : (frameBytes p).length ≤ cut) :
    InLengthField (p :: ps) cut ↔ InLengthField ps (cut - (frameBytes p).length) := by
  have hpos := length_frameBytes p
  unfold InLengthField
  rw [List.inits_cons]
  constructor
  · rintro ⟨pre, hpre, hne, hlow, hhigh⟩
    rcases List.mem_cons.1 hpre with rfl | hmem
    · simp [writeFrames] at hhigh
      omega
    · obtain ⟨pre', hpre', rfl⟩ := List.mem_map.1 hmem
      rw [writeFrames_cons h, List.length_append] at hlow hhigh
      exact ⟨pre', hpre', fun heq => hne (by rw [heq]), by omega, by omega⟩
  · rintro ⟨pre, hpre, hne, hlow, hhigh⟩
    refine ⟨p :: pre, List.mem_cons_of_mem _ (List.mem_map_of_mem hpre), ?_, ?_, ?_⟩
    · intro heq
      exact hne (List.cons.inj heq).2
    · rw [writeFrames_cons h, List.length_append]
      omega
    · rw [writeFrames_cons h, List.length_append]
      omega

/-- Inside the first frame only its front is a boundary. -/
theorem onBoundary_cons_of_lt {p : Bytes} (h : p.length ≤ MAX_FRAME_LEN) {ps : List Bytes} {cut : ℕ}
    (hcut : cut < (frameBytes p).length) : OnBoundary (p :: ps) cut ↔ cut = 0 := by
  unfold OnBoundary
  rw [List.inits_cons]
  constructor
  · rintro ⟨pre, hpre, rfl⟩
    rcases List.mem_cons.1 hpre with rfl | hmem
    · rfl
    · obtain ⟨pre', -, rfl⟩ := List.mem_map.1 hmem
      rw [writeFrames_cons h, List.length_append] at hcut
      omega
  · rintro rfl
    exact ⟨[], List.mem_cons_self, rfl⟩

theorem inLengthField_cons_of_lt {p : Bytes} (h : p.length ≤ MAX_FRAME_LEN) {ps : List Bytes}
    {cut : ℕ} (hcut : cut < (frameBytes p).length) :
    InLengthField (p :: ps) cut ↔ 0 < cut ∧ cut < 4 := by
  unfold InLengthField
  rw [List.inits_cons]
  constructor
  · rintro ⟨pre, hpre, -, hlow, hhigh⟩
    rcases List.mem_cons.1 hpre with rfl | hmem
    · simpa [writeFrames] using And.intro hlow hhigh
    · obtain ⟨pre', -, rfl⟩ := List.mem_map.1 hmem
      rw [writeFrames_cons h, List.length_append] at hlow
      omega
  · rintro ⟨hlow, hhigh⟩
    exact ⟨[], List.mem_cons_self, by simp, by simpa [writeFrames] using hlow,
      by simpa [writeFrames] using hhigh⟩

/-! ## Reading up to the cut -/

/-- **What is read at any cut**: the frames before it, and an error only behind a
length field. -/
theorem readFrames_take {payloads : List Bytes} (h : ∀ p ∈ payloads, p.length ≤ MAX_FRAME_LEN)
    {cut : ℕ} (hcut : cut ≤ (writeFrames payloads).length) :
    readFrames ((writeFrames payloads).take cut)
      = (framesBefore payloads cut,
          if OnBoundary payloads cut ∨ InLengthField payloads cut then none
          else some .closedMidFrame) := by
  induction payloads generalizing cut with
  | nil =>
    have hzero : cut = 0 := by simpa [writeFrames] using hcut
    subst hzero
    have hread : readFrames [] = ([], none) := readFrames_of_end rfl
    have hbound : OnBoundary [] 0 := ⟨[], by simp, rfl⟩
    rw [if_pos (.inl hbound)]
    exact hread
  | cons p ps ih =>
    have hp := h p List.mem_cons_self
    by_cases hwhole : (frameBytes p).length ≤ cut
    · have htail : cut - (frameBytes p).length ≤ (writeFrames ps).length := by
        rw [writeFrames_cons hp, List.length_append] at hcut
        omega
      have hrest := ih (fun q hq => h q (List.mem_cons_of_mem p hq)) htail
      rw [writeFrames_cons hp, List.take_append, List.take_of_length_le hwhole,
        readFrames_frameBytes hp, hrest, framesBefore, if_pos hwhole]
      simp only [onBoundary_cons_of_le hp hwhole, inLengthField_cons_of_le hp hwhole]
    · have hlt := not_le.1 hwhole
      rw [writeFrames_cons hp, List.take_append_of_le_length hlt.le, readFrames_take_frame hp hlt,
        framesBefore, if_neg hwhole]
      simp only [onBoundary_cons_of_lt hp hlt, inLengthField_cons_of_lt hp hlt]
      congr 1
      by_cases hshort : cut < 4
      · rw [if_pos hshort, if_pos (by omega)]
      · rw [if_neg hshort, if_neg (by omega)]

/-- No boundary lies inside a length field. -/
theorem not_onBoundary_of_inLengthField {payloads : List Bytes}
    (h : ∀ p ∈ payloads, p.length ≤ MAX_FRAME_LEN) {cut : ℕ} (hfield : InLengthField payloads cut) :
    ¬ OnBoundary payloads cut := by
  induction payloads generalizing cut with
  | nil =>
    obtain ⟨pre, hpre, hne, -⟩ := hfield
    exact absurd (by simpa using hpre) hne
  | cons p ps ih =>
    have hp := h p List.mem_cons_self
    by_cases hwhole : (frameBytes p).length ≤ cut
    · rw [onBoundary_cons_of_le hp hwhole]
      rw [inLengthField_cons_of_le hp hwhole] at hfield
      exact ih (fun q hq => h q (List.mem_cons_of_mem p hq)) hfield
    · rw [onBoundary_cons_of_lt hp (not_le.1 hwhole)]
      rw [inLengthField_cons_of_lt hp (not_le.1 hwhole)] at hfield
      omega

/-- **Truncation is detected exactly outside the length fields.**  On the stream of
any payloads that fit a frame, cut anywhere, the reader returns the payloads
before the cut, then `Ok(None)` on a boundary and `ClosedMidFrame` elsewhere, if
and only if the cut is not inside a length field. -/
theorem readFrames_take_iff {payloads : List Bytes} (h : ∀ p ∈ payloads, p.length ≤ MAX_FRAME_LEN)
    {cut : ℕ} (hcut : cut ≤ (writeFrames payloads).length) :
    readFrames ((writeFrames payloads).take cut)
        = (framesBefore payloads cut, if OnBoundary payloads cut then none
          else some .closedMidFrame)
      ↔ ¬ InLengthField payloads cut := by
  rw [readFrames_take h hcut]
  constructor
  · intro heq hfield
    rw [if_pos (.inr hfield), if_neg (not_onBoundary_of_inLengthField h hfield)] at heq
    cases (Prod.ext_iff.1 heq).2
  · intro hfield
    simp only [hfield, or_false]

theorem readFrames_take_iff_sample :
    readFrames ((writeFrames [[1, 2], [], [3]]).take 14)
        = ([[1, 2], []], some .closedMidFrame)
      ↔ ¬ InLengthField [[1, 2], [], [3]] 14 := by
  have hfit : ∀ p ∈ ([[1, 2], [], [3]] : List Bytes), p.length ≤ MAX_FRAME_LEN := by decide
  have hcut : 14 ≤ (writeFrames [[1, 2], [], [3]]).length := by decide
  exact readFrames_take_iff hfit hcut

/-- A cut behind the second byte of a length field passes for an end of the stream. -/
theorem not_truncation_detected :
    ¬ OnBoundary [[1, 2], [3]] 8 ∧
      readFrames ((writeFrames [[1, 2], [3]]).take 8) = ([[1, 2]], none) := by
  decide +kernel

end ShadeVpn.Transport
