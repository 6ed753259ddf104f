import ShadeVpn.Vless.Vision

/-!
# The Vision stream

What the writer of `Vision` puts out is a sequence of `Frame`s, and a reader at
a frame boundary gives back the content of each (`feed_frame`).  Writer and
reader then go in step (`InStep`), and from that

* `InStep.pad` — a reader handed whole writer outputs returns the payloads one
  for one;
* `vision_stream_round_trip` — however the stream is cut into buffers, as long
  as the first buffer has 21 bytes, the reader accepts it and returns the
  payloads.
-/

namespace ShadeVpn.Vless

open Octets Checked Transduce

/-! ## Frames -/

/-- A filled header buffer. -/
def headerBytes (a b c d e : UInt8) : List.Vector UInt8 5 := ⟨[a, b, c, d, e], rfl⟩

/-- The commands the reader knows. -/
def KnownCommand (command : UInt8) : Prop :=
  command = PADDING_CONTINUE ∨ command = PADDING_END ∨ command = PADDING_DIRECT

/-- A padding frame that fits Xray's buffer. -/
structure Frame where
  command : UInt8
  content : Bytes
  paddingLen : ℕ
  fits : content.length + paddingLen ≤ MAX_FRAME_BODY

namespace Frame

/-- The bytes of a frame. -/
def encode (f : Frame) : Bytes :=
  f.command :: (toBE 2 f.content.length ++ toBE 2 f.paddingLen ++ f.content
    ++ List.replicate f.paddingLen 0)

theorem length_encode_le (f : Frame) : f.encode.length ≤ 5 + MAX_FRAME_BODY := by
  have := f.fits
  simp only [encode, List.length_cons, List.length_append, length_toBE, List.length_replicate]
  omega

end Frame

/-- `xtls_padding` writes one frame with the given content and command. -/
theorem xtlsPadding_eq {content : Bytes} (h : content.length ≤ MAX_FRAME_BODY)
    (command : UInt8) (uuid : Option Uuid) (longPadding : Bool) (draw : ℕ) :
    ∃ f : Frame, f.content = content ∧ f.command = command ∧
      xtlsPadding content command uuid longPadding draw = .ok (uuidBytes uuid ++ f.encode) := by
  obtain ⟨n, hn⟩ : ∃ n, samplePadding content.length longPadding draw = .ok n := by
    rw [samplePadding]
    split_ifs with hlong
    · refine ⟨_, sub_eq_ok ?_⟩
      have : content.length < 900 := hlong.1
      show content.length ≤ draw % 500 + 900
      omega
    · exact ⟨_, rfl⟩
  have hcap : (if n > MAX_FRAME_BODY - content.length then MAX_FRAME_BODY - content.length else n)
      ≤ MAX_FRAME_BODY - content.length := by split_ifs <;> omega
  refine ⟨⟨command, content, _, Nat.add_le_of_le_sub' h hcap⟩, rfl, rfl, ?_⟩
  simp only [xtlsPadding, hn, sub_eq_ok h, bind, Except.bind, Frame.encode]

/-- `fs` and `last` are frames that carry `payload`: full CONTINUE frames, then one
that ends the stream if that was asked for. -/
structure Reshapes (fs : List Frame) (last : Frame) (payload : Bytes) (forceEnd : Bool) : Prop where
  full : ∀ f ∈ fs, f.command = PADDING_CONTINUE ∧ f.content.length = MAX_FRAME_BODY
  last_command : last.command = if forceEnd then PADDING_END else PADDING_CONTINUE
  contents : fs.flatMap Frame.content ++ last.content = payload

/-- The loop of `pad` reshapes the payload. -/
theorem padLoop_eq (draw : ℕ → ℕ) (longPadding forceEnd : Bool) (k : ℕ) (uuid : Option Uuid)
    (remaining : Bytes) :
    ∃ fs last, Reshapes fs last remaining forceEnd ∧
      padLoop draw longPadding forceEnd k uuid remaining
        = .ok (uuidBytes uuid ++ (fs.flatMap Frame.encode ++ last.encode)) := by
  by_cases hlast : remaining.length ≤ MAX_FRAME_BODY
  · obtain ⟨f, hcontent, hcommand, hf⟩ := xtlsPadding_eq hlast
      (if forceEnd then PADDING_END else PADDING_CONTINUE) uuid longPadding (draw k)
    refine ⟨[], f, ⟨by simp, hcommand, by simpa using hcontent⟩, ?_⟩
    rw [padLoop, if_pos hlast, hf]
    simp
  · have htake : (remaining.take MAX_FRAME_BODY).length = MAX_FRAME_BODY := by
      rw [List.length_take]
      omega
    obtain ⟨f, hcontent, hcommand, hf⟩ :=
      xtlsPadding_eq htake.le PADDING_CONTINUE uuid longPadding (draw k)
    obtain ⟨fs, last, hfs, hrest⟩ :=
      padLoop_eq draw longPadding forceEnd (k + 1) none (remaining.drop MAX_FRAME_BODY)
    refine ⟨f :: fs, last, ⟨?_, hfs.last_command, ?_⟩, ?_⟩
    · exact List.forall_mem_cons.2 ⟨⟨hcommand, by rw [hcontent, htake]⟩, hfs.full⟩
    · rw [List.flatMap_cons, List.append_assoc, hfs.contents, hcontent, List.take_append_drop]
    · rw [padLoop, if_neg hlast, hf, hrest]
      simp [bind, Except.bind, uuidBytes]
termination_by remaining.length
decreasing_by simp only [List.length_drop, MAX_FRAME_BODY_eq] at *; omega

/-- A padding writer's output: the identity prefix it still holds, then frames. -/
theorem VisionWriter.pad_eq {w : VisionWriter} (hw : w.isPadding = true) (draw : ℕ → ℕ)
    (payload : Bytes) (longPadding forceEnd : Bool) :
    ∃ fs last, Reshapes fs last payload forceEnd ∧
      w.pad draw payload longPadding forceEnd
        = .ok (uuidBytes w.uuid ++ (fs.flatMap Frame.encode ++ last.encode),
          ⟨none, !forceEnd⟩) := by
  obtain ⟨fs, last, hfs, hloop⟩ := padLoop_eq draw longPadding forceEnd 0 w.uuid payload
  refine ⟨fs, last, hfs, ?_⟩
  cases forceEnd <;> simp [VisionWriter.pad, hw, hloop, bind, Except.bind]

/-- Every frame carries a full body of content but the last, so there are few. -/
theorem Reshapes.length_le {fs : List Frame} {last : Frame} {payload : Bytes} {forceEnd : Bool}
    (h : Reshapes fs last payload forceEnd) :
    (fs.flatMap Frame.encode ++ last.encode).length
      ≤ (payload.length / MAX_FRAME_BODY + 1) * (5 + MAX_FRAME_BODY) := by
  have hcontent : (fs.flatMap Frame.content).length = fs.length * MAX_FRAME_BODY := by
    rw [List.length_flatMap, List.map_congr_left (fun f hf => (h.full f hf).2)]
    simp
  have hcount : fs.length ≤ payload.length / MAX_FRAME_BODY := by
    rw [Nat.le_div_iff_mul_le (by decide), ← hcontent, ← h.contents, List.length_append]
    exact Nat.le_add_right _ _
  have hframes : (fs.flatMap Frame.encode).length ≤ fs.length * (5 + MAX_FRAME_BODY) := by
    rw [List.length_flatMap]
    refine (List.sum_le_card_nsmul _ (5 + MAX_FRAME_BODY) ?_).trans (by simp)
    simp only [List.mem_map]
    rintro n ⟨f, -, rfl⟩
    exact f.length_encode_le
  calc (fs.flatMap Frame.encode ++ last.encode).length
      ≤ fs.length * (5 + MAX_FRAME_BODY) + (5 + MAX_FRAME_BODY) := by
        rw [List.length_append]
        exact Nat.add_le_add hframes last.length_encode_le
    _ = (fs.length + 1) * (5 + MAX_FRAME_BODY) := by ring
    _ ≤ (payload.length / MAX_FRAME_BODY + 1) * (5 + MAX_FRAME_BODY) :=
        Nat.mul_le_mul_right _ (by omega)

/-- What a call of `pad` can make of a payload. -/
theorem VisionWriter.length_pad_le {w w' : VisionWriter} {draw : ℕ → ℕ} {payload out : Bytes}
    {longPadding forceEnd : Bool} (h : w.pad draw payload longPadding forceEnd = .ok (out, w')) :
    out.length ≤ 16 + (payload.length / MAX_FRAME_BODY + 1) * (5 + MAX_FRAME_BODY) := by
  cases hw : w.isPadding
  · simp only [pad, hw, Bool.not_false, if_true, Except.ok.injEq, Prod.mk.injEq] at h
    rw [← h.1, MAX_FRAME_BODY_eq]
    omega
  · obtain ⟨fs, last, hfs, hpad⟩ := VisionWriter.pad_eq hw draw payload longPadding forceEnd
    have hfront : (uuidBytes w.uuid).length ≤ 16 := by
      cases w.uuid <;> simp [uuidBytes]
    rw [hpad] at h
    cases h
    rw [List.length_append]
    exact Nat.add_le_add hfront hfs.length_le

/-! ## The reader on one frame -/

namespace VisionReader

/-- What the reader is after a frame it knows the command of. -/
def afterFrame (r : VisionReader) (command : UInt8) : VisionReader :=
  if command = PADDING_CONTINUE then { r with state := .header }
  else { r with state := .direct, withinPaddingBuffers := false }

theorem frameDone_eq {r : VisionReader} (h : KnownCommand r.command) :
    r.frameDone = (.ok [], r.afterFrame r.command) := by
  rw [KnownCommand] at h
  rw [frameDone, afterFrame]
  split_ifs <;> tauto

/-- The state is overwritten when a frame is done, so it does not matter which it was. -/
@[simp] theorem afterFrame_state (r : VisionReader) (s : UnpadState) (command : UInt8) :
    ({ r with state := s } : VisionReader).afterFrame command = r.afterFrame command := by
  simp only [afterFrame]

theorem feed_padding {n : ℕ} {bs : Bytes} (hlen : bs.length = n + 1) (r : VisionReader) :
    feedEach stepByte { r with state := .padding (n + 1) } bs
      = frameDone { r with state := .padding 1 } := by
  induction n generalizing bs with
  | zero =>
    obtain ⟨b, rfl⟩ := List.length_eq_one_iff.1 hlen
    rw [feedEach_cons]
    rcases h : frameDone { r with state := .padding 1 } with ⟨_ | out, r'⟩ <;>
      simp [stepByte, h, Outcome.andThen]
  | succ n ih =>
    obtain ⟨b, bs, rfl⟩ := List.exists_cons_of_length_eq_add_one hlen
    rw [feedEach_cons]
    simp only [stepByte, Nat.add_eq_right, Nat.succ_ne_zero, if_false,
      sub_eq_ok (Nat.le_add_left 1 (n + 1)), Nat.add_sub_cancel, Outcome.andThen_nil]
    exact ih (by simpa using hlen)

/-- What the reader does when the last content byte is in. -/
def contentDone (r : VisionReader) : Unpadded :=
  if r.headerHasPadding then (.ok [], { r with state := .padding r.pendingPadding })
  else r.frameDone

theorem feed_content {n : ℕ} {bs : Bytes} (hlen : bs.length = n + 1) (r : VisionReader) :
    feedEach stepByte { r with state := .content (n + 1) } bs
      = Outcome.andThen (.ok bs, { r with state := .content 1 }) contentDone := by
  induction n generalizing bs with
  | zero =>
    obtain ⟨b, rfl⟩ := List.length_eq_one_iff.1 hlen
    rw [feedEach_cons]
    rcases h : contentDone { r with state := .content 1 } with ⟨_ | out, r'⟩ <;>
      rw [contentDone] at h <;> simp [stepByte, contentDone, h, Outcome.andThen]
  | succ n ih =>
    obtain ⟨b, bs, rfl⟩ := List.exists_cons_of_length_eq_add_one hlen
    rw [feedEach_cons]
    simp only [stepByte, Nat.add_eq_right, Nat.succ_ne_zero, if_false,
      sub_eq_ok (Nat.le_add_left 1 (n + 1)), Nat.add_sub_cancel]
    rcases h : contentDone { r with state := .content 1 } with ⟨_ | out, r'⟩ <;>
      simp [Outcome.andThen, ih (show bs.length = n + 1 by simpa using hlen), h]

/-- Five bytes written from the front replace whatever the buffer held. -/
theorem set_header (v : List.Vector UInt8 5) (a b c d e : UInt8) :
    ((((v.set 0 a).set 1 b).set 2 c).set 3 d).set 4 e = headerBytes a b c d e :=
  match v with
  | ⟨[_, _, _, _, _], _⟩ => rfl

theorem feed_header {r : VisionReader} (h : r.AtBoundary) (a b c d e : UInt8) :
    feedEach stepByte r [a, b, c, d, e]
      = headerDone { r with header := headerBytes a b c d e, command := a } := by
  obtain ⟨state, command, uuid, hd, fill, within, first⟩ := r
  obtain ⟨rfl, rfl⟩ : state = .header ∧ fill = 0 := h
  have step (k j : Fin 5) (hj : k.val + 1 = j.val) (hd : List.Vector UInt8 5) (x : UInt8) :
      stepByte ⟨.header, command, uuid, hd, k, within, first⟩ x
        = (.ok [], ⟨.header, command, uuid, hd.set k x, j, within, first⟩) := by
    simp [stepByte, hj]
  have last (hd : List.Vector UInt8 5) (x : UInt8) :
      stepByte ⟨.header, command, uuid, hd, 4, within, first⟩ x
        = headerDone ⟨.header, (hd.set 4 x).get 0, uuid, hd.set 4 x, 0, within, first⟩ := by
    simp [stepByte]
  rw [feedEach_cons, step 0 1 rfl, Outcome.andThen_nil,
    feedEach_cons, step 1 2 rfl, Outcome.andThen_nil,
    feedEach_cons, step 2 3 rfl, Outcome.andThen_nil,
    feedEach_cons, step 3 4 rfl, Outcome.andThen_nil, feedEach_cons, last, set_header]
  exact Outcome.andThen_pure _

/-- The reader tests the two length bytes, which is testing the length. -/
theorem headerHasPadding_iff (r : VisionReader) :
    r.headerHasPadding = true ↔ 0 < r.pendingPadding := by
  have hzero (b : UInt8) : b = 0 ↔ b.toNat = 0 := by
    rw [← UInt8.toNat_inj, UInt8.toNat_zero]
  simp only [headerHasPadding, pendingPadding, ofBE, Bool.or_eq_true, decide_eq_true_eq, ne_eq,
    hzero, List.length_cons, List.length_nil]
  omega

/-- From the end of the content to the end of the frame. -/
theorem feed_afterContent {r : VisionReader} (h : KnownCommand r.command) :
    (contentDone r).andThen (fun s => feedEach stepByte s (List.replicate r.pendingPadding 0))
      = (.ok [], r.afterFrame r.command) := by
  rw [contentDone]
  split_ifs with hpad
  · obtain ⟨n, hn⟩ : ∃ n, r.pendingPadding = n + 1 :=
      ⟨_, (Nat.sub_add_cancel ((headerHasPadding_iff r).1 hpad)).symm⟩
    rw [hn, Outcome.andThen_nil, feed_padding (by simp),
      frameDone_eq (r := { r with state := .padding 1 }) h, afterFrame_state]
  · have hzero : r.pendingPadding = 0 := by
      have := mt (headerHasPadding_iff r).2 hpad
      omega
    rw [hzero, frameDone_eq h]
    simp

/-- A two-byte field as the reader's header buffer holds it. -/
theorem toBE_two {n : ℕ} (h : n < 65536) : ∃ hi lo, toBE 2 n = [hi, lo] ∧ ofBE [hi, lo] = n :=
  ⟨_, _, rfl, ofBE_toBE_of_lt (k := 2) (by simpa using h)⟩

/-- **The reader on one frame.**  From a frame boundary the reader returns the
content of a frame and nothing else. -/
theorem feed_frame {r : VisionReader} (hr : r.AtBoundary) {f : Frame}
    (hf : KnownCommand f.command) :
    ∃ hd, feedEach stepByte r f.encode
      = (.ok f.content, afterFrame { r with header := hd, command := f.command } f.command) := by
  have hfits := f.fits
  rw [MAX_FRAME_BODY_eq] at hfits
  obtain ⟨c₁, c₀, hc, hcval⟩ := toBE_two (n := f.content.length) (by omega)
  obtain ⟨p₁, p₀, hp, hpval⟩ := toBE_two (n := f.paddingLen) (by omega)
  refine ⟨headerBytes f.command c₁ c₀ p₁ p₀, ?_⟩
  have hencode : f.encode = [f.command, c₁, c₀, p₁, p₀] ++ (f.content
      ++ List.replicate f.paddingLen 0) := by
    rw [Frame.encode, hc, hp]
    simp
  generalize hrd : ({ r with
    header := headerBytes f.command c₁ c₀ p₁ p₀, command := f.command } : VisionReader) = rd
  have hclen : rd.contentLen = f.content.length := by rw [← hrd, ← hcval]; rfl
  have hplen : rd.pendingPadding = f.paddingLen := by rw [← hrd, ← hpval]; rfl
  have hcommand : rd.command = f.command := by rw [← hrd]
  rw [← hcommand] at hf
  rw [hencode, feedEach_append, feed_header hr, hrd, headerDone, hclen, hplen,
    if_neg (by rw [MAX_FRAME_BODY_eq]; omega)]
  rcases Nat.eq_zero_or_pos f.content.length with hempty | hpos
  · -- no content: the header goes straight to the padding
    have hafter := feed_afterContent (r := rd) hf
    rw [hplen, hcommand, contentDone] at hafter
    rw [List.length_eq_zero_iff] at hempty
    simp only [headerHasPadding_iff, hplen] at hafter
    simpa [hempty] using hafter
  · obtain ⟨n, hn⟩ : ∃ n, f.content.length = n + 1 := ⟨_, (Nat.sub_add_cancel hpos).symm⟩
    rw [if_pos hpos, Outcome.andThen_nil, feedEach_append, hn, feed_content hn,
      Outcome.andThen_assoc]
    have hcontent := feed_afterContent (r := { rd with state := .content 1 }) hf
    rw [afterFrame_state] at hcontent
    rw [← hcommand, ← hplen, Outcome.andThen_ok hcontent, List.append_nil]

/-- CONTINUE frames leave the reader at a boundary. -/
theorem feed_frames {fs : List Frame} (hfs : ∀ f ∈ fs, f.command = PADDING_CONTINUE)
    {r : VisionReader} (hr : r.AtBoundary) :
    ∃ r', feedEach stepByte r (fs.flatMap Frame.encode) = (.ok (fs.flatMap Frame.content), r') ∧
      r'.AtBoundary := by
  induction fs generalizing r with
  | nil => exact ⟨r, rfl, hr⟩
  | cons f fs ih =>
    have hf : f.command = PADDING_CONTINUE := hfs f List.mem_cons_self
    obtain ⟨hd, hfirst⟩ := feed_frame hr (f := f) (Or.inl hf)
    obtain ⟨r', hrest, hr'⟩ := ih (fun g hg => hfs g (List.mem_cons_of_mem f hg))
      (r := afterFrame { r with header := hd, command := f.command } f.command)
      (by rw [afterFrame, if_pos hf]; exact ⟨rfl, hr.2⟩)
    exact ⟨r', feedEach_append_ok hfirst hrest, hr'⟩

end VisionReader

/-! ## Writer and reader in step -/

/-- Where a reader stands that has seen all a writer has put out. -/
inductive InStep : VisionWriter → VisionReader → Prop
  | start (uuid : Uuid) : InStep (VisionWriter.new uuid) (VisionReader.new uuid)
  | framing {r : VisionReader} (h : r.AtBoundary) : InStep ⟨none, true⟩ r
  | direct {r : VisionReader} (h : r.state = .direct) : InStep ⟨none, false⟩ r

open VisionReader

/-- A reader past the identity prefix takes a buffer byte by byte. -/
theorem VisionReader.unpad_eq_feedEach {r : VisionReader} (h : r.state ≠ .initial)
    (wire : Bytes) : r.unpad wire = feedEach stepByte r wire := if_neg h

/-- The reader after the identity prefix of the stream. -/
def VisionReader.locked (uuid : Uuid) : VisionReader :=
  { VisionReader.new uuid with
    state := .header, withinPaddingBuffers := true, firstBuffer := false }

/-- A first buffer that starts with the prefix and has 21 bytes locks the reader on. -/
theorem VisionReader.unpad_new {uuid : Uuid} {wire : Bytes} (h : 21 ≤ wire.length)
    (hfront : wire.take 16 = uuid.toList) :
    (VisionReader.new uuid).unpad wire = feedEach stepByte (.locked uuid) (wire.drop 16) := by
  rw [unpad, if_pos (by rfl)]
  exact if_pos ⟨h, hfront⟩

theorem VisionReader.atBoundary_locked (uuid : Uuid) : (VisionReader.locked uuid).AtBoundary :=
  ⟨rfl, rfl⟩

theorem feed_direct {r : VisionReader} (h : r.state = .direct) (bs : Bytes) :
    feedEach stepByte r bs = (.ok bs, r) := by
  induction bs with
  | nil => rfl
  | cons b bs ih =>
    have hstep : stepByte r b = (.ok [b], r) := by simp [stepByte, h]
    exact feedEach_cons_ok hstep ih

/-- One call of `pad` past the identity prefix, and the reader on its bytes. -/
theorem pad_feed {r : VisionReader} (hr : r.AtBoundary) {w : VisionWriter}
    (hw : w.isPadding = true) (draw : ℕ → ℕ) (payload : Bytes) (longPadding forceEnd : Bool) :
    ∃ out w' r', w.pad draw payload longPadding forceEnd = .ok (uuidBytes w.uuid ++ out, w') ∧
      5 ≤ out.length ∧ feedEach stepByte r out = (.ok payload, r') ∧ InStep w' r' := by
  obtain ⟨fs, last, hfs, hpad⟩ := VisionWriter.pad_eq hw draw payload longPadding forceEnd
  obtain ⟨r₁, hbody, hr₁⟩ := feed_frames (fun f hf => (hfs.full f hf).1) hr
  have hknown : KnownCommand last.command := by
    rw [hfs.last_command]
    cases forceEnd
    · exact Or.inl rfl
    · exact Or.inr (Or.inl rfl)
  obtain ⟨hd, hlast⟩ := feed_frame hr₁ hknown
  have hfeed := feedEach_append_ok hbody hlast
  rw [hfs.contents] at hfeed
  refine ⟨_, _, _, hpad, ?_, hfeed, ?_⟩
  · simp only [List.length_append, Frame.encode, List.length_cons, length_toBE]
    omega
  · cases forceEnd
    · exact .framing (by simp only [hfs.last_command, afterFrame]; exact ⟨rfl, hr₁.2⟩)
    · exact .direct (by simp [hfs.last_command, afterFrame, PADDING_CONTINUE, PADDING_END])

/-- **The writer and the reader stay in step.**  A call of `pad` never faults,
and a reader handed its output as one buffer returns the payload. -/
theorem InStep.pad {w : VisionWriter} {r : VisionReader} (h : InStep w r) (draw : ℕ → ℕ)
    (payload : Bytes) (longPadding forceEnd : Bool) :
    ∃ out w' r', w.pad draw payload longPadding forceEnd = .ok (out, w') ∧
      r.unpad out = (.ok payload, r') ∧ InStep w' r' := by
  cases h with
  | start uuid =>
    obtain ⟨out, w', r', hpad, hlen, hfeed, hstep⟩ :=
      pad_feed (atBoundary_locked uuid) (w := .new uuid) rfl draw payload longPadding forceEnd
    refine ⟨uuid.toList ++ out, w', r', hpad, ?_, hstep⟩
    rw [unpad_new (by simp; omega) (List.take_left' uuid.toList_length)]
    rwa [List.drop_left' uuid.toList_length]
  | framing hr =>
    obtain ⟨out, w', r', hpad, -, hfeed, hstep⟩ :=
      pad_feed hr (w := ⟨none, true⟩) rfl draw payload longPadding forceEnd
    exact ⟨out, w', r', hpad, by rwa [unpad_eq_feedEach (by rw [hr.1]; simp)], hstep⟩
  | direct hr =>
    exact ⟨payload, _, r, rfl, by rw [unpad_eq_feedEach (by rw [hr]; simp), feed_direct hr],
      .direct hr⟩

/-! ## Any division into buffers -/

namespace VisionReader

/-- The reader has left the stream start. -/
def Started (r : VisionReader) : Prop := r.state ≠ .initial

theorem Started.frameDone {r : VisionReader} (h : r.Started) : r.frameDone.2.Started := by
  rw [VisionReader.frameDone]
  split_ifs <;> simp_all [Started]

theorem Started.headerDone {r : VisionReader} (h : r.Started) : r.headerDone.2.Started := by
  rw [VisionReader.headerDone]
  split_ifs
  · exact h
  · simp [Started]
  · simp [Started]
  · exact h.frameDone

/-- The byte loop never goes back to the stream start. -/
theorem Started.stepByte {r : VisionReader} (h : r.Started) (b : UInt8) :
    (r.stepByte b).2.Started := by
  rw [VisionReader.stepByte]
  split
  case h_1 hs => exact absurd hs h
  case h_2 => exact h
  case h_3 =>
    split_ifs
    · exact h
    · exact Started.headerDone h
  case h_4 =>
    split_ifs
    · rw [Outcome.andThen_snd]
      split_ifs
      · simp [Started]
      · exact h.frameDone
    · split
      · exact h
      · simp [Started]
  case h_5 =>
    split_ifs
    · exact h.frameDone
    · split
      · exact h
      · simp [Started]

theorem Started.feed {r r' : VisionReader} (h : r.Started) {bs out : Bytes}
    (hfeed : feedEach VisionReader.stepByte r bs = (.ok out, r')) : r'.Started := by
  have := feedEach_inv VisionReader.stepByte (I := Started) (fun r b hr => hr.stepByte b) bs h
  rwa [hfeed] at this

/-! ### No faults -/

/-- There is something left to drain in a draining state. -/
def Draining (r : VisionReader) : Prop :=
  match r.state with
  | .content remaining => 0 < remaining
  | .padding remaining => 0 < remaining
  | _ => True

/-- A result that is no fault: output or a VLESS error, and a sound reader. -/
structure Sound (o : Unpadded) : Prop where
  draining : o.2.Draining
  err : ∀ e, o.1 = .error e → ∃ v, e = .err v

theorem Sound.ok {r : VisionReader} (h : r.Draining) (out : Bytes) : Sound (.ok out, r) :=
  ⟨h, by simp⟩

theorem Sound.error {r : VisionReader} (h : r.Draining) (v : VlessError) :
    Sound (.error (.err v), r) :=
  ⟨h, fun e he => ⟨v, by simpa using he.symm⟩⟩

theorem Sound.andThen {r : VisionReader} {out : Bytes} {next : VisionReader → Unpadded}
    (h : Sound (next r)) : Sound (Outcome.andThen (.ok out, r) next) :=
  ⟨by rw [Outcome.andThen_snd]; exact h.draining,
    fun e he => h.err e (Outcome.andThen_ok_error.1 he)⟩

theorem frameDone_sound {r : VisionReader} (h : r.Draining) : Sound r.frameDone := by
  rw [VisionReader.frameDone]
  split_ifs
  · exact .ok (by trivial) _
  · exact .ok (by trivial) _
  · exact .error h _

theorem contentDone_sound {r : VisionReader} (h : r.Draining) : Sound r.contentDone := by
  rw [contentDone]
  split_ifs with hpad
  · exact .ok (by exact (headerHasPadding_iff r).1 hpad) _
  · exact frameDone_sound h

theorem headerDone_sound {r : VisionReader} (h : r.Draining) : Sound r.headerDone := by
  rw [VisionReader.headerDone]
  split_ifs with hbig hcontent hpad
  · exact .error h _
  · exact .ok (by exact hcontent) _
  · exact .ok (by exact hpad) _
  · exact frameDone_sound h

theorem stepByte_sound {r : VisionReader} (hs : r.Started) (h : r.Draining) (b : UInt8) :
    Sound (r.stepByte b) := by
  rw [VisionReader.stepByte]
  split
  case h_1 hinit => exact absurd hinit hs
  case h_2 => exact .ok h _
  case h_3 hheader =>
    rw [Draining, hheader] at h
    dsimp only
    split_ifs
    · exact .ok (by rw [Draining]; simp [hheader]) _
    · exact headerDone_sound (by rw [Draining]; simp [hheader])
  case h_4 n hn =>
    split_ifs with hone
    · exact .andThen (contentDone_sound h)
    · have hpos : 0 < n := by rw [Draining, hn] at h; exact h
      rw [sub_eq_ok hpos]
      exact .ok (by show 0 < n - 1; omega) _
  case h_5 n hn =>
    split_ifs with hone
    · exact frameDone_sound h
    · have hpos : 0 < n := by rw [Draining, hn] at h; exact h
      rw [sub_eq_ok hpos]
      exact .ok (by show 0 < n - 1; omega) _

theorem feedEach_sound {r : VisionReader} (hs : r.Started) (h : r.Draining) (bs : Bytes) :
    Sound (feedEach VisionReader.stepByte r bs) := by
  have hstep : ∀ (r : VisionReader) b, (r.Started ∧ r.Draining) →
      ((VisionReader.stepByte r b).2.Started ∧ (VisionReader.stepByte r b).2.Draining) :=
    fun r b hr => ⟨hr.1.stepByte b, (stepByte_sound hr.1 hr.2 b).draining⟩
  refine ⟨(feedEach_inv _ hstep bs ⟨hs, h⟩).2, fun e he => ?_⟩
  exact feedEach_error _ hstep (fun r b e hr he => (stepByte_sound hr.1 hr.2 b).err e he) bs
    ⟨hs, h⟩ he

/-- **The reader never faults**: on any bytes, from any state it can be in, it
returns output or a VLESS error. -/
theorem unpad_sound {r : VisionReader} (h : r.Draining) (wire : Bytes) : Sound (r.unpad wire) := by
  rw [VisionReader.unpad]
  split_ifs with hinit
  · exact feedEach_sound (by simp [Started]) (by trivial) _
  · exact .error (by rw [Draining, hinit]; trivial) _
  · exact .ok (by rw [Draining, hinit]; trivial) _
  · exact feedEach_sound hinit h _

theorem draining_new (uuid : Uuid) : (VisionReader.new uuid).Draining := trivial

end VisionReader

/-- The arguments of one call of `VisionWriter::pad`, with the random draws it meets. -/
structure PadCall where
  payload : Bytes
  longPadding : Bool
  forceEnd : Bool
  draw : ℕ → ℕ

/-- A sequence of calls of `pad`: the outputs and the writer left. -/
def padAll (w : VisionWriter) : List PadCall →
    Except (Stop VlessError) (List Bytes × VisionWriter)
  | [] => .ok ([], w)
  | c :: cs => do
    let (out, w') ← w.pad c.draw c.payload c.longPadding c.forceEnd
    let (outs, w'') ← padAll w' cs
    .ok (out :: outs, w'')

/-- Hand a reader one buffer after the other. -/
def unpadAll (r : VisionReader) (bufs : List Bytes) : Unpadded :=
  feedEach VisionReader.unpad r bufs

theorem unpadAll_eq_feedEach {r : VisionReader} (h : r.Started) (bufs : List Bytes) :
    unpadAll r bufs = feedEach stepByte r bufs.flatten :=
  feedEach_congr stepByte Started (fun _ buf hr => unpad_eq_feedEach hr buf)
    (fun _ b hr => hr.stepByte b) bufs h

theorem started_locked (uuid : Uuid) : (VisionReader.locked uuid).Started := by
  simp [locked, Started]

/-- A stream behind the identity prefix, cut anyhow behind its first 21 bytes. -/
theorem unpadAll_new {uuid : Uuid} {stream : Bytes} {bufs : List Bytes}
    (hbufs : bufs.flatten = uuid.toList ++ stream) (hfirst : ∀ b ∈ bufs.head?, 21 ≤ b.length) :
    unpadAll (.new uuid) bufs = feedEach stepByte (.locked uuid) stream := by
  cases bufs with
  | nil =>
    have hlen := congrArg List.length hbufs
    simp only [List.flatten_nil, List.length_nil, List.length_append,
      List.Vector.toList_length] at hlen
    omega
  | cons b bs =>
    have hb : 21 ≤ b.length := hfirst b rfl
    rw [List.flatten_cons] at hbufs
    have hfront : b.take 16 = uuid.toList := by
      have := congrArg (List.take 16) hbufs
      rwa [List.take_append_of_le_length (by omega), List.take_left' uuid.toList_length] at this
    have hstream : b.drop 16 ++ bs.flatten = stream := by
      have := congrArg (List.drop 16) hbufs
      rwa [List.drop_append_of_le_length (by omega), List.drop_left' uuid.toList_length] at this
    have hlocked := started_locked uuid
    calc unpadAll (.new uuid) (b :: bs)
        = unpadAll (.locked uuid) (b.drop 16 :: bs) := by
          rw [unpadAll, unpadAll, feedEach_cons, feedEach_cons, unpad_new hb hfront,
            unpad_eq_feedEach hlocked]
      _ = feedEach stepByte (.locked uuid) stream := by
          rw [unpadAll_eq_feedEach hlocked, List.flatten_cons, hstream]

/-- A run of calls past the identity prefix, and the reader on the joined bytes. -/
theorem padAll_feed (calls : List PadCall) {w : VisionWriter} {r : VisionReader}
    (h : InStep w r) (hr : r.Started) :
    ∃ outs w' r', padAll w calls = .ok (outs, w') ∧
      feedEach stepByte r outs.flatten = (.ok (calls.flatMap PadCall.payload), r') ∧
      InStep w' r' := by
  induction calls generalizing w r with
  | nil => exact ⟨[], w, r, rfl, rfl, h⟩
  | cons c cs ih =>
    obtain ⟨out, w₁, r₁, hpad, hunpad, hstep⟩ :=
      h.pad c.draw c.payload c.longPadding c.forceEnd
    rw [unpad_eq_feedEach hr] at hunpad
    obtain ⟨outs, w', r', hrest, hfeed, hstep'⟩ := ih hstep (hr.feed hunpad)
    refine ⟨out :: outs, w', r', ?_, feedEach_append_ok hunpad hfeed, hstep'⟩
    simp [padAll, hpad, hrest, bind, Except.bind]

/-- **The Vision stream round trip.**  Whatever calls of `pad` a writer gets and
whatever padding it draws, none faults; and a reader that gets the joined output
in any division whose first buffer has 21 bytes accepts it and returns the
joined payloads. -/
theorem vision_stream_round_trip (uuid : Uuid) (calls : List PadCall) :
    ∃ outs w, padAll (.new uuid) calls = .ok (outs, w) ∧
      ∀ bufs : List Bytes, bufs.flatten = outs.flatten →
        (∀ b ∈ bufs.head?, 21 ≤ b.length) →
        ∃ r, unpadAll (.new uuid) bufs = (.ok (calls.flatMap PadCall.payload), r) := by
  cases calls with
  | nil =>
    refine ⟨[], _, rfl, fun bufs hbufs hfirst => ?_⟩
    cases bufs with
    | nil => exact ⟨_, rfl⟩
    | cons b bs =>
      have hb : 21 ≤ b.length := hfirst b rfl
      have hlen := congrArg List.length hbufs
      simp only [List.flatten_cons, List.length_append, List.flatten_nil, List.length_nil] at hlen
      omega
  | cons c cs =>
    obtain ⟨out, w₁, r₁, hpad, -, hfeed, hstep⟩ := pad_feed (atBoundary_locked uuid)
      (w := .new uuid) rfl c.draw c.payload c.longPadding c.forceEnd
    obtain ⟨outs, w', r', hrest, hfeeds, -⟩ :=
      padAll_feed cs hstep ((started_locked uuid).feed hfeed)
    refine ⟨(uuid.toList ++ out) :: outs, w', ?_, fun bufs hbufs hfirst => ⟨r', ?_⟩⟩
    · simp only [padAll, hpad, hrest, bind, Except.bind]
      rfl
    · rw [List.flatten_cons, List.append_assoc] at hbufs
      rw [unpadAll_new hbufs hfirst]
      exact feedEach_append_ok hfeed hfeeds

end ShadeVpn.Vless
