import ShadeVpn.Vless.VisionStream

/-!
# The frame grammar of the reader

`VisionReader` is a byte machine.  Here the stream behind the identity prefix is
read frame by frame instead (`readingOf`): a header of five bytes, then as much
of its body as the stream has.  The reading is `WellFormed` when every header is
in bounds and every frame that is all there has a command the reader knows; its
`output` is the contents of the frames and what follows the frame that ends the
padding.

* `feed_reading` — the byte machine accepts the well-formed readings, with their
  output, and rejects the rest.
* `unpadAll_grammar` — so does `unpad` on any division into buffers whose first
  has 21 bytes.
-/

namespace ShadeVpn.Vless

open Octets Checked Transduce

/-! ## The grammar -/

instance (command : UInt8) : Decidable (KnownCommand command) :=
  inferInstanceAs (Decidable (_ ∨ _))

/-- A frame as a stream has it: `body` is cut short where the stream ends. -/
structure WireFrame where
  command : UInt8
  contentLen : ℕ
  paddingLen : ℕ
  body : Bytes
  deriving DecidableEq

namespace WireFrame

/-- The content bytes the stream has. -/
def content (f : WireFrame) : Bytes := f.body.take f.contentLen

/-- The stream has all of the frame. -/
def Complete (f : WireFrame) : Prop := f.body.length = f.contentLen + f.paddingLen

instance (f : WireFrame) : Decidable f.Complete := inferInstanceAs (Decidable (_ = _))

/-- The header is in bounds, and the command is known once the frame is complete. -/
def WellFormed (f : WireFrame) : Prop :=
  (f.contentLen ≤ MAX_FRAME_BODY ∧ f.paddingLen ≤ MAX_FRAME_BODY) ∧
    (f.Complete → KnownCommand f.command)

instance (f : WireFrame) : Decidable f.WellFormed := inferInstanceAs (Decidable (_ ∧ _))

end WireFrame

/-- A stream read frame by frame: the frames, and what follows the frame that
ends the padding. -/
structure Reading where
  frames : List WireFrame
  tail : Bytes
  deriving DecidableEq

namespace Reading

/-- Every frame is well formed. -/
def WellFormed (r : Reading) : Prop := ∀ f ∈ r.frames, f.WellFormed

instance (r : Reading) : Decidable r.WellFormed := inferInstanceAs (Decidable (∀ _ ∈ _, _))

/-- The contents in order, and the tail verbatim. -/
def output (r : Reading) : Bytes := r.frames.flatMap WireFrame.content ++ r.tail

/-- Put a frame in front of a reading. -/
def cons (f : WireFrame) (r : Reading) : Reading := { r with frames := f :: r.frames }

/-- What a reader makes of the stream. -/
def verdict (r : Reading) : Except (Stop VlessError) Bytes :=
  if r.WellFormed then .ok r.output else .error (.err .badFrame)

@[simp] theorem wellFormed_nil (tail : Bytes) : (Reading.mk [] tail).WellFormed :=
  List.forall_mem_nil _

theorem verdict_nil (tail : Bytes) : (Reading.mk [] tail).verdict = .ok tail :=
  if_pos (wellFormed_nil tail)

theorem verdict_eq_ok {r : Reading} {out : Bytes} :
    r.verdict = .ok out ↔ r.WellFormed ∧ out = r.output := by
  rw [verdict]
  split_ifs with h
  · simp [h, eq_comm]
  · simp [h]

/-- A good frame adds its content to what the rest gives. -/
theorem verdict_cons {f : WireFrame} (hf : f.WellFormed) (r : Reading) :
    (r.cons f).verdict = r.verdict.map (f.content ++ ·) := by
  have hiff : (r.cons f).WellFormed ↔ r.WellFormed :=
    List.forall_mem_cons.trans (and_iff_right hf)
  by_cases h : r.WellFormed
  · rw [verdict, verdict, if_pos h, if_pos (hiff.2 h)]
    simp [output, cons, Except.map]
  · rw [verdict, verdict, if_neg h, if_neg (mt hiff.1 h)]
    rfl

/-- A bad frame spoils the stream. -/
theorem verdict_cons_bad {f : WireFrame} (hf : ¬ f.WellFormed) (r : Reading) :
    (r.cons f).verdict = .error (.err .badFrame) :=
  if_neg fun h => hf (h f List.mem_cons_self)

end Reading

/-- The frames of a stream.  Fewer than five bytes are no frame yet. -/
def readingOf : Bytes → Reading
  | command :: c₁ :: c₀ :: p₁ :: p₀ :: rest =>
    let bodyLen := ofBE [c₁, c₀] + ofBE [p₁, p₀]
    let frame : WireFrame := ⟨command, ofBE [c₁, c₀], ofBE [p₁, p₀], rest.take bodyLen⟩
    if rest.length < bodyLen then .cons frame ⟨[], []⟩
    else if command = PADDING_CONTINUE then .cons frame (readingOf (rest.drop bodyLen))
    else .cons frame ⟨[], rest.drop bodyLen⟩
  | _ => ⟨[], []⟩
termination_by w => w.length
decreasing_by simp only [List.length_cons, List.length_drop]; omega

theorem readingOf_short {w : Bytes} (h : w.length < 5) : readingOf w = ⟨[], []⟩ := by
  rw [readingOf]
  rintro command c₁ c₀ p₁ p₀ rest rfl
  simp only [List.length_cons] at h
  omega

@[simp] theorem readingOf_nil : readingOf [] = ⟨[], []⟩ := readingOf_short (by decide)

/-- The frame at the front of a stream that has a header. -/
theorem readingOf_cons (command c₁ c₀ p₁ p₀ : UInt8) (rest : Bytes) :
    readingOf (command :: c₁ :: c₀ :: p₁ :: p₀ :: rest)
      = .cons ⟨command, ofBE [c₁, c₀], ofBE [p₁, p₀],
            rest.take (ofBE [c₁, c₀] + ofBE [p₁, p₀])⟩
          (if rest.length < ofBE [c₁, c₀] + ofBE [p₁, p₀] then ⟨[], []⟩
          else if command = PADDING_CONTINUE then
            readingOf (rest.drop (ofBE [c₁, c₀] + ofBE [p₁, p₀]))
          else ⟨[], rest.drop (ofBE [c₁, c₀] + ofBE [p₁, p₀])⟩) := by
  rw [readingOf]
  split_ifs <;> rfl

/-! ## The reader on a frame that may be cut short -/

namespace VisionReader

/-- A header that is not full yet gives no output. -/
theorem feed_shortHeader {r : VisionReader} (hr : r.state = .header) {w : Bytes}
    (hw : r.headerFill.val + w.length < 5) : ∃ r', feedEach stepByte r w = (.ok [], r') := by
  induction w generalizing r with
  | nil => exact ⟨r, rfl⟩
  | cons b w ih =>
    rw [List.length_cons] at hw
    have hfill : r.headerFill.val + 1 < 5 := by omega
    have hstep : stepByte r b = (.ok [], { r with
        header := r.header.set r.headerFill b, headerFill := ⟨r.headerFill.val + 1, hfill⟩ }) := by
      rw [stepByte, hr]
      exact dif_pos hfill
    obtain ⟨r', hrest⟩ := ih (r := { r with
        header := r.header.set r.headerFill b, headerFill := ⟨r.headerFill.val + 1, hfill⟩ }) hr
        (by dsimp only; omega)
    exact ⟨r', feedEach_cons_ok hstep hrest⟩

/-- Content that ends before its declared length. -/
theorem feed_shortContent {n : ℕ} {bs : Bytes} (h : bs.length < n) (r : VisionReader) :
    feedEach stepByte { r with state := .content n } bs
      = (.ok bs, { r with state := .content (n - bs.length) }) := by
  induction bs generalizing n with
  | nil => rfl
  | cons b bs ih =>
    rw [List.length_cons] at h
    have hstep : stepByte { r with state := .content n } b
        = (.ok [b], { r with state := .content (n - 1) }) := by
      simp only [stepByte, if_neg (show n ≠ 1 by omega), sub_eq_ok (show 1 ≤ n by omega)]
    rw [List.length_cons, Nat.add_comm, ← Nat.sub_sub]
    exact feedEach_cons_ok hstep (ih (by omega))

/-- Padding that ends before its declared length. -/
theorem feed_shortPadding {n : ℕ} {bs : Bytes} (h : bs.length < n) (r : VisionReader) :
    feedEach stepByte { r with state := .padding n } bs
      = (.ok [], { r with state := .padding (n - bs.length) }) := by
  induction bs generalizing n with
  | nil => rfl
  | cons b bs ih =>
    rw [List.length_cons] at h
    have hstep : stepByte { r with state := .padding n } b
        = (.ok [], { r with state := .padding (n - 1) }) := by
      simp only [stepByte, if_neg (show n ≠ 1 by omega), sub_eq_ok (show 1 ≤ n by omega)]
    rw [List.length_cons, Nat.add_comm, ← Nat.sub_sub]
    exact feedEach_cons_ok hstep (ih (by omega))

/-- The reader has filled a header that declares lengths in bounds. -/
structure Declares (r : VisionReader) (c p : ℕ) : Prop where
  contentLen : r.contentLen = c
  paddingLen : r.pendingPadding = p
  content_le : c ≤ MAX_FRAME_BODY
  padding_le : p ≤ MAX_FRAME_BODY

variable {r : VisionReader} {c p : ℕ}

theorem Declares.headerDone (h : r.Declares c p) :
    r.headerDone = if 0 < c then (.ok [], { r with state := .content c })
      else if 0 < p then (.ok [], { r with state := .padding p }) else r.frameDone := by
  have := h.content_le
  have := h.padding_le
  rw [VisionReader.headerDone, h.contentLen, h.paddingLen, if_neg (by omega)]

theorem Declares.contentDone (h : r.Declares c p) (s : UnpadState) :
    VisionReader.contentDone { r with state := s }
      = if 0 < p then (.ok [], { r with state := .padding p })
        else VisionReader.frameDone { r with state := s } := by
  have hiff := headerHasPadding_iff { r with state := s }
  have hpad : VisionReader.pendingPadding { r with state := s } = p := h.paddingLen
  rw [hpad] at hiff
  simp only [VisionReader.contentDone, hpad, hiff]

/-- From the end of the content to the end of the frame, whatever the padding. -/
theorem Declares.feed_padding (h : r.Declares c p) {padding : Bytes} (hlen : padding.length = p)
    (s : UnpadState) :
    ∃ s', (VisionReader.contentDone { r with state := s }).andThen
        (fun t => feedEach stepByte t padding) = VisionReader.frameDone { r with state := s' } := by
  rw [h.contentDone]
  rcases Nat.eq_zero_or_pos p with hzero | hpos
  · rw [hzero, List.length_eq_zero_iff] at hlen
    refine ⟨s, ?_⟩
    rw [if_neg (by omega), hlen]
    exact Outcome.andThen_pure _
  · obtain ⟨n, rfl⟩ : ∃ n, p = n + 1 := ⟨_, (Nat.sub_add_cancel hpos).symm⟩
    refine ⟨.padding 1, ?_⟩
    rw [if_pos hpos, Outcome.andThen_nil, VisionReader.feed_padding hlen]

/-- A body that is all there: its content comes out, and the frame is done. -/
theorem Declares.feed_body (h : r.Declares c p) {body : Bytes} (hlen : body.length = c + p) :
    ∃ s, r.headerDone.andThen (fun t => feedEach stepByte t body)
      = Outcome.andThen (.ok (body.take c), { r with state := s }) VisionReader.frameDone := by
  rw [h.headerDone]
  rcases Nat.eq_zero_or_pos c with hzero | hpos
  · subst hzero
    rw [Nat.zero_add] at hlen
    obtain ⟨s, hs⟩ := h.feed_padding hlen r.state
    rw [h.contentDone] at hs
    exact ⟨s, by rw [if_neg (lt_irrefl 0), List.take_zero, Outcome.andThen_nil]; exact hs⟩
  · obtain ⟨n, rfl⟩ : ∃ n, c = n + 1 := ⟨_, (Nat.sub_add_cancel hpos).symm⟩
    have hcontent : (body.take (n + 1)).length = n + 1 := by rw [List.length_take]; omega
    have hpadding : (body.drop (n + 1)).length = p := by rw [List.length_drop]; omega
    obtain ⟨s, hs⟩ := h.feed_padding hpadding (.content 1)
    refine ⟨s, ?_⟩
    rw [if_pos hpos, Outcome.andThen_nil, ← List.take_append_drop (n + 1) body, feedEach_append,
      feed_content hcontent, Outcome.andThen_assoc, List.take_append_drop]
    exact Outcome.andThen_congr hs

/-- A body cut short: the content bytes that are there come out. -/
theorem Declares.feed_shortBody (h : r.Declares c p) {body : Bytes} (hlen : body.length < c + p) :
    ∃ r', r.headerDone.andThen (fun t => feedEach stepByte t body)
      = (.ok (body.take c), r') := by
  rw [h.headerDone]
  rcases Nat.eq_zero_or_pos c with hzero | hpos
  · subst hzero
    rw [Nat.zero_add] at hlen
    rw [if_neg (lt_irrefl 0), if_pos (by omega), Outcome.andThen_nil, feed_shortPadding hlen,
      List.take_zero]
    exact ⟨_, rfl⟩
  · rw [if_pos hpos, Outcome.andThen_nil]
    by_cases hshort : body.length < c
    · rw [feed_shortContent hshort, List.take_of_length_le hshort.le]
      exact ⟨_, rfl⟩
    · obtain ⟨n, rfl⟩ : ∃ n, c = n + 1 := ⟨_, (Nat.sub_add_cancel hpos).symm⟩
      have hcontent : (body.take (n + 1)).length = n + 1 := by rw [List.length_take]; omega
      have hpadding : (body.drop (n + 1)).length < p := by rw [List.length_drop]; omega
      have hrest : (VisionReader.contentDone { r with state := .content 1 }).andThen
          (fun t => feedEach stepByte t (body.drop (n + 1)))
            = (.ok [], { r with state := .padding (p - (body.drop (n + 1)).length) }) := by
        rw [h.contentDone, if_pos (by omega), Outcome.andThen_nil, feed_shortPadding hpadding]
      refine ⟨{ r with state := .padding (p - (body.drop (n + 1)).length) }, ?_⟩
      conv_lhs => rw [← List.take_append_drop (n + 1) body]
      rw [feedEach_append, feed_content hcontent, Outcome.andThen_assoc,
        Outcome.andThen_ok hrest, List.append_nil]

theorem frameDone_unknown {r : VisionReader} (h : ¬ KnownCommand r.command) :
    r.frameDone = (.error (.err .badFrame), r) := by
  rw [KnownCommand, not_or] at h
  rw [frameDone, if_neg h.1, if_neg h.2]

/-- A header out of bounds. -/
theorem headerDone_bad {r : VisionReader}
    (h : ¬ (r.contentLen ≤ MAX_FRAME_BODY ∧ r.pendingPadding ≤ MAX_FRAME_BODY)) :
    r.headerDone = (.error (.err .badFrame), r) := by
  rw [headerDone, if_pos (by omega)]

/-- The reader with the header of a frame in its buffer. -/
def filled (r : VisionReader) (command c₁ c₀ p₁ p₀ : UInt8) : VisionReader :=
  { r with header := headerBytes command c₁ c₀ p₁ p₀, command := command }

theorem filled_contentLen (r : VisionReader) (command c₁ c₀ p₁ p₀ : UInt8) :
    (r.filled command c₁ c₀ p₁ p₀).contentLen = ofBE [c₁, c₀] := rfl

theorem filled_pendingPadding (r : VisionReader) (command c₁ c₀ p₁ p₀ : UInt8) :
    (r.filled command c₁ c₀ p₁ p₀).pendingPadding = ofBE [p₁, p₀] := rfl

theorem feed_headerDone {r : VisionReader} (hr : r.AtBoundary) (command c₁ c₀ p₁ p₀ : UInt8)
    (rest : Bytes) :
    feedEach stepByte r (command :: c₁ :: c₀ :: p₁ :: p₀ :: rest)
      = (r.filled command c₁ c₀ p₁ p₀).headerDone.andThen fun t => feedEach stepByte t rest := by
  rw [filled, ← feed_header hr]
  exact feedEach_append stepByte r [command, c₁, c₀, p₁, p₀] rest

/-- The reader behind a frame that is all there. -/
theorem Declares.feed_frame (h : r.Declares c p) {rest : Bytes} (hlen : ¬ rest.length < c + p) :
    ∃ s, r.headerDone.andThen (fun t => feedEach stepByte t rest)
      = (Outcome.andThen (.ok (rest.take c), { r with state := s }) VisionReader.frameDone).andThen
          fun t => feedEach stepByte t (rest.drop (c + p)) := by
  have hbody : (rest.take (c + p)).length = c + p := by rw [List.length_take]; omega
  obtain ⟨s, hs⟩ := h.feed_body hbody
  refine ⟨s, ?_⟩
  rw [List.take_take, Nat.min_eq_left (Nat.le_add_right c p)] at hs
  rw [← hs, Outcome.andThen_assoc]
  congr 1
  funext t
  rw [← feedEach_append, List.take_append_drop]

/-- One frame of the grammar, given the reading of what follows it. -/
theorem Declares.feed_cons (h : r.Declares c p) {rest : Bytes} {next : Reading}
    (hshort : rest.length < c + p → next = ⟨[], []⟩)
    (hnext : ¬ rest.length < c + p → KnownCommand r.command →
      (feedEach stepByte (r.afterFrame r.command) (rest.drop (c + p))).1 = next.verdict) :
    (r.headerDone.andThen fun t => feedEach stepByte t rest).1
      = (Reading.cons ⟨r.command, c, p, rest.take (c + p)⟩ next).verdict := by
  have hbounds : c ≤ MAX_FRAME_BODY ∧ p ≤ MAX_FRAME_BODY := ⟨h.content_le, h.padding_le⟩
  generalize hf : (⟨r.command, c, p, rest.take (c + p)⟩ : WireFrame) = f
  have hcontent : f.content = rest.take c := by
    rw [← hf, WireFrame.content, List.take_take, Nat.min_eq_left (Nat.le_add_right c p)]
  have hcomplete : f.Complete ↔ ¬ rest.length < c + p := by
    simp only [← hf, WireFrame.Complete, List.length_take]
    omega
  by_cases hlen : rest.length < c + p
  · obtain ⟨r', hfeed⟩ := h.feed_shortBody hlen
    have hgood : f.WellFormed := ⟨hf ▸ hbounds, fun hc => absurd hlen (hcomplete.1 hc)⟩
    rw [hfeed, hshort hlen, Reading.verdict_cons hgood, Reading.verdict_nil, hcontent]
    simp [Except.map]
  obtain ⟨s, hfeed⟩ := h.feed_frame hlen
  rw [hfeed]
  by_cases hknown : KnownCommand r.command
  · have hgood : f.WellFormed := ⟨hf ▸ hbounds, fun _ => hf ▸ hknown⟩
    have hdone := frameDone_eq (r := { r with state := s }) hknown
    rw [afterFrame_state] at hdone
    rw [Reading.verdict_cons hgood, Outcome.andThen_ok hdone, List.append_nil,
      Outcome.andThen_fst, hnext hlen hknown, hcontent]
  · have hbad : ¬ f.WellFormed := fun hw => hknown (by simpa [← hf] using hw.2 (hcomplete.2 hlen))
    rw [Reading.verdict_cons_bad hbad, Outcome.andThen,
      frameDone_unknown (r := { r with state := s }) hknown]
    rfl

/-- **The byte machine reads the grammar.**  From a frame boundary the reader
accepts a stream if and only if its reading is well formed, and then returns
the output of the reading. -/
theorem feed_reading (w : Bytes) {r : VisionReader} (hr : r.AtBoundary) :
    (feedEach stepByte r w).1 = (readingOf w).verdict := by
  induction hn : w.length using Nat.strong_induction_on generalizing w r with
  | _ n ih
  by_cases hshort : w.length < 5
  · obtain ⟨r', hfeed⟩ := feed_shortHeader hr.1 (w := w) (by rw [hr.2]; simpa using hshort)
    rw [hfeed, readingOf_short hshort, Reading.verdict_nil]
  obtain ⟨command, c₁, c₀, p₁, p₀, rest, rfl⟩ : ∃ command c₁ c₀ p₁ p₀ rest,
      w = command :: c₁ :: c₀ :: p₁ :: p₀ :: rest := by
    rcases w with _ | ⟨command, _ | ⟨c₁, _ | ⟨c₀, _ | ⟨p₁, _ | ⟨p₀, rest⟩⟩⟩⟩⟩
    case cons.cons.cons.cons.cons => exact ⟨command, c₁, c₀, p₁, p₀, rest, rfl⟩
    all_goals exact absurd (by simp) hshort
  rw [feed_headerDone hr, readingOf_cons]
  by_cases hbounds : ofBE [c₁, c₀] ≤ MAX_FRAME_BODY ∧ ofBE [p₁, p₀] ≤ MAX_FRAME_BODY
  · have hd : (r.filled command c₁ c₀ p₁ p₀).Declares (ofBE [c₁, c₀]) (ofBE [p₁, p₀]) :=
      ⟨filled_contentLen .., filled_pendingPadding .., hbounds.1, hbounds.2⟩
    refine hd.feed_cons (fun hlen => if_pos hlen) fun hlen hknown => ?_
    rw [if_neg hlen]
    by_cases hcommand : command = PADDING_CONTINUE
    · have hafter : ((r.filled command c₁ c₀ p₁ p₀).afterFrame command).AtBoundary := by
        rw [afterFrame, if_pos hcommand]
        exact ⟨rfl, hr.2⟩
      rw [if_pos hcommand]
      refine ih _ ?_ _ hafter rfl
      simp only [← hn, List.length_cons, List.length_drop]
      omega
    · have hafter : ((r.filled command c₁ c₀ p₁ p₀).afterFrame command).state = .direct := by
        rw [afterFrame, if_neg hcommand]
      rw [if_neg hcommand, Reading.verdict_nil]
      exact congrArg Prod.fst (feed_direct hafter _)
  · rw [headerDone_bad (by rwa [filled_contentLen, filled_pendingPadding]),
      Reading.verdict_cons_bad (fun hw => hbounds hw.1), Outcome.andThen_error]

end VisionReader

open VisionReader

/-- **The reader accepts exactly its grammar.**  A stream that starts with the
UUID and comes in buffers whose first has 21 bytes is accepted if and only if
its reading behind the UUID is well formed, and then the joined results are the
output of that reading. -/
theorem unpadAll_grammar (uuid : Uuid) {w : Bytes}
    (hfront : w.take 16 = uuid.toList) {bufs : List Bytes} (hbufs : bufs.flatten = w)
    (hfirst : ∀ b ∈ bufs.head?, 21 ≤ b.length) :
    ((∃ out r, unpadAll (.new uuid) bufs = (.ok out, r)) ↔ (readingOf (w.drop 16)).WellFormed) ∧
      ∀ out r, unpadAll (.new uuid) bufs = (.ok out, r) →
        out = (readingOf (w.drop 16)).output := by
  have hstream : bufs.flatten = uuid.toList ++ w.drop 16 := by
    rw [hbufs, ← hfront, List.take_append_drop]
  have hread := feed_reading (w.drop 16) (atBoundary_locked uuid)
  rw [← unpadAll_new hstream hfirst] at hread
  have hok (out : Bytes) (r : VisionReader) (h : unpadAll (.new uuid) bufs = (.ok out, r)) :
      (readingOf (w.drop 16)).WellFormed ∧ out = (readingOf (w.drop 16)).output :=
    Reading.verdict_eq_ok.1 (by rw [← hread, h])
  refine ⟨⟨fun ⟨out, r, h⟩ => (hok out r h).1, fun hwell => ?_⟩, fun out r h => (hok out r h).2⟩
  exact ⟨_, _, Prod.ext (hread.trans (Reading.verdict_eq_ok.2 ⟨hwell, rfl⟩)) rfl⟩

/-- A CONTINUE frame cut in its padding, an END frame and three raw bytes, in two buffers. -/
theorem unpadAll_grammar_cut :
    let uuid : Uuid := List.Vector.replicate 16 7
    let front := uuid.toList ++ [0x00, 0x00, 0x01, 0x00, 0x02, 0x2a, 0x00]
    let back := [0x00, 0x01, 0x00, 0x00, 0x00, 0x00, 0x01, 0x02, 0x03]
    ((∃ out r, unpadAll (.new uuid) [front, back] = (.ok out, r)) ↔
        (readingOf ((front ++ back).drop 16)).WellFormed) ∧
      ∀ out r, unpadAll (.new uuid) [front, back] = (.ok out, r) →
        out = (readingOf ((front ++ back).drop 16)).output :=
  unpadAll_grammar _ (by decide) (by decide) (by decide)

end ShadeVpn.Vless
