import ShadeVpn.Vless.VisionStream

/-!
# The shape of the writer's output

`VisionStream` says what a reader makes of a writer's output; this file says what
the output is, call by call.  The calls up to the first `force_end` are framed
(`framedCalls`), the later ones copied (`directCalls`).  `padAll_shape` gives the
frames of each framed call: how long they can be, which commands they carry, and
that the identity prefix stands in front of the first one only.
-/

namespace ShadeVpn.Vless

open Octets Checked

/-! ## Framed and copied calls -/

/-- The calls up to the first `force_end`, with it. -/
def framedCalls : List PadCall → List PadCall
  | [] => []
  | c :: cs => if c.forceEnd then [c] else c :: framedCalls cs

/-- The calls behind the first `force_end`. -/
def directCalls : List PadCall → List PadCall
  | [] => []
  | c :: cs => if c.forceEnd then cs else directCalls cs

/-- Put the identity prefix in front of the first output. -/
def prefixFirst (front : Bytes) : List Bytes → List Bytes
  | [] => []
  | out :: outs => (front ++ out) :: outs

@[simp] theorem prefixFirst_nil (outs : List Bytes) : prefixFirst [] outs = outs := by
  cases outs <;> rfl

/-! ## The frames of a call -/

/-- The frames of one call: they carry its payload, fit Xray's buffer even behind
the identity prefix, and continue but for an end that was asked for. -/
structure FramesOf (c : PadCall) (frames : List Frame) : Prop where
  contents : frames.flatMap Frame.content = c.payload
  body_le : ∀ f ∈ frames, f.content.length + f.paddingLen ≤ MAX_FRAME_BODY
  size_le : ∀ f ∈ frames, ∀ uuid : Uuid, (uuid.toList ++ f.encode).length ≤ BUF_SIZE
  earlier_continue : ∀ f ∈ frames.dropLast, f.command = PADDING_CONTINUE
  last_command : ∃ last ∈ frames.getLast?,
    last.command = if c.forceEnd then PADDING_END else PADDING_CONTINUE

/-- The loop of `pad` writes the frames of its call. -/
theorem Reshapes.framesOf {fs : List Frame} {last : Frame} {c : PadCall}
    (h : Reshapes fs last c.payload c.forceEnd) : FramesOf c (fs ++ [last]) where
  contents := by rw [List.flatMap_append, List.flatMap_singleton, h.contents]
  body_le f _ := f.fits
  size_le f _ uuid := by
    have := f.length_encode_le
    rw [List.length_append, uuid.toList_length, BUF_SIZE]
    rw [MAX_FRAME_BODY_eq] at this
    omega
  earlier_continue f hf := (h.full f (by simpa using hf)).1
  last_command := ⟨last, by simp, h.last_command⟩

/-- The commands of one call. -/
theorem FramesOf.commands {c : PadCall} {frames : List Frame} (h : FramesOf c frames) :
    ∃ n, frames.map Frame.command = List.replicate n PADDING_CONTINUE
      ++ [if c.forceEnd then PADDING_END else PADDING_CONTINUE] := by
  obtain ⟨last, hlast, hcommand⟩ := h.last_command
  have hsplit : frames.dropLast ++ [last] = frames := List.dropLast_append_getLast? last hlast
  refine ⟨frames.dropLast.length, ?_⟩
  have hearlier : frames.dropLast.map Frame.command
      = List.replicate frames.dropLast.length PADDING_CONTINUE := by
    refine List.eq_replicate_iff.2 ⟨List.length_map _, fun b hb => ?_⟩
    obtain ⟨f, hf, rfl⟩ := List.mem_map.1 hb
    exact h.earlier_continue f hf
  conv_lhs => rw [← hsplit]
  rw [List.map_append, hearlier, List.map_singleton, hcommand]

/-- Every frame of the framed calls continues, but the last one if an end was asked for. -/
theorem commands_framedCalls {calls : List PadCall} {frames : List (List Frame)}
    (h : List.Forall₂ FramesOf (framedCalls calls) frames) :
    ∃ n, frames.flatten.map Frame.command = List.replicate n PADDING_CONTINUE
      ++ if calls.any PadCall.forceEnd then [PADDING_END] else [] := by
  induction calls generalizing frames with
  | nil =>
    cases h
    exact ⟨0, rfl⟩
  | cons c cs ih =>
    rw [framedCalls] at h
    cases hend : c.forceEnd
    · rw [hend, if_neg (by simp)] at h
      obtain ⟨fs, rest, hfs, hrest, rfl⟩ := List.forall₂_cons_left_iff.1 h
      obtain ⟨m, hm⟩ := hfs.commands
      obtain ⟨n, hn⟩ := ih hrest
      refine ⟨m + 1 + n, ?_⟩
      rw [List.flatten_cons, List.map_append, hm, hn, hend, if_neg (by simp), List.any_cons, hend,
        Bool.false_or, ← List.append_assoc]
      congr 1
      rw [List.replicate_add, List.replicate_succ']
    · rw [hend, if_pos rfl] at h
      obtain ⟨fs, rest, hfs, hrest, rfl⟩ := List.forall₂_cons_left_iff.1 h
      cases hrest
      obtain ⟨m, hm⟩ := hfs.commands
      refine ⟨m, ?_⟩
      rw [List.flatten_singleton, hm, hend, if_pos rfl, List.any_cons, hend, Bool.true_or,
        if_pos rfl]

/-- A writer past the end copies. -/
theorem padAll_direct (uuid : Option Uuid) (calls : List PadCall) :
    padAll ⟨uuid, false⟩ calls = .ok (calls.map PadCall.payload, ⟨uuid, false⟩) := by
  induction calls with
  | nil => rfl
  | cons c cs ih => simp [padAll, VisionWriter.pad, ih, bind, Except.bind]

/-- A padding writer's calls, the identity prefix it still holds first. -/
theorem padAll_framing {w : VisionWriter} (hw : w.isPadding = true) (calls : List PadCall) :
    ∃ w' frames, List.Forall₂ FramesOf (framedCalls calls) frames ∧
      padAll w calls
        = .ok (prefixFirst (uuidBytes w.uuid) (frames.map (List.flatMap Frame.encode))
            ++ (directCalls calls).map PadCall.payload, w') := by
  induction calls generalizing w with
  | nil => exact ⟨w, [], .nil, rfl⟩
  | cons c cs ih =>
    obtain ⟨fs, last, hfs, hpad⟩ :=
      VisionWriter.pad_eq hw c.draw c.payload c.longPadding c.forceEnd
    rw [framedCalls, directCalls]
    cases hend : c.forceEnd
    · obtain ⟨w', frames, hframes, hrest⟩ := ih (w := ⟨none, true⟩) rfl
      refine ⟨w', (fs ++ [last]) :: frames, by simpa using ⟨hfs.framesOf, hframes⟩, ?_⟩
      simp only [uuidBytes, prefixFirst_nil] at hrest
      rw [hend] at hpad
      simp [padAll, hpad, hend, hrest, bind, Except.bind, prefixFirst]
    · refine ⟨⟨none, false⟩, [fs ++ [last]], by simpa using hfs.framesOf, ?_⟩
      rw [hend] at hpad
      simp [padAll, hpad, hend, padAll_direct, bind, Except.bind, prefixFirst]

/-- **The shape of the writer's output.**  Whatever calls of `pad` a new writer gets
and whatever padding it draws, no call faults.  Up to the first `force_end` each
output is the frames of its call, the first one behind the UUID, and the END command
is on the last of all these frames if there is a `force_end` and nowhere else; after
it the outputs are the payloads. -/
theorem padAll_shape (uuid : Uuid) (calls : List PadCall) :
    ∃ w frames, List.Forall₂ FramesOf (framedCalls calls) frames ∧
      (∃ n, frames.flatten.map Frame.command = List.replicate n PADDING_CONTINUE
        ++ if calls.any PadCall.forceEnd then [PADDING_END] else []) ∧
      padAll (.new uuid) calls
        = .ok (prefixFirst uuid.toList (frames.map (List.flatMap Frame.encode))
            ++ (directCalls calls).map PadCall.payload, w) := by
  obtain ⟨w, frames, hframes, hpad⟩ := padAll_framing (w := .new uuid) rfl calls
  exact ⟨w, frames, hframes, commands_framedCalls hframes, hpad⟩

end ShadeVpn.Vless
