import ShadeVpn.Lib.Octets

/-!
# Frames on the socket

`native/src/transport.rs`: every record on the socket is a four-byte big-endian
length and that many bytes.  A writer contributes `frameBytes`; a reader takes
frames off the front of the stream the peer sent before it closed.
-/

namespace ShadeVpn.Transport

open Octets

def MAX_FRAME_LEN : ℕ := 70000

/-- `FrameError`. -/
inductive FrameError where
  | io
  | tooLarge (len : ℕ)
  | closedMidFrame
  deriving DecidableEq, Repr

/-- The bytes of one frame. -/
def frameBytes (payload : Bytes) : Bytes := toBE 4 payload.length ++ payload

/-- `write_frame`: its result, and the bytes the socket took.  `io` is `none` when
the socket takes what it is given, and `some n` when it fails after `n` bytes at
most, before the last one. -/
def writeFrame (payload : Bytes) (io : Option ℕ) : Except FrameError Unit × Bytes :=
  if 2 ^ 32 ≤ payload.length then (.error (.tooLarge (2 ^ 32 - 1)), [])
  else if payload.length > MAX_FRAME_LEN then (.error (.tooLarge payload.length), [])
  else
    match io with
    | none => (.ok (), frameBytes payload)
    | some n => (.error .io, (frameBytes payload).dropLast.take n)

/-- `read_frame` on what the peer sent before it closed: a frame and the rest, or
`none` at the end of the stream. -/
def readFrame (r : Bytes) : Except FrameError (Option (Bytes × Bytes)) :=
  if r.length < 4 then .ok none
  else
    let len := ofBE (r.take 4)
    if len > MAX_FRAME_LEN then .error (.tooLarge len)
    else if (r.drop 4).length < len then .error .closedMidFrame
    else .ok (some ((r.drop 4).take len, (r.drop 4).drop len))

/-- Reading a frame uses up its length field at least. -/
theorem length_readFrame {r payload rest : Bytes} (h : readFrame r = .ok (some (payload, rest))) :
    rest.length < r.length := by
  rw [readFrame] at h
  dsimp only at h
  split_ifs at h with hshort hlarge hcut
  · cases h
  · cases h
    rw [List.length_drop, List.length_drop]
    omega

/-- Every frame of a stream, by reading until the end or an error. -/
def readFrames (r : Bytes) : List Bytes × Option FrameError :=
  match _h : readFrame r with
  | .error e => ([], some e)
  | .ok none => ([], none)
  | .ok (some (payload, rest)) =>
    let (frames, e) := readFrames rest
    (payload :: frames, e)
termination_by r.length
decreasing_by exact length_readFrame _h

theorem readFrames_of_error {r : Bytes} {e : FrameError} (h : readFrame r = .error e) :
    readFrames r = ([], some e) := by
  rw [readFrames.eq_def]
  split
  · next e' he => rw [h] at he; cases he; rfl
  · next he => rw [h] at he; cases he
  · next q rest he => rw [h] at he; cases he

theorem readFrames_of_end {r : Bytes} (h : readFrame r = .ok none) : readFrames r = ([], none) := by
  rw [readFrames.eq_def]
  split
  · next e he => rw [h] at he; cases he
  · rfl
  · next q rest he => rw [h] at he; cases he

theorem readFrames_of_frame {r payload rest : Bytes}
    (h : readFrame r = .ok (some (payload, rest))) :
    readFrames r = (payload :: (readFrames rest).1, (readFrames rest).2) := by
  rw [readFrames.eq_def]
  split
  · next e he => rw [h] at he; cases he
  · next he => rw [h] at he; cases he
  · next q rest' he => rw [h] at he; cases he; rfl

theorem length_frameBytes (p : Bytes) : (frameBytes p).length = 4 + p.length := by
  simp [frameBytes]

theorem writeFrame_ok {payload : Bytes} (h : payload.length ≤ MAX_FRAME_LEN) :
    writeFrame payload none = (.ok (), frameBytes payload) := by
  have hmax : MAX_FRAME_LEN < 2 ^ 32 := by decide
  rw [writeFrame, if_neg (by omega), if_neg (by omega)]

theorem writeFrame_fail {payload : Bytes} (h : payload.length ≤ MAX_FRAME_LEN) (n : ℕ) :
    writeFrame payload (some n) = (.error .io, (frameBytes payload).dropLast.take n) := by
  have hmax : MAX_FRAME_LEN < 2 ^ 32 := by decide
  rw [writeFrame, if_neg (by omega), if_neg (by omega)]

/-- **Reading back a frame** leaves what follows it. -/
theorem readFrame_frameBytes {payload : Bytes} (h : payload.length ≤ MAX_FRAME_LEN)
    (rest : Bytes) : readFrame (frameBytes payload ++ rest) = .ok (some (payload, rest)) := by
  have hmax : MAX_FRAME_LEN < 256 ^ 4 := by decide
  have hlen : ofBE (toBE 4 payload.length) = payload.length := ofBE_toBE_of_lt (by omega)
  have htake : (frameBytes payload ++ rest).take 4 = toBE 4 payload.length := by
    rw [frameBytes, List.append_assoc]
    exact List.take_left' (by simp)
  have hdrop : (frameBytes payload ++ rest).drop 4 = payload ++ rest := by
    rw [frameBytes, List.append_assoc]
    exact List.drop_left' (by simp)
  rw [readFrame, if_neg (by simp [frameBytes]), htake, hdrop, hlen]
  dsimp only
  rw [if_neg (by omega), if_neg (by simp), List.take_left' rfl, List.drop_left' rfl]

/-- A whole frame is read off the front. -/
theorem readFrames_frameBytes {p : Bytes} (h : p.length ≤ MAX_FRAME_LEN) (rest : Bytes) :
    readFrames (frameBytes p ++ rest) = (p :: (readFrames rest).1, (readFrames rest).2) :=
  readFrames_of_frame (readFrame_frameBytes h rest)

/-- The front of one frame yields nothing: an end of the stream inside the length
field, an error behind it. -/
theorem readFrame_take_frame {p : Bytes} (h : p.length ≤ MAX_FRAME_LEN) {cut : ℕ}
    (hcut : cut < (frameBytes p).length) :
    readFrame ((frameBytes p).take cut) = if cut < 4 then .ok none else .error .closedMidFrame := by
  have hmax : MAX_FRAME_LEN < 256 ^ 4 := by decide
  have hlen := length_frameBytes p
  have htaken : ((frameBytes p).take cut).length = cut := by
    rw [List.length_take]
    omega
  by_cases hshort : cut < 4
  · rw [if_pos hshort, readFrame, if_pos (by omega)]
  · have hfield : ((frameBytes p).take cut).take 4 = toBE 4 p.length := by
      rw [List.take_take, Nat.min_eq_left (by omega), frameBytes]
      exact List.take_left' (by simp)
    rw [if_neg hshort, readFrame, if_neg (by omega), hfield, ofBE_toBE_of_lt (by omega)]
    dsimp only
    rw [if_neg (by omega), if_pos]
    rw [List.length_drop]
    omega

theorem readFrames_take_frame {p : Bytes} (h : p.length ≤ MAX_FRAME_LEN) {cut : ℕ}
    (hcut : cut < (frameBytes p).length) :
    readFrames ((frameBytes p).take cut)
      = ([], if cut < 4 then none else some .closedMidFrame) := by
  have hread := readFrame_take_frame h hcut
  by_cases hshort : cut < 4
  · rw [if_pos hshort] at hread ⊢
    exact readFrames_of_end hread
  · rw [if_neg hshort] at hread ⊢
    exact readFrames_of_error hread

/-- A frame that was cut off yields no frame. -/
theorem readFrames_cut {payload : Bytes} (h : payload.length ≤ MAX_FRAME_LEN) (n : ℕ) :
    (readFrames ((frameBytes payload).dropLast.take n)).1 = [] := by
  have hlen := length_frameBytes payload
  rw [List.dropLast_eq_take, List.take_take, readFrames_take_frame h (by omega)]

/-- **The stream of frames** is read back frame by frame, up to what follows them. -/
theorem readFrames_flatMap {payloads : List Bytes} (h : ∀ p ∈ payloads, p.length ≤ MAX_FRAME_LEN)
    (tail : Bytes) :
    (readFrames (payloads.flatMap frameBytes ++ tail)).1 = payloads ++ (readFrames tail).1 := by
  induction payloads with
  | nil => simp
  | cons p ps ih =>
    rw [List.flatMap_cons, List.append_assoc, readFrames_frameBytes (h p List.mem_cons_self),
      ih fun q hq => h q (List.mem_cons_of_mem p hq), List.cons_append]

end ShadeVpn.Transport
