import ShadeVpn.Lib.Transducer
import ShadeVpn.Vless.Header

/-!
# Vision padding: the writer and the reader

`VisionWriter`, `xtls_padding` and `VisionReader` of `native/src/vless.rs`.  The
writer cuts a payload into frames

    [uuid 16, first frame of the stream only][command][content len 2][padding len 2]
    [content][padding]

and copies payloads unframed once a frame with the END command is out.  The
reader takes the stream in buffers of any size.  Both are translated here; that
the second undoes the first is the subject of `VisionStream`.
-/

namespace ShadeVpn.Vless

open Octets Checked Transduce

/-! ## Constants -/

def PADDING_CONTINUE : UInt8 := 0x00
def PADDING_END : UInt8 := 0x01
def PADDING_DIRECT : UInt8 := 0x02

/-- `BUF_SIZE`, Xray's `buf.Size`. -/
def BUF_SIZE : ℕ := 2048

/-- `MAX_FRAME_BODY`. -/
def MAX_FRAME_BODY : ℕ := BUF_SIZE - 21

/-- `TESTSEED`. -/
def TESTSEED : List.Vector ℕ 4 := ⟨[900, 500, 900, 256], rfl⟩

@[simp] theorem MAX_FRAME_BODY_eq : MAX_FRAME_BODY = 2027 := rfl

/-! ## The writer -/

/-- The identity prefix of a frame, if it has one. -/
def uuidBytes : Option Uuid → Bytes
  | none => []
  | some uuid => uuid.toList

/-- The padding length of `xtls_padding` before the cap.  `draw` is the value of
`OsRng.next_u64() as usize`. -/
def samplePadding (contentLen : ℕ) (longPadding : Bool) (draw : ℕ) :
    Except (Stop VlessError) ℕ :=
  if contentLen < TESTSEED.get 0 ∧ longPadding then
    sub (draw % TESTSEED.get 1 + TESTSEED.get 2) contentLen
  else .ok (draw % TESTSEED.get 3)

/-- `xtls_padding`. -/
def xtlsPadding (content : Bytes) (command : UInt8) (uuid : Option Uuid) (longPadding : Bool)
    (draw : ℕ) : Except (Stop VlessError) Bytes := do
  let sampled ← samplePadding content.length longPadding draw
  let cap ← sub MAX_FRAME_BODY content.length
  let paddingLen := if sampled > cap then cap else sampled
  .ok (uuidBytes uuid ++ command :: (toBE 2 content.length ++ toBE 2 paddingLen ++ content
    ++ List.replicate paddingLen 0))

/-- `VisionWriter`: the identity prefix is in `uuid` until the first frame takes it. -/
structure VisionWriter where
  uuid : Option Uuid
  isPadding : Bool
  deriving DecidableEq

/-- `VisionWriter::new`. -/
def VisionWriter.new (uuid : Uuid) : VisionWriter := { uuid := some uuid, isPadding := true }

/-- The loop of `VisionWriter::pad`.  `draw k` is the random draw of the `k`-th
frame of the call. -/
def padLoop (draw : ℕ → ℕ) (longPadding forceEnd : Bool) (k : ℕ) (uuid : Option Uuid)
    (remaining : Bytes) : Except (Stop VlessError) Bytes :=
  if remaining.length ≤ MAX_FRAME_BODY then
    xtlsPadding remaining (if forceEnd then PADDING_END else PADDING_CONTINUE) uuid longPadding
      (draw k)
  else do
    let frame ← xtlsPadding (remaining.take MAX_FRAME_BODY) PADDING_CONTINUE uuid longPadding
      (draw k)
    let rest ← padLoop draw longPadding forceEnd (k + 1) none (remaining.drop MAX_FRAME_BODY)
    .ok (frame ++ rest)
termination_by remaining.length
decreasing_by simp only [List.length_drop, MAX_FRAME_BODY_eq] at *; omega

/-- `VisionWriter::pad`. -/
def VisionWriter.pad (w : VisionWriter) (draw : ℕ → ℕ) (payload : Bytes)
    (longPadding forceEnd : Bool) : Except (Stop VlessError) (Bytes × VisionWriter) :=
  if !w.isPadding then .ok (payload, w)
  else do
    let out ← padLoop draw longPadding forceEnd 0 w.uuid payload
    .ok (out, { uuid := none, isPadding := if forceEnd then false else w.isPadding })

/-! ## The reader -/

/-- `UnpadState`. -/
inductive UnpadState where
  | initial
  | header
  | content (remaining : ℕ)
  | padding (remaining : ℕ)
  | direct
  deriving DecidableEq, Repr

/-- `VisionReader`.  `header_fill` is below 5 between bytes, so that the index
it makes into `header` is in range. -/
structure VisionReader where
  state : UnpadState
  command : UInt8
  uuid : Uuid
  header : List.Vector UInt8 5
  headerFill : Fin 5
  withinPaddingBuffers : Bool
  firstBuffer : Bool
  deriving DecidableEq

/-- `VisionReader::new`. -/
def VisionReader.new (uuid : Uuid) : VisionReader where
  state := .initial
  command := 0
  uuid := uuid
  header := List.Vector.replicate 5 0
  headerFill := 0
  withinPaddingBuffers := false
  firstBuffer := true

/-- The reader is between two frames of the padding phase. -/
def VisionReader.AtBoundary (r : VisionReader) : Prop := r.state = .header ∧ r.headerFill = 0

/-- The result of a reader step: output and the reader it leaves. -/
abbrev Unpadded := Outcome (Stop VlessError) UInt8 VisionReader

/-- The content length the header buffer declares. -/
def VisionReader.contentLen (r : VisionReader) : ℕ := ofBE [r.header.get 1, r.header.get 2]

/-- `pending_padding`: the padding length the header buffer declares. -/
def VisionReader.pendingPadding (r : VisionReader) : ℕ := ofBE [r.header.get 3, r.header.get 4]

/-- `header_has_padding`. -/
def VisionReader.headerHasPadding (r : VisionReader) : Bool :=
  r.header.get 3 ≠ 0 || r.header.get 4 ≠ 0

/-- `frame_done`. -/
def VisionReader.frameDone (r : VisionReader) : Unpadded :=
  if r.command = PADDING_CONTINUE then (.ok [], { r with state := .header })
  else if r.command = PADDING_END ∨ r.command = PADDING_DIRECT then
    (.ok [], { r with state := .direct, withinPaddingBuffers := false })
  else (.error (.err .badFrame), r)

/-- The dispatch on a header that has just been filled. -/
def VisionReader.headerDone (r : VisionReader) : Unpadded :=
  if r.contentLen > MAX_FRAME_BODY ∨ r.pendingPadding > MAX_FRAME_BODY then
    (.error (.err .badFrame), r)
  else if r.contentLen > 0 then (.ok [], { r with state := .content r.contentLen })
  else if r.pendingPadding > 0 then (.ok [], { r with state := .padding r.pendingPadding })
  else r.frameDone

/-- One turn of the byte loop of `unpad`. -/
def VisionReader.stepByte (r : VisionReader) (byte : UInt8) : Unpadded :=
  match r.state with
  | .initial => (.error .panic, r)
  | .direct => (.ok [byte], r)
  | .header =>
    let header := r.header.set r.headerFill byte
    if h : r.headerFill.val + 1 < 5 then
      (.ok [], { r with header, headerFill := ⟨r.headerFill.val + 1, h⟩ })
    else
      VisionReader.headerDone { r with header, headerFill := 0, command := header.get 0 }
  | .content remaining =>
    if remaining = 1 then
      Outcome.andThen (.ok [byte], r) fun r =>
        if r.headerHasPadding then (.ok [], { r with state := .padding r.pendingPadding })
        else r.frameDone
    else
      match sub remaining 1 with
      | .error e => (.error e, r)
      | .ok left => (.ok [byte], { r with state := .content left })
  | .padding remaining =>
    if remaining = 1 then r.frameDone
    else
      match sub remaining 1 with
      | .error e => (.error e, r)
      | .ok left => (.ok [], { r with state := .padding left })

/-- `VisionReader::unpad`. -/
def VisionReader.unpad (r : VisionReader) (wire : Bytes) : Unpadded :=
  if r.state = .initial then
    if 21 ≤ wire.length ∧ wire.take 16 = r.uuid.toList then
      feedEach stepByte
        { r with state := .header, withinPaddingBuffers := true, firstBuffer := false }
        (wire.drop 16)
    else if r.firstBuffer ∧ 21 ≤ wire.length then
      (.error (.err .uuidMismatch), { r with firstBuffer := false })
    else (.ok wire, { r with firstBuffer := false })
  else feedEach stepByte r wire

end ShadeVpn.Vless
