import ShadeVpn.Vless.Grammar
import ShadeVpn.Vless.Stream

/-!
# Records and the response header

`VlessIn` strips the response header off the content of the first record it
unwraps.  A server may cut its stream into records anywhere behind the first 21
bytes, and the first record then need not hold the four header bytes.

* `unwrapAll_records` — a stream of header and payload comes out as the payload
  if and only if the content bytes in the first record are at least four.
* `not_unwrapAll_records` — a first record that ends with the frame header.
-/

namespace ShadeVpn.Vless

open Octets Checked Transduce

/-- Hand `VlessIn` one record after the other. -/
def unwrapAll (v : VlessIn) (records : List Bytes) : Outcome (Stop VlessError) UInt8 VlessIn :=
  feedEach VlessIn.unwrap v records

/-- Behind the response header `unwrap` is the reader. -/
theorem VlessIn.unwrap_seen (r : VisionReader) (record : Bytes) :
    VlessIn.unwrap ⟨true, r⟩ record = ((r.unpad record).1, ⟨true, (r.unpad record).2⟩) := by
  rw [unwrap]
  rcases h : r.unpad record with ⟨_ | _, _⟩ <;> rfl

theorem unwrapAll_seen (r : VisionReader) (records : List Bytes) :
    (unwrapAll ⟨true, r⟩ records).1 = (unpadAll r records).1 := by
  induction records generalizing r with
  | nil => rfl
  | cons record records ih =>
    rw [unwrapAll, unpadAll, feedEach_cons, feedEach_cons, VlessIn.unwrap_seen]
    rcases h : r.unpad record with ⟨_ | out, r'⟩
    · rfl
    · rw [Outcome.andThen_fst, Outcome.andThen_fst]
      exact congrArg _ (ih r')

/-- The first record of a session: its content loses the header, or is refused. -/
theorem VlessIn.unwrap_first {r r' : VisionReader} {record content : Bytes}
    (h : r.unpad record = (.ok content, r')) :
    VlessIn.unwrap ⟨false, r⟩ record
      = (if content.length < 4 ∨ content.getD 0 0 ≠ VERSION then .error (.err .badResponse)
          else .ok (content.drop 4), ⟨true, r'⟩) := by
  simp only [unwrap, h, parseResponseHeader, Bool.false_eq_true, if_false]
  split_ifs <;> rfl

/-- A buffer that carries the identity prefix. -/
def Prefixed (uuid : Uuid) (p : Bytes) : Prop := 21 ≤ p.length ∧ p.take 16 = uuid.toList

instance (uuid : Uuid) (p : Bytes) : Decidable (Prefixed uuid p) :=
  inferInstanceAs (Decidable (_ ∧ _))

/-- The content bytes in a first buffer. -/
def firstContent (uuid : Uuid) (p : Bytes) : Bytes :=
  if Prefixed uuid p then (readingOf (p.drop 16)).output else p

namespace VisionReader

/-- A reader that no buffer with the prefix has locked on yet. -/
def fresh (uuid : Uuid) (first : Bool) : VisionReader :=
  { VisionReader.new uuid with firstBuffer := first }

theorem unpad_fresh (uuid : Uuid) (first : Bool) (p : Bytes) :
    (fresh uuid first).unpad p
      = if Prefixed uuid p then feedEach stepByte (.locked uuid) (p.drop 16)
        else if first ∧ 21 ≤ p.length then (.error (.err .uuidMismatch), fresh uuid false)
        else (.ok p, fresh uuid false) := by
  rw [unpad, if_pos (by rfl)]
  rfl

/-- The content of an accepted first buffer. -/
theorem content_of_unpad_new {uuid : Uuid} {p content : Bytes} {r : VisionReader}
    (h : (VisionReader.new uuid).unpad p = (.ok content, r)) :
    content = firstContent uuid p ∧ (21 ≤ p.length → Prefixed uuid p) := by
  have hnew : (VisionReader.new uuid).unpad p = _ := unpad_fresh uuid true p
  rw [h] at hnew
  rw [firstContent]
  split_ifs at hnew ⊢ with hp hlong
  · have hread := feed_reading (p.drop 16) (atBoundary_locked uuid)
    rw [← hnew] at hread
    exact ⟨(Reading.verdict_eq_ok.1 hread.symm).2, fun _ => hp⟩
  · cases hnew
  · exact ⟨by simpa using congrArg Prod.fst hnew, fun hlen => absurd ⟨rfl, hlen⟩ hlong⟩

end VisionReader

/-- **Records and the response header.**  Let a server's writer be given payloads
that join to the response header and `d`, and let its output be cut into records
the first of which has 21 bytes.  Unwrapping accepts every record and returns `d`
if and only if the content bytes in the first record are at least four. -/
theorem unwrapAll_records (uuid : Uuid) {calls : List PadCall} {d : Bytes}
    (hcalls : calls.flatMap PadCall.payload = buildResponseHeader ++ d) :
    ∃ outs w, padAll (.new uuid) calls = .ok (outs, w) ∧
      ∀ records : List Bytes, records.flatten = outs.flatten →
        (∀ r ∈ records.head?, 21 ≤ r.length) →
        ((∃ v, unwrapAll (.new uuid) records = (.ok d, v)) ↔
          ∀ r ∈ records.head?, 4 ≤ (readingOf (r.drop 16)).output.length) := by
  obtain ⟨outs, w, hpad, hread⟩ := vision_stream_round_trip uuid calls
  refine ⟨outs, w, hpad, fun records hrecords hfirst => ?_⟩
  obtain ⟨r, hunpad⟩ := hread records hrecords hfirst
  rw [hcalls] at hunpad
  cases records with
  | nil => cases hunpad
  | cons first rest =>
    obtain ⟨content, r₁, more, hcontent, hmore, hjoin⟩ := feedEach_cons_eq_ok.1 hunpad
    obtain ⟨hgrammar, hprefixed⟩ := VisionReader.content_of_unpad_new hcontent
    rw [firstContent, if_pos (hprefixed (hfirst first rfl))] at hgrammar
    have hunwrap := VlessIn.unwrap_first hcontent
    have hgoal : (∀ r ∈ (first :: rest).head?, 4 ≤ (readingOf (r.drop 16)).output.length)
        ↔ 4 ≤ content.length := by
      simp [hgrammar]
    rw [hgoal]
    by_cases hfour : 4 ≤ content.length
    · have hhead : content.take 4 = buildResponseHeader := by
        rw [← List.take_append_of_le_length hfour, hjoin]
        rfl
      have hversion : content.getD 0 0 = VERSION := by
        rcases content with _ | ⟨b, content⟩
        · simp at hfour
        · simpa [buildResponseHeader] using congrArg (·.headD 0) hhead
      have hrest : (unwrapAll ⟨true, r₁⟩ rest).1 = .ok more := by
        rw [unwrapAll_seen, unpadAll, hmore]
      have hd : content.drop 4 ++ more = d := by
        rw [← List.drop_append_of_le_length hfour, hjoin]
        rfl
      rw [if_neg (not_or.2 ⟨by omega, not_not.2 hversion⟩)] at hunwrap
      refine iff_of_true ⟨(unwrapAll ⟨true, r₁⟩ rest).2, ?_⟩ hfour
      rw [← hd]
      exact feedEach_cons_ok hunwrap (Prod.ext hrest rfl)
    · rw [if_pos (Or.inl (by omega))] at hunwrap
      refine iff_of_false ?_ hfour
      rintro ⟨v, hv⟩
      obtain ⟨_, _, _, haccepted, -⟩ := feedEach_cons_eq_ok.1 hv
      have := hunwrap.symm.trans haccepted
      cases this

/-- An empty frame first, then the header and a payload in one frame. -/
theorem unwrapAll_records_split :
    ∃ outs w, padAll (.new (List.Vector.replicate 16 7))
        [⟨[], false, false, fun _ => 3⟩, ⟨buildResponseHeader ++ [0x2a], false, true, fun _ => 0⟩]
        = .ok (outs, w) ∧
      ∀ records : List Bytes, records.flatten = outs.flatten →
        (∀ r ∈ records.head?, 21 ≤ r.length) →
        ((∃ v, unwrapAll (.new (List.Vector.replicate 16 7)) records = (.ok [0x2a], v)) ↔
          ∀ r ∈ records.head?, 4 ≤ (readingOf (r.drop 16)).output.length) :=
  unwrapAll_records _ rfl

/-- A reply in one frame whose first record ends with the frame's header. -/
theorem not_unwrapAll_records :
    let uuid : Uuid := List.Vector.replicate 16 7
    let reply : PadCall := ⟨buildResponseHeader ++ [0x2a], false, true, fun _ => 0⟩
    let stream := uuid.toList ++ [0x01, 0x00, 0x05, 0x00, 0x00, 0x00, 0x0a, 0x01, 0x00, 0x2a]
    padAll (.new uuid) [reply] = .ok ([stream], ⟨none, false⟩) ∧
      ¬ ∀ records : List Bytes, records.flatten = stream → (∀ r ∈ records.head?, 21 ≤ r.length) →
        ∃ v, unwrapAll (.new uuid) records = (.ok [0x2a], v) := by
  intro uuid reply stream
  refine ⟨by decide +kernel, fun hclaim => ?_⟩
  obtain ⟨v, hv⟩ := hclaim [stream.take 21, stream.drop 21] (by decide) (by decide)
  have hrefused : (unwrapAll (.new uuid) [stream.take 21, stream.drop 21]).1
      = .error (.err .badResponse) := by decide +kernel
  rw [hv] at hrefused
  cases hrefused

end ShadeVpn.Vless
