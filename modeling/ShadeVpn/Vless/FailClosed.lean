import ShadeVpn.Vless.Records

/-!
# The inbound stream after a rejected record

The pump goes on feeding `VlessIn` when `unwrap` has rejected a plaintext, and
neither `VlessIn` nor `VisionReader` remembers that it has: after a `UuidMismatch`
the reader copies buffers through, and after a `BadResponse` the header counts as
seen.

* `unwrapAll_accepts` — the sequences of plaintexts that `unwrap` accepts one and
  all, by the frame grammar (`WellFormedStream`).
* `failsClosed_of_wellFormed` — nothing is passed on that should not be as long
  as the plaintexts before the last one are such a sequence; behind any other
  sequence two empty plaintexts already are.
-/

namespace ShadeVpn.Vless

open Octets Checked Transduce

/-! ## Calls -/

/-- One call of `unwrap`. -/
structure UnwrapCall where
  before : VlessIn
  plaintext : Bytes

namespace UnwrapCall

/-- The call returned `Ok`. -/
def Accepted (c : UnwrapCall) : Prop := ∃ out, (c.before.unwrap c.plaintext).1 = .ok out

/-- The call ran `parse_response_header`, and it returned `Ok`. -/
def Validated (c : UnwrapCall) : Prop :=
  c.before.responseSeen = false ∧ ∃ content reader,
    c.before.reader.unpad c.plaintext = (.ok content, reader) ∧
      parseResponseHeader content VERSION = .ok ()

end UnwrapCall

/-- The calls that feed a sequence of plaintexts, whatever each returns. -/
def unwrapCalls (v : VlessIn) : List Bytes → List UnwrapCall
  | [] => []
  | p :: ps => ⟨v, p⟩ :: unwrapCalls (v.unwrap p).2 ps

/-- An accepted call has only accepted calls before it, and one of them or itself
has validated the response header. -/
def FailsClosed (uuid : Uuid) (ps : List Bytes) : Prop :=
  ∀ earlier c later, unwrapCalls (.new uuid) ps = earlier ++ c :: later → c.Accepted →
    (∀ e ∈ earlier, e.Accepted) ∧ ∃ e ∈ earlier ++ [c], e.Validated

/-- What a sequence of plaintexts leaves, whatever each call returned. -/
def afterAll (v : VlessIn) (ps : List Bytes) : VlessIn := ps.foldl (fun v p => (v.unwrap p).2) v

theorem unwrapCalls_append (v : VlessIn) (ps qs : List Bytes) :
    unwrapCalls v (ps ++ qs) = unwrapCalls v ps ++ unwrapCalls (afterAll v ps) qs := by
  induction ps generalizing v with
  | nil => rfl
  | cons p ps ih => exact congrArg (_ :: ·) (ih _)

theorem unwrapAll_ok_iff (v : VlessIn) (ps : List Bytes) :
    (∃ out, (unwrapAll v ps).1 = .ok out) ↔ ∀ c ∈ unwrapCalls v ps, c.Accepted := by
  induction ps generalizing v with
  | nil => simp [unwrapAll, unwrapCalls]
  | cons p ps ih =>
    rw [unwrapCalls, List.forall_mem_cons, ← ih, UnwrapCall.Accepted, unwrapAll, feedEach_cons]
    rcases h : v.unwrap p with ⟨e | out, v'⟩
    · simp
    · rw [Outcome.andThen_accepts, unwrapAll]
      simp

/-! ## The sequences that are accepted -/

/-- The part of a sequence of buffers from the first one with the prefix on. -/
def framedPart (uuid : Uuid) (ps : List Bytes) : List Bytes :=
  ps.dropWhile fun p => !decide (Prefixed uuid p)

/-- A first buffer of 21 bytes has the prefix, the buffers from the first one with
the prefix on keep the frame grammar, and the content of the first buffer is a
response header. -/
structure WellFormedStream (uuid : Uuid) (ps : List Bytes) : Prop where
  start : ∀ p ∈ ps.head?, 21 ≤ p.length → Prefixed uuid p
  framed : (readingOf ((framedPart uuid ps).flatten.drop 16)).WellFormed
  header : ∀ p ∈ ps.head?, parseResponseHeader (firstContent uuid p) VERSION = .ok ()

namespace VisionReader

/-- From a buffer with the prefix on the buffers keep the grammar. -/
theorem unpadAll_prefixed {uuid : Uuid} {p : Bytes} (h : Prefixed uuid p) (first : Bool)
    (ps : List Bytes) :
    (unpadAll (fresh uuid first) (p :: ps)).1 = (readingOf ((p :: ps).flatten.drop 16)).verdict := by
  have hlocked := started_locked uuid
  have hlen : 16 ≤ p.length := le_trans (by decide) h.1
  have hcut : unpadAll (fresh uuid first) (p :: ps) = unpadAll (.locked uuid) (p.drop 16 :: ps) := by
    rw [unpadAll, unpadAll, feedEach_cons, feedEach_cons, unpad_fresh, if_pos h,
      unpad_eq_feedEach hlocked]
  rw [hcut, unpadAll_eq_feedEach hlocked, ← feed_reading _ (atBoundary_locked uuid),
    List.flatten_cons, List.flatten_cons, List.drop_append_of_le_length hlen]

/-- A reader that passes buffers through meets the grammar where a prefix comes. -/
theorem unpadAll_passing (uuid : Uuid) (ps : List Bytes) :
    (∃ out, (unpadAll (fresh uuid false) ps).1 = .ok out)
      ↔ (readingOf ((framedPart uuid ps).flatten.drop 16)).WellFormed := by
  induction ps with
  | nil => exact iff_of_true ⟨[], rfl⟩ (by simp [framedPart])
  | cons p ps ih =>
    by_cases h : Prefixed uuid p
    · have hpart : framedPart uuid (p :: ps) = p :: ps := by simp [framedPart, h]
      rw [hpart, unpadAll_prefixed h]
      simp [Reading.verdict_eq_ok]
    · have hpart : framedPart uuid (p :: ps) = framedPart uuid ps := by simp [framedPart, h]
      rw [hpart, ← ih, unpadAll, feedEach_cons, unpad_fresh, if_neg h, if_neg (by simp),
        Outcome.andThen_accepts, unpadAll]

/-- A new reader takes what it would pass through, but for a long first buffer
without the prefix. -/
theorem unpadAll_fresh (uuid : Uuid) (ps : List Bytes) :
    (∃ out, (unpadAll (.new uuid) ps).1 = .ok out)
      ↔ (∀ p ∈ ps.head?, 21 ≤ p.length → Prefixed uuid p) ∧
        (readingOf ((framedPart uuid ps).flatten.drop 16)).WellFormed := by
  cases ps with
  | nil => exact iff_of_true ⟨[], rfl⟩ ⟨by simp, by simp [framedPart]⟩
  | cons p ps =>
    have hhead : (∀ q ∈ (p :: ps).head?, 21 ≤ q.length → Prefixed uuid q)
        ↔ (21 ≤ p.length → Prefixed uuid p) := by simp
    rw [hhead, ← unpadAll_passing]
    by_cases h : Prefixed uuid p
    · have hboth : (unpadAll (.new uuid) (p :: ps)).1 = (unpadAll (fresh uuid false) (p :: ps)).1 :=
        (unpadAll_prefixed h true ps).trans (unpadAll_prefixed h false ps).symm
      rw [hboth]
      exact (and_iff_right fun _ => h).symm
    · have hnew := unpad_fresh uuid true p
      have hpassing := unpad_fresh uuid false p
      rw [if_neg h] at hnew hpassing
      rw [if_neg (by simp)] at hpassing
      by_cases hlen : 21 ≤ p.length
      · rw [if_pos ⟨rfl, hlen⟩] at hnew
        refine iff_of_false ?_ fun hgood => h (hgood.1 hlen)
        rw [unpadAll, feedEach_cons, show (VisionReader.new uuid).unpad p = _ from hnew]
        simp
      · rw [if_neg (fun hc => hlen hc.2), ← hpassing] at hnew
        rw [unpadAll, feedEach_cons, show (VisionReader.new uuid).unpad p = _ from hnew]
        exact (and_iff_right fun hc => absurd hc hlen).symm

end VisionReader

/-- **What is accepted.**  `unwrap` accepts a sequence of plaintexts one and all
if and only if they are a well-formed stream. -/
theorem unwrapAll_accepts (uuid : Uuid) (ps : List Bytes) :
    (∃ out, (unwrapAll (.new uuid) ps).1 = .ok out) ↔ WellFormedStream uuid ps := by
  have hreader := VisionReader.unpadAll_fresh uuid ps
  suffices hheader : (∃ out, (unwrapAll (.new uuid) ps).1 = .ok out)
      ↔ (∃ out, (unpadAll (.new uuid) ps).1 = .ok out) ∧
        ∀ p ∈ ps.head?, parseResponseHeader (firstContent uuid p) VERSION = .ok () by
    rw [hheader, hreader]
    exact ⟨fun h => ⟨h.1.1, h.1.2, h.2⟩, fun h => ⟨⟨h.start, h.framed⟩, h.header⟩⟩
  cases ps with
  | nil => exact iff_of_true ⟨[], rfl⟩ ⟨⟨[], rfl⟩, by simp⟩
  | cons p ps =>
    have hhead : (∀ q ∈ (p :: ps).head?, parseResponseHeader (firstContent uuid q) VERSION = .ok ())
        ↔ parseResponseHeader (firstContent uuid p) VERSION = .ok () := by simp
    rw [hhead, unwrapAll, unpadAll, feedEach_cons, feedEach_cons]
    rcases hu : (VisionReader.new uuid).unpad p with ⟨e | content, r⟩
    · have hunwrap : (VlessIn.new uuid).unwrap p = (.error e, ⟨false, r⟩) := by
        simp [VlessIn.unwrap, VlessIn.new, hu]
      simp [hunwrap]
    · rw [Outcome.andThen_accepts, ← (VisionReader.content_of_unpad_new hu).1]
      rcases hparse : parseResponseHeader content VERSION with e | _
      · have hunwrap : (VlessIn.new uuid).unwrap p = (.error (.err e), ⟨true, r⟩) := by
          simp [VlessIn.unwrap, VlessIn.new, hu, hparse]
        simp [hunwrap]
      · have hunwrap : (VlessIn.new uuid).unwrap p = (.ok (content.drop 4), ⟨true, r⟩) := by
          simp [VlessIn.unwrap, VlessIn.new, hu, hparse]
        have hrest := unwrapAll_seen r ps
        rw [unwrapAll, unpadAll] at hrest
        rw [hunwrap, Outcome.andThen_accepts, hrest]
        exact (and_iff_left rfl).symm

/-! ## Failing closed -/

/-- The call that is accepted before the header has been seen has validated it. -/
theorem UnwrapCall.Accepted.validated {c : UnwrapCall} (h : c.Accepted)
    (hseen : c.before.responseSeen = false) : c.Validated := by
  obtain ⟨out, hout⟩ := h
  refine ⟨hseen, ?_⟩
  rw [VlessIn.unwrap] at hout
  rcases hu : c.before.reader.unpad c.plaintext with ⟨e | content, r⟩
  · simp [hu] at hout
  · rcases hparse : parseResponseHeader content VERSION with e | _
    · simp [hu, hseen, hparse] at hout
    · exact ⟨content, r, rfl, hparse⟩

theorem unwrapCalls_dropLast (v : VlessIn) (ps : List Bytes) :
    unwrapCalls v ps.dropLast = (unwrapCalls v ps).dropLast := by
  rcases List.eq_nil_or_concat ps with rfl | ⟨init, p, rfl⟩
  · rfl
  · rw [List.concat_eq_append, List.dropLast_concat, unwrapCalls_append, unwrapCalls, unwrapCalls,
      List.dropLast_concat]

/-- An empty plaintext gets past the reader in any state. -/
theorem VisionReader.unpad_empty (r : VisionReader) : ∃ r', r.unpad [] = (.ok [], r') := by
  rw [unpad]
  split_ifs with hinit hp hlong
  · exact absurd hp.1 (by decide)
  · exact absurd hlong.2 (by decide)
  · exact ⟨_, rfl⟩
  · exact ⟨r, rfl⟩

/-- After an empty plaintext the header counts as seen. -/
theorem VlessIn.unwrap_empty (v : VlessIn) : (v.unwrap []).2.responseSeen = true := by
  obtain ⟨r, hr⟩ := v.reader.unpad_empty
  cases hseen : v.responseSeen <;> simp [unwrap, hr, hseen, parseResponseHeader]

/-- **The inbound stream after a rejected record.**  If the plaintexts before the
last one are a well-formed stream, the sequence fails closed.  A sequence that is
no well-formed stream and goes on with two empty plaintexts does not. -/
theorem failsClosed_of_wellFormed (uuid : Uuid) (ps : List Bytes) :
    (WellFormedStream uuid ps.dropLast → FailsClosed uuid ps) ∧
      (¬ WellFormedStream uuid ps → ¬ FailsClosed uuid (ps ++ [[], []])) := by
  constructor
  · intro hwell earlier c later hcalls hc
    have hearlier : ∀ e ∈ earlier, e.Accepted := by
      have hall := (unwrapAll_ok_iff _ _).1 ((unwrapAll_accepts uuid ps.dropLast).2 hwell)
      rw [unwrapCalls_dropLast, hcalls, List.dropLast_append_of_ne_nil (by simp)] at hall
      exact fun e he => hall e (List.mem_append_left _ he)
    refine ⟨hearlier, ?_⟩
    -- the first call is among them, and it meets a new `VlessIn`
    obtain ⟨first, hmem, hnew⟩ : ∃ e ∈ earlier ++ [c], e.before = .new uuid := by
      rcases ps with _ | ⟨p, ps⟩
      · simp [unwrapCalls] at hcalls
      · rcases earlier with _ | ⟨e, earlier⟩
        · exact ⟨c, by simp, by rw [← (List.cons.inj hcalls).1]⟩
        · exact ⟨e, by simp, by rw [← (List.cons.inj hcalls).1]⟩
    have haccepted : first.Accepted := by
      rcases List.mem_append.1 hmem with h | h
      · exact hearlier first h
      · rwa [List.mem_singleton.1 h]
    exact ⟨first, hmem, haccepted.validated (by rw [hnew]; rfl)⟩
  · intro hbad hclosed
    have hcalls := unwrapCalls_append (.new uuid) ps [[], []]
    generalize afterAll (.new uuid) ps = v at hcalls
    have haccepted : (UnwrapCall.mk (v.unwrap []).2 []).Accepted := by
      have hseen := v.unwrap_empty
      generalize (v.unwrap []).2 = after at hseen
      obtain ⟨seen, reader⟩ := after
      obtain rfl : seen = true := hseen
      obtain ⟨r, hr⟩ := reader.unpad_empty
      exact ⟨[], by rw [VlessIn.unwrap_seen, hr]⟩
    have hall := (hclosed (unwrapCalls (.new uuid) ps ++ [⟨v, []⟩]) _ []
      (by rw [hcalls, List.append_assoc]; rfl) haccepted).1
    refine hbad ((unwrapAll_accepts uuid ps).1 ((unwrapAll_ok_iff _ _).2 fun c hc => ?_))
    exact hall c (List.mem_append_left _ hc)

/-- An unframed response header with a payload byte, and one more plaintext. -/
theorem failsClosed_of_wellFormed_short :
    FailsClosed (List.Vector.replicate 16 7) [buildResponseHeader ++ [0x2a], [0x2b]] :=
  (failsClosed_of_wellFormed _ [buildResponseHeader ++ [0x2a], [0x2b]]).1
    ⟨by decide, by simp [framedPart, Prefixed, buildResponseHeader], by decide⟩

/-- Three plaintexts without the prefix: a `UuidMismatch`, a `BadResponse`, and the
third is passed through as payload. -/
theorem not_failsClosed :
    let uuid : Uuid := List.Vector.replicate 16 7
    let foreign : Bytes := List.replicate 21 9
    ((unwrapCalls (.new uuid) [foreign, foreign, foreign]).map fun c =>
        (c.before.unwrap c.plaintext).1)
        = [.error (.err .uuidMismatch), .error (.err .badResponse), .ok foreign] ∧
      ¬ FailsClosed uuid [foreign, foreign, foreign] := by
  intro uuid foreign
  refine ⟨by decide +kernel, fun hclosed => ?_⟩
  have hlast : (UnwrapCall.mk (afterAll (.new uuid) [foreign, foreign]) foreign).Accepted :=
    ⟨foreign, by decide +kernel⟩
  obtain ⟨hearlier, -⟩ := hclosed [⟨_, foreign⟩, ⟨_, foreign⟩] _ [] rfl hlast
  obtain ⟨out, hout⟩ := hearlier ⟨.new uuid, foreign⟩ List.mem_cons_self
  have hrefused : ((VlessIn.new uuid).unwrap foreign).1 = .error (.err .uuidMismatch) := by
    decide +kernel
  rw [hrefused] at hout
  cases hout

end ShadeVpn.Vless
