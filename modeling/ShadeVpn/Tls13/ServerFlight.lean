import ShadeVpn.Tls13.Client

/-!
# What the server flight authenticates

The flight loop takes up whatever messages its records open to, in any order, and
remembers a chain, a signature with the bytes it is to cover, and that a Finished
came.  Here its messages are a function of the records (`flightMessages`), the loop
is a fold over them (`flightLoop_eq_ok`), and an accepted flight is covered by its
signature and its MAC exactly when nothing stands between its Certificate, its
CertificateVerify and its Finished (`covered_iff`).
-/

namespace ShadeVpn.Tls13

open Octets Checked Fallible

variable (k : Crates)

/-! ## The messages of a flight -/

/-- What a record opens to. -/
def opened (bad : Tls13Error) (p : Option Protection) (wire : Bytes) :
    Except (Stop Tls13Error) (UInt8 × Bytes) := do
  let inner ← recordBody CONTENT_APPDATA bad wire
  let aad ← slice wire 0 5
  let p ← okOr bad p
  let nonce ← recordNonce p.iv p.seq
  let plain ← p.cipher.open k nonce inner aad
  stripInnerPadding plain

/-- The handshake bytes that the records of a flight open to, up to the first record
that does not. -/
def flightPayload (p : Option Protection) (rest : Bytes) : Bytes :=
  if rest.length < 5 + recordLen rest then []
  else if rest.head? = some CONTENT_CHANGE_CIPHER_SPEC then
    flightPayload p (rest.drop (5 + recordLen rest))
  else
    match opened k .badRecord p (rest.take (5 + recordLen rest)) with
    | .ok (ct, payload) =>
      if ct ≠ CONTENT_HANDSHAKE then []
      else payload ++ flightPayload (p.map Protection.next) (rest.drop (5 + recordLen rest))
    | .error _ => []
termination_by rest.length

/-- The messages in a buffer. -/
def messages (buf : Bytes) : List Message :=
  match h : frontMessage buf with
  | none => []
  | some m =>
    have := le_length_of_frontMessage h
    m :: messages (buf.drop (4 + m.body.length))
termination_by buf.length
decreasing_by
  rw [List.length_drop]
  omega

/-- Messages through the first Finished. -/
def throughFinished : List Message → List Message
  | [] => []
  | m :: ms => m :: if m.type = HS_FINISHED then [] else throughFinished ms

/-- The messages that the client takes up from the records of a flight. -/
def flightMessages (p : Option Protection) (records : Bytes) : List Message :=
  throughFinished (messages (flightPayload k p records))

/-- The bytes of messages. -/
def encodeAll (ms : List Message) : Bytes := ms.flatMap Message.encode

/-- A message in front stays in front. -/
theorem frontMessage_append {buf : Bytes} {m : Message} (h : frontMessage buf = some m)
    (more : Bytes) : frontMessage (buf ++ more) = some m := by
  match buf, h with
  | type :: a :: b :: c :: rest, h =>
    rw [frontMessage] at h
    split_ifs at h with hshort
    cases h
    rw [List.cons_append, List.cons_append, List.cons_append, List.cons_append, frontMessage,
      if_neg (by rw [List.length_append]; omega), List.take_append_of_le_length (by omega)]

theorem messages_of_front {buf : Bytes} {m : Message} (h : frontMessage buf = some m) :
    messages buf = m :: messages (buf.drop (4 + m.body.length)) := by
  rw [messages]
  split
  · next hnone => rw [h] at hnone; cases hnone
  · next m' hsome =>
    rw [h] at hsome
    cases hsome
    rfl

/-! ## The loop is a fold over the messages -/

/-- The messages handled one by one, each with the transcript hash before it. -/
def readMessages (h : HashAlg) (shts : Option Bytes) :
    Transcript → Seen → List Message → Except (Stop Tls13Error) Seen
  | _, seen, [] => .ok seen
  | tr, seen, m :: ms => do
    let seen ← handleMessage k h shts seen m (tr.hashOf k)
    readMessages h shts (tr.update m.encode) seen ms

variable {k} {h : HashAlg} {shts : Option Bytes} {c c' : Tls13Client} {seen seen' : Seen}

/-- Opening a record of the flight moves the sequence number on. -/
theorem openHsRecord_eq_ok {wire : Bytes} {r : UInt8 × Bytes} :
    exec (openHsRecord k wire) c = (.ok r, c') ↔
      opened k .badRecord c.hsRead wire = .ok r ∧
        { c with hsRead := c.hsRead.map Protection.next } = c' := by
  rcases hp : c.hsRead with _ | p
  · simp [openHsRecord, openWith, opened, exec_bind_ok, Cursor.bind_eq_ok, hp]
  simp only [openHsRecord, openWith, opened, exec_bind_ok, exec_lift, exec_orFail, exec_get,
    exec_modify, Cursor.bind_eq_ok, okOr_eq_ok, Prod.mk.injEq, Except.ok.injEq]
  constructor
  · rintro ⟨inner, _, ⟨hinner, rfl⟩, aad, _, ⟨haad, rfl⟩, _, _, ⟨rfl, rfl⟩, _, _, ⟨hp', rfl⟩,
      nonce, _, ⟨hnonce, rfl⟩, _, _, ⟨-, rfl⟩, plain, _, ⟨hplain, rfl⟩, hstrip, rfl⟩
    cases hp.symm.trans hp'
    exact ⟨⟨inner, hinner, aad, haad, p, rfl, nonce, hnonce, plain, hplain, hstrip⟩, rfl⟩
  · rintro ⟨⟨inner, hinner, aad, haad, _, ⟨⟩, nonce, hnonce, plain, hplain, hstrip⟩, rfl⟩
    exact ⟨inner, _, ⟨hinner, rfl⟩, aad, _, ⟨haad, rfl⟩, _, _, ⟨rfl, rfl⟩, p, _, ⟨hp, rfl⟩,
      nonce, _, ⟨hnonce, rfl⟩, (), _, ⟨trivial, rfl⟩, plain, _, ⟨hplain, rfl⟩, hstrip, rfl⟩

theorem takeMessage_eq_ok {buf th : Bytes} {m : Message} (hfront : frontMessage buf = some m) :
    exec (takeMessage k buf m) c = (.ok th, c') ↔
      ∃ tr, c.transcript = some tr ∧ tr.hashOf k = th ∧
        { c with transcript := some (tr.update m.encode) } = c' := by
  have hbytes : buf.take (4 + m.body.length) = m.encode := by
    rw [(frontMessage_eq_some hfront).1]
    exact List.take_left' m.length_encode
  simp [takeMessage, exec_bind_ok, hbytes, -bind_pure_comp]

/-- What handling a message reads and what it leaves alone. -/
structure Handled (k : Crates) (h : HashAlg) (shts : Option Bytes) (m : Message) (th : Bytes)
    (seen seen' : Seen) : Prop where
  certificate : m.type = HS_CERTIFICATE →
    parseCertificateEntryBodies m.body = .ok seen'.serverChain
  serverChain : m.type ≠ HS_CERTIFICATE → seen'.serverChain = seen.serverChain
  verify : m.type = HS_CERTIFICATE_VERIFY →
    ∃ cv, readCertificateVerify m.body th = .ok cv ∧ seen'.cv = some cv
  cv : m.type ≠ HS_CERTIFICATE_VERIFY → seen'.cv = seen.cv
  finished : m.type = HS_FINISHED → seen'.gotFinished = true ∧
    ∃ secret, shts = some secret ∧ m.body = hmacHash k h (finishedKey k h secret) th
  gotFinished : m.type ≠ HS_FINISHED → seen'.gotFinished = seen.gotFinished

theorem handled_of_eq_ok {m : Message} {th : Bytes}
    (hm : handleMessage k h shts seen m th = .ok seen') : Handled k h shts m th seen seen' := by
  rw [handleMessage] at hm
  split_ifs at hm with hee hcert hcv hfin
  · cases hm
    constructor <;>
      simp [hee, HS_ENCRYPTED_EXTENSIONS, HS_CERTIFICATE, HS_CERTIFICATE_VERIFY, HS_FINISHED]
  · obtain ⟨chain, hchain, hm⟩ := Cursor.bind_eq_ok.1 hm
    cases hm
    constructor <;>
      simp [hcert, hchain, HS_CERTIFICATE, HS_CERTIFICATE_VERIFY, HS_FINISHED]
  · obtain ⟨cv, hread, hm⟩ := Cursor.bind_eq_ok.1 hm
    cases hm
    constructor <;>
      simp [hcv, hread, HS_CERTIFICATE, HS_CERTIFICATE_VERIFY, HS_FINISHED]
  · obtain ⟨secret, hs, hm⟩ := Cursor.bind_eq_ok.1 hm
    split_ifs at hm with hmac
    cases hm
    rw [okOr_eq_ok] at hs
    constructor <;>
      simp [hfin, hs, not_not.1 hmac, HS_CERTIFICATE, HS_CERTIFICATE_VERIFY, HS_FINISHED]
  · cases hm
    constructor <;> simp [hcert, hcv, hfin]

theorem flightLoop_finished {pending rest : Bytes} (hseen : seen.gotFinished = true) :
    flightLoop k h pending rest seen = pure seen := by
  rw [flightLoop, if_pos hseen]

/-- A turn with a message in front. -/
theorem flightLoop_front {pending rest : Bytes} {m : Message} (hseen : seen.gotFinished = false)
    (hfront : frontMessage pending = some m) :
    flightLoop k h pending rest seen = (do
      let thBefore ← takeMessage k pending m
      let c ← get
      let seen ← lift <| handleMessage k h c.shts seen m thBefore
      flightLoop k h (pending.drop (4 + m.body.length)) rest seen) := by
  rw [flightLoop, if_neg (by rw [hseen]; decide)]
  split
  · next m' hsome =>
    rw [hfront] at hsome
    cases hsome
    rfl
  · next hnone => rw [hfront] at hnone; cases hnone

/-- A turn with none. -/
theorem flightLoop_record {pending rest : Bytes} (hseen : seen.gotFinished = false)
    (hfront : frontMessage pending = none) :
    flightLoop k h pending rest seen =
      if rest.length < 5 then fail .truncated
      else if rest.length < 5 + recordLen rest then fail .truncated
      else if rest.head? = some CONTENT_CHANGE_CIPHER_SPEC then
        flightLoop k h pending (rest.drop (5 + recordLen rest)) seen
      else (do
        let (ct, payload) ← openHsRecord k (rest.take (5 + recordLen rest))
        if ct ≠ CONTENT_HANDSHAKE then fail .unexpectedRecord
        else flightLoop k h (pending ++ payload) (rest.drop (5 + recordLen rest)) seen) := by
  rw [flightLoop, if_neg (by rw [hseen]; decide)]
  split
  · next m' hsome => rw [hfront] at hsome; cases hsome
  · rfl

/-- **The flight loop reads the messages of the flight.** -/
theorem flightLoop_eq_ok {pending rest : Bytes} (hseen : seen.gotFinished = false)
    (hrun : exec (flightLoop k h pending rest seen) c = (.ok seen', c')) :
    seen'.gotFinished = true ∧ ∃ tr, c.transcript = some tr ∧ readMessages k h c.shts tr seen
      (throughFinished (messages (pending ++ flightPayload k c.hsRead rest))) = .ok seen' := by
  induction pending, rest, seen using flightLoop.induct generalizing c with
  | case1 pending rest seen hfin => exact absurd hfin (by simp [hseen])
  | case2 pending rest seen hgoing m hfront ih =>
    simp only [flightLoop_front hseen hfront, exec_bind_ok, exec_get, exec_lift, Prod.mk.injEq,
      Except.ok.injEq] at hrun
    obtain ⟨th, c₁, htake, _, _, ⟨rfl, rfl⟩, seen₁, _, ⟨hread, rfl⟩, hrun⟩ := hrun
    obtain ⟨tr, htr, rfl, rfl⟩ := (takeMessage_eq_ok hfront).1 htake
    have hmessages := messages_of_front (frontMessage_append hfront (flightPayload k c.hsRead rest))
    rw [List.drop_append_of_le_length (le_length_of_frontMessage hfront)] at hmessages
    rw [hmessages, throughFinished, htr]
    have hhandled := handled_of_eq_ok hread
    by_cases htype : m.type = HS_FINISHED
    · rw [if_pos htype]
      rw [flightLoop_finished (hhandled.finished htype).1] at hrun
      cases hrun
      refine ⟨(hhandled.finished htype).1, tr, rfl, ?_⟩
      rw [readMessages, hread]
      rfl
    · rw [if_neg htype]
      obtain ⟨hgot, tr', htr', hrest⟩ := ih seen₁ ((hhandled.gotFinished htype).trans hseen) hrun
      cases htr'
      refine ⟨hgot, tr, rfl, ?_⟩
      rw [readMessages, hread]
      exact hrest
  | case3 pending rest seen hgoing hfront hshort =>
    rw [flightLoop_record hseen hfront, if_pos hshort] at hrun
    cases hrun
  | case4 pending rest seen hgoing hfront hheader hshort =>
    rw [flightLoop_record hseen hfront, if_neg hheader, if_pos hshort] at hrun
    cases hrun
  | case5 pending rest seen hgoing hfront hheader hwhole hccs ih =>
    rw [flightLoop_record hseen hfront, if_neg hheader, if_neg hwhole, if_pos hccs] at hrun
    rw [flightPayload, if_neg hwhole, if_pos hccs]
    exact ih hseen hrun
  | case6 pending rest seen hgoing hfront hheader hwhole hccs ih =>
    rw [flightLoop_record hseen hfront, if_neg hheader, if_neg hwhole, if_neg hccs,
      exec_bind_ok] at hrun
    obtain ⟨⟨ct, payload⟩, c₁, hopen, hrun⟩ := hrun
    obtain ⟨hopened, rfl⟩ := openHsRecord_eq_ok.1 hopen
    rw [flightPayload, if_neg hwhole, if_neg hccs, hopened]
    dsimp only at hrun ⊢
    split_ifs at hrun ⊢ with hct
    · cases hrun
    · have hrest := ih payload hseen hrun
      rwa [List.append_assoc] at hrest

theorem messages_of_front_none {buf : Bytes} (h : frontMessage buf = none) : messages buf = [] := by
  rw [messages]
  split
  · rfl
  · next m hsome => rw [h] at hsome; cases hsome

/-- Without a message no flight ends. -/
theorem readMessages_ne_of_front_none {buf : Bytes} {tr : Transcript}
    (hseen : seen.gotFinished = false) (hgot : seen'.gotFinished = true)
    (hfront : frontMessage buf = none) :
    readMessages k h shts tr seen (throughFinished (messages buf)) ≠ .ok seen' := by
  rw [messages_of_front_none hfront]
  intro heq
  cases heq
  rw [hseen] at hgot
  cases hgot

/-- **The flight loop returns** what its messages say, if they go through a Finished. -/
theorem flightLoop_of_readMessages {pending rest : Bytes} {tr : Transcript}
    (hseen : seen.gotFinished = false) (htr : c.transcript = some tr)
    (hread : readMessages k h c.shts tr seen
      (throughFinished (messages (pending ++ flightPayload k c.hsRead rest))) = .ok seen')
    (hgot : seen'.gotFinished = true) :
    ∃ tr' hsRead, exec (flightLoop k h pending rest seen) c =
      (.ok seen', { c with transcript := some tr', hsRead }) := by
  induction pending, rest, seen using flightLoop.induct generalizing c tr with
  | case1 pending rest seen hfin => exact absurd hfin (by simp [hseen])
  | case2 pending rest seen hgoing m hfront ih =>
    have hmessages := messages_of_front (frontMessage_append hfront (flightPayload k c.hsRead rest))
    rw [List.drop_append_of_le_length (le_length_of_frontMessage hfront)] at hmessages
    rw [hmessages, throughFinished, readMessages, Cursor.bind_eq_ok] at hread
    obtain ⟨seen₁, hm, hread⟩ := hread
    have hhandled := handled_of_eq_ok hm
    have htake := (takeMessage_eq_ok (k := k) hfront).2 ⟨tr, htr, rfl, rfl⟩
    have hturn : exec (flightLoop k h pending rest seen) c =
        exec (flightLoop k h (pending.drop (4 + m.body.length)) rest seen₁)
          { c with transcript := some (tr.update m.encode) } := by
      simp only [flightLoop_front hseen hfront, exec_bind, htake, exec_get, exec_lift, hm]
    rw [hturn]
    by_cases htype : m.type = HS_FINISHED
    · rw [if_pos htype] at hread
      cases hread
      rw [flightLoop_finished hgot]
      exact ⟨_, c.hsRead, rfl⟩
    · rw [if_neg htype] at hread
      exact ih seen₁ (c := { c with transcript := some (tr.update m.encode) })
        ((hhandled.gotFinished htype).trans hseen) rfl hread
  | case3 pending rest seen hgoing hfront hshort =>
    rw [flightPayload, if_pos (by omega), List.append_nil] at hread
    exact absurd hread (readMessages_ne_of_front_none hseen hgot hfront)
  | case4 pending rest seen hgoing hfront hheader hshort =>
    rw [flightPayload, if_pos hshort, List.append_nil] at hread
    exact absurd hread (readMessages_ne_of_front_none hseen hgot hfront)
  | case5 pending rest seen hgoing hfront hheader hwhole hccs ih =>
    rw [flightPayload, if_neg hwhole, if_pos hccs] at hread
    rw [flightLoop_record hseen hfront, if_neg hheader, if_neg hwhole, if_pos hccs]
    exact ih hseen htr hread
  | case6 pending rest seen hgoing hfront hheader hwhole hccs ih =>
    rw [flightPayload, if_neg hwhole, if_neg hccs] at hread
    rw [flightLoop_record hseen hfront, if_neg hheader, if_neg hwhole, if_neg hccs]
    split at hread
    · next ct payload hopened =>
      split_ifs at hread with hct
      · rw [List.append_nil] at hread
        exact absurd hread (readMessages_ne_of_front_none hseen hgot hfront)
      rw [exec_bind, openHsRecord_eq_ok.2 ⟨hopened, rfl⟩]
      dsimp only
      rw [if_neg hct]
      rw [← List.append_assoc] at hread
      exact ih payload hseen htr hread
    · rw [List.append_nil] at hread
      exact absurd hread (readMessages_ne_of_front_none hseen hgot hfront)

/-! ## Order -/

/-- The order of the flight, one message to the next: a CertificateVerify behind a
Certificate, a Finished behind a CertificateVerify. -/
def Follows (m next : Message) : Prop :=
  (m.type = HS_CERTIFICATE → next.type = HS_CERTIFICATE_VERIFY) ∧
  (m.type = HS_CERTIFICATE_VERIFY → next.type = HS_FINISHED)

instance (m next : Message) : Decidable (Follows m next) := inferInstanceAs (Decidable (_ ∧ _))

/-- A message that authenticates nothing. -/
def Message.Plain (m : Message) : Prop :=
  m.type ≠ HS_CERTIFICATE ∧ m.type ≠ HS_CERTIFICATE_VERIFY ∧ m.type ≠ HS_FINISHED

theorem throughFinished_cons {m : Message} (hm : m.type ≠ HS_FINISHED) (ms : List Message) :
    throughFinished (m :: ms) = m :: throughFinished ms := by
  rw [throughFinished, if_neg hm]

theorem throughFinished_of_finished {m : Message} (hm : m.type = HS_FINISHED)
    (ms : List Message) : throughFinished (m :: ms) = [m] := by
  rw [throughFinished, if_pos hm]

/-- A Finished ahead is ahead of the next message too. -/
theorem exists_finished {m : Message} {ms : List Message} (hm : m.type ≠ HS_FINISHED)
    (hfin : ∃ x ∈ throughFinished (m :: ms), x.type = HS_FINISHED) :
    ∃ x ∈ throughFinished ms, x.type = HS_FINISHED := by
  rw [throughFinished_cons hm] at hfin
  obtain ⟨x, hx, htype⟩ := hfin
  rcases List.mem_cons.1 hx with rfl | hx
  · exact absurd htype hm
  · exact ⟨x, hx, htype⟩

/-- Behind a CertificateVerify that is in order comes a Finished, and the end. -/
theorem throughFinished_verify {cv : Message} {ms : List Message}
    (hcv : cv.type = HS_CERTIFICATE_VERIFY)
    (hchain : (throughFinished (cv :: ms)).IsChain Follows)
    (hfin : ∃ m ∈ throughFinished (cv :: ms), m.type = HS_FINISHED) :
    ∃ fin : Message, fin.type = HS_FINISHED ∧ throughFinished (cv :: ms) = [cv, fin] := by
  have hcv' : cv.type ≠ HS_FINISHED := by rw [hcv]; decide
  obtain ⟨x, hx, -⟩ := exists_finished hcv' hfin
  cases ms with
  | nil => simp [throughFinished] at hx
  | cons fin ms =>
    rw [throughFinished_cons hcv', throughFinished, List.isChain_cons_cons] at hchain
    have htype := hchain.1.2 hcv
    exact ⟨fin, htype, by rw [throughFinished_cons hcv', throughFinished_of_finished htype]⟩

/-- Messages in order, with a Certificate and a Finished, end in the three. -/
theorem eq_of_isChain {ms : List Message} (hchain : (throughFinished ms).IsChain Follows)
    (hcert : ∃ m ∈ throughFinished ms, m.type = HS_CERTIFICATE)
    (hfin : ∃ m ∈ throughFinished ms, m.type = HS_FINISHED) :
    ∃ pre cert cv fin, throughFinished ms = pre ++ [cert, cv, fin] ∧ (∀ m ∈ pre, m.Plain) ∧
      cert.type = HS_CERTIFICATE ∧ cv.type = HS_CERTIFICATE_VERIFY ∧ fin.type = HS_FINISHED := by
  induction ms with
  | nil => simp [throughFinished] at hcert
  | cons m ms ih =>
    by_cases hf : m.type = HS_FINISHED
    · rw [throughFinished_of_finished hf] at hcert
      simp [hf, HS_FINISHED, HS_CERTIFICATE] at hcert
    by_cases hv : m.type = HS_CERTIFICATE_VERIFY
    · obtain ⟨fin, htype, heq⟩ := throughFinished_verify hv hchain hfin
      rw [heq] at hcert
      simp [hv, htype, HS_FINISHED, HS_CERTIFICATE, HS_CERTIFICATE_VERIFY] at hcert
    have hfin' := exists_finished hf hfin
    rw [throughFinished_cons hf] at hchain hcert ⊢
    by_cases hc : m.type = HS_CERTIFICATE
    · cases ms with
      | nil => simp [throughFinished] at hfin'
      | cons cv ms =>
        have htail := hchain.tail
        rw [throughFinished, List.isChain_cons_cons] at hchain
        have hcv := hchain.1.1 hc
        obtain ⟨fin, htype, heq⟩ := throughFinished_verify hcv htail hfin'
        exact ⟨[], m, cv, fin, by rw [heq]; rfl, by simp, hc, hcv, htype⟩
    · have hcert' : ∃ x ∈ throughFinished ms, x.type = HS_CERTIFICATE := by
        obtain ⟨x, hx, htype⟩ := hcert
        rcases List.mem_cons.1 hx with rfl | hx
        · exact absurd htype hc
        · exact ⟨x, hx, htype⟩
      obtain ⟨pre, cert, cv, fin, heq, hplain, htypes⟩ := ih hchain.tail hcert' hfin'
      exact ⟨m :: pre, cert, cv, fin, by rw [heq]; rfl,
        List.forall_mem_cons.2 ⟨⟨hc, hv, hf⟩, hplain⟩, htypes⟩

/-- And such messages are in order. -/
theorem isChain_of_eq {pre : List Message} {cert cv fin : Message} (hplain : ∀ m ∈ pre, m.Plain)
    (hcert : cert.type = HS_CERTIFICATE) (hcv : cv.type = HS_CERTIFICATE_VERIFY)
    (hfin : fin.type = HS_FINISHED) : (pre ++ [cert, cv, fin]).IsChain Follows := by
  induction pre with
  | nil =>
    simp [Follows, hcert, hcv, hfin, HS_CERTIFICATE, HS_CERTIFICATE_VERIFY]
  | cons m pre ih =>
    rw [List.forall_mem_cons] at hplain
    refine (ih hplain.2).cons fun next _ => ?_
    exact ⟨fun h => absurd h hplain.1.1, fun h => absurd h hplain.1.2.1⟩

/-! ## What the fold remembers -/

@[simp] theorem encodeAll_nil : encodeAll [] = [] := rfl

@[simp] theorem encodeAll_cons (m : Message) (ms : List Message) :
    encodeAll (m :: ms) = m.encode ++ encodeAll ms := rfl

@[simp] theorem Transcript.update_nil (tr : Transcript) : tr.update [] = tr := by
  simp [Transcript.update]

@[simp] theorem Transcript.update_update (tr : Transcript) (a b : Bytes) :
    (tr.update a).update b = tr.update (a ++ b) := by
  simp [Transcript.update]

/-- Reading messages in two parts. -/
theorem readMessages_append_eq_ok {tr : Transcript} {ms ms' : List Message} :
    readMessages k h shts tr seen (ms ++ ms') = .ok seen' ↔
      ∃ seen₁, readMessages k h shts tr seen ms = .ok seen₁ ∧
        readMessages k h shts (tr.update (encodeAll ms)) seen₁ ms' = .ok seen' := by
  induction ms generalizing tr seen with
  | nil => simp [readMessages]
  | cons m ms ih =>
    simp only [List.cons_append, readMessages, Cursor.bind_eq_ok, ih, encodeAll_cons,
      Transcript.update_update]
    constructor
    · rintro ⟨seen₁, hm, seen₂, hms, hms'⟩
      exact ⟨seen₂, ⟨seen₁, hm, hms⟩, hms'⟩
    · rintro ⟨seen₂, ⟨seen₁, hm, hms⟩, hms'⟩
      exact ⟨seen₁, hm, seen₂, hms, hms'⟩

/-- What only one type of message changes is as it was where there is none of that type. -/
theorem readMessages_frame {β : Type} (f : Seen → β) {type : UInt8} {tr : Transcript}
    {ms : List Message}
    (hstep : ∀ (s s' : Seen) (m : Message) (th : Bytes), m.type ≠ type →
      handleMessage k h shts s m th = .ok s' → f s' = f s)
    (hms : ∀ m ∈ ms, m.type ≠ type) (hread : readMessages k h shts tr seen ms = .ok seen') :
    f seen' = f seen := by
  induction ms generalizing tr seen with
  | nil =>
    cases hread
    rfl
  | cons m ms ih =>
    rw [List.forall_mem_cons] at hms
    simp only [readMessages, Cursor.bind_eq_ok] at hread
    obtain ⟨seen₁, hm, hread⟩ := hread
    exact (ih hms.2 hread).trans (hstep seen seen₁ m _ hms.1 hm)

/-- A chain comes from a Certificate. -/
theorem exists_certificate {tr : Transcript} {ms : List Message}
    (hread : readMessages k h shts tr seen ms = .ok seen')
    (hne : seen'.serverChain ≠ seen.serverChain) : ∃ m ∈ ms, m.type = HS_CERTIFICATE := by
  by_contra hnone
  push Not at hnone
  refine hne (readMessages_frame Seen.serverChain ?_ hnone hread)
  intro s s' m th htype hm
  exact (handled_of_eq_ok hm).serverChain htype

/-- That the flight ended comes from a Finished. -/
theorem exists_finished_of_gotFinished {tr : Transcript} {ms : List Message}
    (hread : readMessages k h shts tr seen ms = .ok seen')
    (hne : seen'.gotFinished ≠ seen.gotFinished) : ∃ m ∈ ms, m.type = HS_FINISHED := by
  by_contra hnone
  push Not at hnone
  refine hne (readMessages_frame Seen.gotFinished ?_ hnone hread)
  intro s s' m th htype hm
  exact (handled_of_eq_ok hm).gotFinished htype

/-! ## Coverage -/

/-- An accepted flight that its signature and its MAC cover: the three messages stand
at its end, the signature is verified over the transcript hash through that
Certificate, with the key of its first entry, and the Finished is the MAC over the
hash through that CertificateVerify. -/
structure Covers (k : Crates) (t : Target) (c : Tls13Client) (ms : List Message)
    (outcome : Tls13Outcome) (pre : List Message) (cert cv fin : Message) (tr : Transcript) :
    Prop where
  messages : ms = pre ++ [cert, cv, fin]
  plain : ∀ m ∈ pre, m.Plain
  cert_type : cert.type = HS_CERTIFICATE
  cv_type : cv.type = HS_CERTIFICATE_VERIFY
  fin_type : fin.type = HS_FINISHED
  transcript : c.transcript = some tr
  chain : parseCertificateEntryBodies cert.body = .ok outcome.serverChain
  signature : ∃ leaf scheme sig,
    let signed := List.replicate 64 0x20 ++ utf8 "TLS 1.3, server CertificateVerify" ++
      ([0] ++ (tr.update (encodeAll (pre ++ [cert]))).hashOf k)
    outcome.serverChain.head? = some leaf ∧
    readCertificateVerify cv.body ((tr.update (encodeAll (pre ++ [cert]))).hashOf k) =
      .ok (scheme, sig, signed) ∧
    verifyCertificateVerify k t scheme leaf sig signed = .ok ()
  mac : ∃ secret, c.shts = some secret ∧
    fin.body = hmacHash k outcome.suite.hash (finishedKey k outcome.suite.hash secret)
      ((tr.update (encodeAll (pre ++ [cert, cv]))).hashOf k)

/-- Server authentication covers the right transcript. -/
def Covered (k : Crates) (t : Target) (c : Tls13Client) (ms : List Message)
    (outcome : Tls13Outcome) : Prop :=
  ∃ pre cert cv fin tr, Covers k t c ms outcome pre cert cv fin tr

variable {t : Target} {records : Bytes} {outcome : Tls13Outcome}

theorem Covered.isChain {ms : List Message} (hc : Covered k t c ms outcome) :
    ms.IsChain Follows := by
  obtain ⟨pre, cert, cv, fin, tr, hc⟩ := hc
  rw [hc.messages]
  exact isChain_of_eq hc.plain hc.cert_type hc.cv_type hc.fin_type

/-- What the three last messages of a flight in order leave behind. -/
theorem readMessages_last {tr : Transcript} {cert cv fin : Message}
    (hcert : cert.type = HS_CERTIFICATE) (hcv : cv.type = HS_CERTIFICATE_VERIFY)
    (hfin : fin.type = HS_FINISHED)
    (hread : readMessages k h shts tr seen [cert, cv, fin] = .ok seen') :
    parseCertificateEntryBodies cert.body = .ok seen'.serverChain ∧
      (∃ v, readCertificateVerify cv.body ((tr.update cert.encode).hashOf k) = .ok v ∧
        seen'.cv = some v) ∧
      ∃ secret, shts = some secret ∧ fin.body = hmacHash k h (finishedKey k h secret)
        ((tr.update (cert.encode ++ cv.encode)).hashOf k) := by
  simp only [readMessages, Cursor.bind_eq_ok, Transcript.update_update] at hread
  obtain ⟨seen₁, hm₁, seen₂, hm₂, seen₃, hm₃, hend⟩ := hread
  cases hend
  have h₁ := handled_of_eq_ok hm₁
  have h₂ := handled_of_eq_ok hm₂
  have h₃ := handled_of_eq_ok hm₃
  have hchain : seen'.serverChain = seen₁.serverChain :=
    (h₃.serverChain (by rw [hfin]; decide)).trans (h₂.serverChain (by rw [hcv]; decide))
  have hsig : seen'.cv = seen₂.cv := h₃.cv (by rw [hfin]; decide)
  refine ⟨?_, ?_, (h₃.finished hfin).2⟩
  · rw [hchain]
    exact h₁.certificate hcert
  · rw [hsig]
    exact h₂.verify hcv

theorem readCertificateVerify_eq_ok {body th : Bytes} {v : ℕ × Bytes × Bytes}
    (hread : readCertificateVerify body th = .ok v) : v.2.2 = toBeSigned th := by
  rw [readCertificateVerify] at hread
  split_ifs at hread
  simp only [Cursor.bind_eq_ok] at hread
  obtain ⟨scheme, -, sigLen, -, hread⟩ := hread
  split_ifs at hread
  obtain ⟨sig, -, hread⟩ := Cursor.bind_eq_ok.1 hread
  cases hread
  rfl

theorem deriveAppKeys_eq_ok {suite : CipherSuite} {serverChain : List Bytes}
    (hrun : exec (deriveAppKeys k suite serverChain) c = (.ok outcome, c')) :
    outcome.suite = suite ∧ outcome.serverChain = serverChain := by
  simp only [deriveAppKeys, exec_bind_ok, exec_pure, Prod.mk.injEq, Except.ok.injEq] at hrun
  obtain ⟨_, _, -, _, _, -, _, _, -, _, _, -, _, _, -, _, _, -, _, _, -, _, _, -, rfl, -⟩ := hrun
  exact ⟨rfl, rfl⟩

theorem deriveAppKeys_of_masterSecret {tr : Transcript} {master : Bytes}
    (htr : c.transcript = some tr) (hmaster : c.masterSecret = some master) (suite : CipherSuite)
    (serverChain : List Bytes) :
    ∃ outcome c', exec (deriveAppKeys k suite serverChain) c = (.ok outcome, c') := by
  obtain ⟨write, hwrite, -⟩ := protectionOf_eq_ok k suite
    (deriveSecret k suite.hash master "c ap traffic" (tr.hashOf k))
  obtain ⟨read, hread, -⟩ := protectionOf_eq_ok k suite
    (deriveSecret k suite.hash master "s ap traffic" (tr.hashOf k))
  simp only [deriveAppKeys, exec_bind_ok, exec_get, exec_orPanic, exec_orFail, exec_lift,
    exec_modify, exec_pure, Prod.mk.injEq, Except.ok.injEq]
  exact ⟨_, _, _, _, ⟨rfl, rfl⟩, tr, _, ⟨htr, rfl⟩, master, _, ⟨hmaster, rfl⟩, (), _,
    ⟨trivial, rfl⟩, write, _, ⟨hwrite, rfl⟩, (), _, ⟨trivial, rfl⟩, read, _, ⟨hread, rfl⟩, (), _,
    ⟨trivial, rfl⟩, rfl, rfl⟩

/-- What an accepted flight went through. -/
theorem processServerFlight_eq_ok
    (hrun : exec (processServerFlight k t records) c = (.ok outcome, c')) :
    ∃ seen cv leaf tr, c.transcript = some tr ∧
      readMessages k outcome.suite.hash c.shts tr ⟨[], none, false⟩
        (flightMessages k c.hsRead records) = .ok seen ∧
      seen.gotFinished = true ∧ seen.cv = some cv ∧ seen.serverChain.head? = some leaf ∧
      outcome.serverChain = seen.serverChain ∧
      verifyCertificateVerify k t cv.1 leaf cv.2.1 cv.2.2 = .ok () := by
  simp only [processServerFlight, exec_bind_ok, exec_get, exec_orFail, exec_lift, Prod.mk.injEq,
    Except.ok.injEq] at hrun
  obtain ⟨_, _, ⟨rfl, rfl⟩, suite, _, ⟨-, rfl⟩, seen, c₁, hloop, cv, _, ⟨hcv, rfl⟩,
    leaf, _, ⟨hleaf, rfl⟩, _, _, ⟨hverify, rfl⟩, htail⟩ := hrun
  obtain ⟨rfl, hchain⟩ := deriveAppKeys_eq_ok htail
  obtain ⟨hgot, tr, htr, hread⟩ := flightLoop_eq_ok rfl hloop
  exact ⟨seen, cv, leaf, tr, htr, hread, hgot, hcv, hleaf, hchain, hverify⟩

/-- A flight whose messages end, with a signature that verifies, is accepted. -/
theorem processServerFlight_of_readMessages {suite : CipherSuite} {tr : Transcript}
    {leaf master : Bytes}
    {cv : ℕ × Bytes × Bytes} (hsuite : c.suite = some suite) (htr : c.transcript = some tr)
    (hmaster : c.masterSecret = some master)
    (hread : readMessages k suite.hash c.shts tr ⟨[], none, false⟩
      (flightMessages k c.hsRead records) = .ok seen)
    (hgot : seen.gotFinished = true) (hcv : seen.cv = some cv)
    (hleaf : seen.serverChain.head? = some leaf)
    (hverify : verifyCertificateVerify k t cv.1 leaf cv.2.1 cv.2.2 = .ok ()) :
    ∃ outcome c', exec (processServerFlight k t records) c = (.ok outcome, c') := by
  have hread' : readMessages k suite.hash c.shts tr ⟨[], none, false⟩
      (throughFinished (messages ([] ++ flightPayload k c.hsRead records))) = .ok seen := hread
  obtain ⟨tr', hsRead, hloop⟩ := flightLoop_of_readMessages rfl htr hread' hgot
  obtain ⟨outcome, c', hkeys⟩ := deriveAppKeys_of_masterSecret (k := k)
    (c := { c with transcript := some tr', hsRead }) rfl hmaster suite seen.serverChain
  refine ⟨outcome, c', ?_⟩
  simp only [processServerFlight, exec_bind_ok, exec_get, exec_orFail, exec_lift, Prod.mk.injEq,
    Except.ok.injEq]
  exact ⟨_, _, ⟨rfl, rfl⟩, suite, _, ⟨hsuite, rfl⟩, seen, _, hloop, cv, _, ⟨hcv, rfl⟩,
    leaf, _, ⟨hleaf, rfl⟩, (), _, ⟨hverify, rfl⟩, hkeys⟩

/-- **An accepted flight is covered exactly when it is in order.** -/
theorem covered_iff (hrun : exec (processServerFlight k t records) c = (.ok outcome, c')) :
    Covered k t c (flightMessages k c.hsRead records) outcome ↔
      (flightMessages k c.hsRead records).IsChain Follows := by
  refine ⟨Covered.isChain, fun hchain => ?_⟩
  obtain ⟨seen, cv, leaf, tr, htr, hread, hgot, hcv, hleaf, hout, hverify⟩ :=
    processServerFlight_eq_ok hrun
  have hcert : ∃ m ∈ flightMessages k c.hsRead records, m.type = HS_CERTIFICATE := by
    refine exists_certificate hread fun hnil => ?_
    rw [hnil] at hleaf
    cases hleaf
  have hfin : ∃ m ∈ flightMessages k c.hsRead records, m.type = HS_FINISHED := by
    refine exists_finished_of_gotFinished hread ?_
    rw [hgot]
    decide
  obtain ⟨pre, mcert, mcv, mfin, heq, hplain, htcert, htcv, htfin⟩ :=
    eq_of_isChain hchain hcert hfin
  have hms : flightMessages k c.hsRead records = pre ++ [mcert, mcv, mfin] := heq
  rw [hms, readMessages_append_eq_ok] at hread
  obtain ⟨seen₁, -, hread⟩ := hread
  obtain ⟨hparse, ⟨v, hv, hcv'⟩, hmac⟩ := readMessages_last htcert htcv htfin hread
  cases hcv.symm.trans hcv'
  have hsigned : encodeAll pre ++ mcert.encode = encodeAll (pre ++ [mcert]) := by simp [encodeAll]
  have hmaced : encodeAll pre ++ (mcert.encode ++ mcv.encode) = encodeAll (pre ++ [mcert, mcv]) := by
    simp [encodeAll]
  rw [Transcript.update_update, hsigned] at hv
  rw [Transcript.update_update, hmaced] at hmac
  -- what was verified is the content spelled out
  obtain ⟨scheme, sig, signed⟩ := cv
  obtain rfl : signed = _ := readCertificateVerify_eq_ok hv
  exact ⟨pre, mcert, mcv, mfin, tr, hms, hplain, htcert, htcv, htfin, htr, hout ▸ hparse,
    ⟨leaf, scheme, sig, hout ▸ hleaf, hv, hverify⟩, hmac⟩

/-! ## A small server -/

/-- A checksum for a hash. -/
def checksum (bs : Bytes) : UInt8 := bs.foldl (fun a b => a * 31 + b) 7

/-- A tag over everything the AEAD binds. -/
def sampleTag (key nonce msg aad : Bytes) : Bytes :=
  List.replicate TAG_LEN (checksum (key ++ nonce ++ aad ++ msg))

/-- Small functions for the crates: checksums for hashes and tags, RSA without padding. -/
def sampleCrates : Crates where
  digest h bs := .replicate h.len (checksum bs)
  hmac h key bs := .replicate h.len (checksum (key ++ bs))
  encrypt _ key nonce msg aad := some (msg ++ sampleTag key nonce msg aad)
  decrypt _ key nonce sealed aad :=
    let msg := sealed.take (sealed.length - TAG_LEN)
    if sealed = msg ++ sampleTag key nonce msg aad then some msg else none
  rsaAccepts key := key.e < key.n
  verifyPss _ key msg sig := ofBE sig ^ key.e % key.n = (checksum msg).toNat % key.n
  verifyPkcs1 _ key msg sig := ofBE sig ^ key.e % key.n = (checksum msg).toNat % key.n

/-- A ServerHello with an x25519 share. -/
def sampleServerHello : Bytes :=
  [CONTENT_HANDSHAKE, 3, 3, 0, 84, HS_SERVER_HELLO, 0, 0, 80, 3, 3] ++ List.replicate 32 1 ++
    [0, 0x13, 0x01, 0, 0, 40, 0, 0x33, 0, 36, 0, 0x1d, 0, 32] ++ List.replicate 32 9

/-- A client that has its handshake keys. -/
def sampleClient : Tls13Client :=
  (exec (do
    setClientHello [CONTENT_HANDSHAKE, 3, 1, 0, 1, 1]
    let share ← processServerHello sampleCrates sampleServerHello
    deriveHandshakeKeys sampleCrates share.toList) Tls13Client.new).2

/-- A certificate for the RSA key of modulus 33 and exponent 3. -/
def sampleLeaf : Bytes :=
  [0x30, 39, 0x30, 37, 2, 1, 1, 0x30, 0, 0x30, 0, 0x30, 0, 0x30, 0, 0x30, 24, 0x30, 11, 6, 9] ++
    RSA_ENCRYPTION ++ [3, 9, 0, 0x30, 6, 2, 1, 33, 2, 1, 3]

def sampleExtensions : Message := ⟨HS_ENCRYPTED_EXTENSIONS, [0, 0]⟩

def sampleCertificate : Message :=
  ⟨HS_CERTIFICATE, [0, 0, 0, 46, 0, 0, 41] ++ sampleLeaf ++ [0, 0]⟩

/-- The transcript of the sample client. -/
def sampleTranscript : Transcript := sampleClient.transcript.getD (.new .aes128GcmSha256)

/-- Its hash behind messages. -/
def sampleHash (ms : List Message) : Bytes :=
  (sampleTranscript.update (encodeAll ms)).hashOf sampleCrates

/-- The signature over messages, with the private exponent 7. -/
def sampleSignature (ms : List Message) : Bytes :=
  [UInt8.ofNat (((checksum (toBeSigned (sampleHash ms))).toNat % 33) ^ 7 % 33)]

/-- A CertificateVerify behind messages. -/
def sampleVerify (ms : List Message) : Message :=
  ⟨HS_CERTIFICATE_VERIFY, [8, 4, 0, 1] ++ sampleSignature ms⟩

/-- Messages, and a Finished behind them, in one record. -/
def sampleFlight (ms : List Message) : Bytes :=
  let fin : Message := ⟨HS_FINISHED, hmacHash sampleCrates .s256
    (finishedKey sampleCrates .s256 (sampleClient.shts.getD [])) (sampleHash ms)⟩
  match (exec (sealWith sampleCrates .badRecord Tls13Client.hsRead (fun _ c => c) CONTENT_HANDSHAKE
    (encodeAll (ms ++ [fin]))) sampleClient).1 with
  | .ok record => record
  | .error _ => []

/-- The flight in order. -/
def orderedFlight : Bytes :=
  sampleFlight [sampleExtensions, sampleCertificate,
    sampleVerify [sampleExtensions, sampleCertificate]]

/-- The CertificateVerify before the Certificate: the signed hash does not name the key. -/
def swappedFlight : Bytes :=
  sampleFlight [sampleExtensions, sampleVerify [sampleExtensions], sampleCertificate]

theorem sampleClient_accepts {records : Bytes} {signed : List Message}
    (hread : readMessages sampleCrates .s256 sampleClient.shts sampleTranscript ⟨[], none, false⟩
        (flightMessages sampleCrates sampleClient.hsRead records) =
      .ok ⟨[sampleLeaf],
        some (0x0804, sampleSignature signed, toBeSigned (sampleHash signed)), true⟩)
    (hverify : verifyCertificateVerify sampleCrates .aarch64 0x0804 sampleLeaf
      (sampleSignature signed) (toBeSigned (sampleHash signed)) = .ok ()) :
    ∃ outcome c', exec (processServerFlight sampleCrates .aarch64 records) sampleClient =
      (.ok outcome, c') := by
  have hsuite : sampleClient.suite = some .aes128GcmSha256 := by decide +kernel
  have htr : sampleClient.transcript = some sampleTranscript := by decide +kernel
  obtain ⟨master, hmaster⟩ : ∃ master, sampleClient.masterSecret = some master :=
    Option.isSome_iff_exists.1 (by decide +kernel)
  exact processServerFlight_of_readMessages hsuite htr hmaster hread rfl rfl rfl hverify

theorem covered_ordered : ∃ outcome c',
    exec (processServerFlight sampleCrates .aarch64 orderedFlight) sampleClient =
      (.ok outcome, c') ∧
    Covered sampleCrates .aarch64 sampleClient
      (flightMessages sampleCrates sampleClient.hsRead orderedFlight) outcome := by
  obtain ⟨outcome, c', hrun⟩ := @sampleClient_accepts orderedFlight
    [sampleExtensions, sampleCertificate] (by decide +kernel) (by decide +kernel)
  exact ⟨outcome, c', hrun, (covered_iff hrun).2 (by decide +kernel)⟩

theorem not_covered : ∃ outcome c',
    exec (processServerFlight sampleCrates .aarch64 swappedFlight) sampleClient =
      (.ok outcome, c') ∧
    ¬ Covered sampleCrates .aarch64 sampleClient
      (flightMessages sampleCrates sampleClient.hsRead swappedFlight) outcome := by
  obtain ⟨outcome, c', hrun⟩ := @sampleClient_accepts swappedFlight [sampleExtensions]
    (by decide +kernel) (by decide +kernel)
  exact ⟨outcome, c', hrun, fun hc => absurd hc.isChain (by decide +kernel)⟩

end ShadeVpn.Tls13
