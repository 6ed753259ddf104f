import ShadeVpn.Pump.MirrorServer
import ShadeVpn.Reality.Origin

/-!
# Where the records of a tunnel come from

The two loops of a tunnel behind an attacker that sees every message of the runs, holds
secrets of its own and decides what arrives.

A loop opens a record at its own counter only, so that what it takes in is a front of what
the other end sent.  The inbound loop of the pump steps back behind a record that `VlessIn`
refused: that record is the next one still, and may be replayed.

* `Run.records_origin` — what the record loop of the server opens, and what the inbound
  loop of the pump opens and takes in.
* `openings_refused` — a record that was refused opens again.
-/

namespace ShadeVpn.Pump

open Octets Checked Handshake Transport Vless Symbolic

/-! ## Loops over symbols -/

section Symbols

variable {κ σ : Type} [Alphabet σ] (C : Crypto κ σ)

/-- `open_record` on the symbols of a frame, with the plaintext as bytes. -/
def openBytes (st : HandshakeState κ σ) (seq : UInt64) (frame : List σ) :
    Except HandshakeError Bytes := (st.openRecord C seq frame).map values

/-- The server's opening of a record, with the plaintext as bytes. -/
def serverOpens (session : ServerSession σ) (seq : UInt64) (frame : List σ) : Option Bytes :=
  (session.openRecord C seq frame).map values

/-- The server's sealing of a record, with the frame as bytes. -/
def serverSeals (session : ServerSession σ) (seq : UInt64) (plaintext : Bytes) : Option Bytes :=
  (session.sealRecord C seq (lits plaintext)).map values

end Symbols

section Bytes

variable {κ : Type} (C : Crypto κ UInt8)

/-- Over bytes these are what the loops run with. -/
theorem turn_eq_turnOf (st : HandshakeState κ UInt8) (s : Inbound) (e : SocketRead) :
    s.turn C st e = s.turnOf (openBytes C st) e := by
  have hopens : openBytes C st = st.openRecord C := by
    funext seq frame
    rw [openBytes]
    cases st.openRecord C seq frame with
    | error e => rfl
    | ok pt => exact congrArg Except.ok (values_uint8 pt)
  rw [hopens]
  rfl

theorem frame_eq_frameOf (session : ServerSession UInt8) (t : Target) (expect : Option Uuid)
    (s : RecordLoop) (frame : Bytes) (draw : ℕ → ℕ) (io : Option ℕ) :
    s.frame C session t expect frame draw io =
      s.frameOf t expect (serverOpens C session) (serverSeals C session) frame draw io := by
  have hvalues : ∀ bytes : Option Bytes, bytes.map values = bytes := by
    intro bytes
    cases bytes with
    | none => rfl
    | some bytes => exact congrArg some (values_uint8 bytes)
  have hlits : ∀ bytes : Bytes, (lits bytes : List UInt8) = bytes := fun bytes => by
    rw [← values_uint8 (lits bytes), values_lits]
  have hopens : serverOpens C session = session.openRecord C := by
    funext seq frame
    exact hvalues _
  have hseals : serverSeals C session = session.sealRecord C := by
    funext seq plaintext
    rw [serverSeals, hvalues, hlits]
  rw [hopens, hseals]
  rfl

end Bytes

/-! ## What the inbound loop opens -/

/-- A record that the inbound loop has opened, and whether it took it in: `seq_in` stays
behind it. -/
structure Opening where
  plaintext : Bytes
  taken : Bool
  deriving DecidableEq

/-- Each opening is of the first payload that has not been taken in. -/
def InPlace : List Bytes → List Opening → Prop
  | _, [] => True
  | payloads, o :: os =>
    payloads.head? = some o.plaintext ∧ InPlace (if o.taken then payloads.tail else payloads) os

/-- The plaintexts that were taken in. -/
def takenIn (os : List Opening) : List Bytes := (os.filter Opening.taken).map Opening.plaintext

/-- **What is taken in, in place, is a front.** -/
theorem InPlace.takenIn_front {payloads : List Bytes} {os : List Opening}
    (h : InPlace payloads os) : takenIn os <+: payloads := by
  induction os generalizing payloads with
  | nil => exact List.nil_prefix
  | cons o os ih =>
    obtain ⟨hhead, hrest⟩ := h
    obtain ⟨rest, rfl⟩ := List.head?_eq_some_iff.1 hhead
    rw [takenIn]
    cases htaken : o.taken with
    | true =>
      rw [if_pos htaken] at hrest
      rw [List.filter_cons_of_pos htaken, List.map_cons]
      exact (List.prefix_cons_inj _).2 (ih hrest)
    | false =>
      rw [if_neg (by simp [htaken])] at hrest
      rw [List.filter_cons_of_neg (by simp [htaken])]
      exact ih hrest

section Inbound

variable {σ : Type} (opens : UInt64 → List σ → Except HandshakeError Bytes)

/-- What a run of the inbound loop opens. -/
def Inbound.openings : Inbound → List (SocketReadOf σ) → List Opening
  | _, [] => []
  | s, e :: es =>
    (s.turnOf opens e).2.toList.map (fun pt => ⟨pt, (s.turnOf opens e).1.seqIn != s.seqIn⟩) ++
      (s.turnOf opens e).1.openings es

/-- The inbound loop behind a run. -/
def Inbound.ran (s : Inbound) (es : List (SocketReadOf σ)) : Inbound :=
  Machine.run (fun s e => (s.turnOf opens e).1) s es

/-- What one turn does: it opens nothing and keeps its counter, or it opens the frame at its
counter, and then takes the record in or leaves it.  Without VLESS it leaves one only when
it ends. -/
inductive Inbound.Turns (s : Inbound) : SocketReadOf σ → Inbound × Option Bytes → Prop
  | idle {e : SocketReadOf σ} {s' : Inbound} (hseq : s'.seqIn = s.seqIn)
    (hvless : s'.vlessIn = s.vlessIn) (hdelivered : s'.delivered = s.delivered) :
    Turns s e (s', none)
  | takes {frame : List σ} {tunOk : Bool} {s' : Inbound} {plaintext : Bytes}
    (hopen : opens s.seqIn frame = .ok plaintext) (hseq : s'.seqIn = s.seqIn + 1)
    (hraw : s.vlessIn = none → s'.vlessIn = none ∧ s'.delivered = s.delivered ++ [plaintext]) :
    Turns s (.frame frame tunOk) (s', some plaintext)
  | leaves {frame : List σ} {tunOk : Bool} {s' : Inbound} {plaintext : Bytes}
    (hopen : opens s.seqIn frame = .ok plaintext) (hseq : s'.seqIn = s.seqIn)
    (hraw : s.vlessIn = none → s'.exit.isSome = true ∧ s'.delivered = s.delivered) :
    Turns s (.frame frame tunOk) (s', some plaintext)

variable {opens}

/-- **What one turn of the inbound loop does.** -/
theorem turnOf_turns (s : Inbound) (e : SocketReadOf σ) : s.Turns opens e (s.turnOf opens e) := by
  rw [Inbound.turnOf.eq_def]
  split_ifs
  · exact .idle rfl rfl rfl
  cases e with
  | stopped => exact .idle rfl rfl rfl
  | eof => exact .idle rfl rfl rfl
  | failed => exact .idle rfl rfl rfl
  | frame frame tunOk =>
    show s.Turns opens _ (s.frameOf opens frame tunOk)
    rw [Inbound.frameOf]
    by_cases hempty : frame = []
    · rw [if_pos hempty]
      exact .idle rfl rfl rfl
    rw [if_neg hempty]
    dsimp only
    split
    · exact .idle (by simp) rfl rfl
    next plaintext hopen =>
    -- without VLESS the plaintext is the packet
    have hpacket : s.vlessIn = none → unwrap s.vlessIn plaintext = (.ok plaintext, none) := by
      intro hv
      rw [hv]
      rfl
    split
    · next packet v hunwrap =>
      split_ifs
      · refine .takes hopen rfl fun hv => ?_
        obtain ⟨hok, hnone⟩ := Prod.mk.inj (hunwrap.symm.trans (hpacket hv))
        obtain rfl := Except.ok.inj hok
        exact ⟨hnone, rfl⟩
      · exact .leaves hopen (by simp) fun _ => ⟨rfl, rfl⟩
    · next e v hunwrap =>
      refine .leaves hopen (by simp) fun hv => ?_
      cases (hunwrap.symm.trans (hpacket hv))
    · next e v hrefused hunwrap =>
      refine .takes hopen rfl fun hv => ?_
      cases (hunwrap.symm.trans (hpacket hv))

/-- A loop that was left opens nothing. -/
theorem openings_exited {s : Inbound} (h : s.exit.isSome = true) (es : List (SocketReadOf σ)) :
    s.openings opens es = [] := by
  induction es with
  | nil => rfl
  | cons e es ih =>
    have hturn : s.turnOf opens e = (s, none) := by rw [Inbound.turnOf.eq_def, if_pos h]
    rw [Inbound.openings, hturn]
    exact ih

variable {payloads : List Bytes}

/-- A counter that has a payload behind it goes on to the next one. -/
theorem drop_succ (hlen : payloads.length < 2 ^ 64) {seq : UInt64} {pt : Bytes}
    (h : payloads[seq.toNat]? = some pt) :
    payloads.drop seq.toNat = pt :: payloads.drop (seq + 1).toNat := by
  obtain ⟨hlt, hget⟩ := List.getElem?_eq_some_iff.1 h
  have hnext : (seq + 1).toNat = seq.toNat + 1 := by
    rw [UInt64.toNat_add]
    exact Nat.mod_eq_of_lt (by show seq.toNat + 1 < _; omega)
  rw [List.drop_eq_getElem_cons hlt, hget, hnext]

/-- The frames of a run open at their own place only. -/
def OpensAt (opens : UInt64 → List σ → Except HandshakeError Bytes) (payloads : List Bytes)
    (es : List (SocketReadOf σ)) : Prop :=
  ∀ frame tunOk, .frame frame tunOk ∈ es → ∀ seq pt, opens seq frame = .ok pt →
    payloads[seq.toNat]? = some pt

theorem OpensAt.head {frame : List σ} {tunOk : Bool} {es : List (SocketReadOf σ)}
    (h : OpensAt opens payloads (.frame frame tunOk :: es)) {seq : UInt64} {pt : Bytes}
    (hopen : opens seq frame = .ok pt) : payloads[seq.toNat]? = some pt :=
  h frame tunOk List.mem_cons_self seq pt hopen

theorem OpensAt.tail {e : SocketReadOf σ} {es : List (SocketReadOf σ)}
    (h : OpensAt opens payloads (e :: es)) : OpensAt opens payloads es :=
  fun frame tunOk hmem => h frame tunOk (List.mem_cons_of_mem e hmem)

/-- **Records that open at their own place only** are opened in place. -/
theorem openings_inPlace (hlen : payloads.length < 2 ^ 64) {es : List (SocketReadOf σ)}
    (h : OpensAt opens payloads es) (s : Inbound) :
    InPlace (payloads.drop s.seqIn.toNat) (s.openings opens es) := by
  induction es generalizing s with
  | nil => trivial
  | cons e es ih =>
    have hturn : s.Turns opens e (s.turnOf opens e) := turnOf_turns s e
    rw [Inbound.openings]
    generalize s.turnOf opens e = o at hturn
    cases hturn with
    | @idle _ s' hseq =>
      have hrest := ih h.tail s'
      rw [hseq] at hrest
      exact hrest
    | @takes frame tunOk s' plaintext hopen hseq =>
      have hrest := ih h.tail s'
      rw [drop_succ hlen (h.head hopen)]
      refine ⟨rfl, ?_⟩
      rw [if_pos (by simp [hseq]), List.tail_cons, ← hseq]
      exact hrest
    | @leaves frame tunOk s' plaintext hopen hseq =>
      have hrest := ih h.tail s'
      rw [hseq, drop_succ hlen (h.head hopen)] at hrest
      rw [drop_succ hlen (h.head hopen)]
      refine ⟨rfl, ?_⟩
      rw [if_neg (by simp [hseq])]
      exact hrest

/-- **Without VLESS** a record opens once, and the TUN gets what was taken in. -/
theorem openings_raw (hlen : payloads.length < 2 ^ 64) {es : List (SocketReadOf σ)}
    (h : OpensAt opens payloads es) {s : Inbound} (hraw : s.vlessIn = none) :
    (s.openings opens es).map Opening.plaintext <+: payloads.drop s.seqIn.toNat ∧
      (s.ran opens es).delivered = s.delivered ++ takenIn (s.openings opens es) := by
  induction es generalizing s with
  | nil => exact ⟨List.nil_prefix, by simp [Inbound.ran, Inbound.openings, takenIn]⟩
  | cons e es ih =>
    have hturn : s.Turns opens e (s.turnOf opens e) := turnOf_turns s e
    rw [Inbound.openings, Inbound.ran, Machine.run_cons, ← Inbound.ran]
    generalize s.turnOf opens e = o at hturn
    cases hturn with
    | @idle _ s' hseq hvless hdelivered =>
      obtain ⟨hfront, hran⟩ := ih h.tail (hvless.trans hraw)
      rw [hseq] at hfront
      rw [hdelivered] at hran
      exact ⟨hfront, hran⟩
    | @takes frame tunOk s' plaintext hopen hseq htaken =>
      obtain ⟨hvless, hdelivered⟩ := htaken hraw
      obtain ⟨hfront, hran⟩ := ih h.tail hvless
      rw [hseq] at hfront
      rw [drop_succ hlen (h.head hopen)]
      refine ⟨(List.prefix_cons_inj _).2 hfront, ?_⟩
      rw [hran, hdelivered, List.append_assoc]
      simp [takenIn, hseq]
    | @leaves frame tunOk s' plaintext hopen hseq hleft =>
      obtain ⟨hexit, hdelivered⟩ := hleft hraw
      have hran : s'.ran opens es = s' := by
        refine Machine.run_inv (I := (· = s')) ?_ es rfl
        rintro s e rfl
        rw [Inbound.turnOf.eq_def, if_pos hexit]
      rw [drop_succ hlen (h.head hopen), openings_exited hexit, hran]
      refine ⟨List.prefix_cons_inj _ |>.2 List.nil_prefix, ?_⟩
      simp [takenIn, hseq, hdelivered]

/-- **A record that was refused opens again**: the loop is still at its number. -/
theorem openings_refused {s : Inbound} (hexit : s.exit = none) {frame : List σ} (hne : frame ≠ [])
    {plaintext : Bytes} (hopen : opens s.seqIn frame = .ok plaintext) {e : VlessError}
    {v : Option VlessIn} (hrefused : unwrap s.vlessIn plaintext = (.error (.err e), v))
    (tunOk : Bool) :
    (s.openings opens [.frame frame tunOk, .frame frame tunOk]).map Opening.plaintext =
      [plaintext, plaintext] := by
  have hframe : ∃ s', s.turnOf opens (.frame frame tunOk) = (s', some plaintext) ∧
      s'.exit = none ∧ s'.seqIn = s.seqIn := by
    simp only [Inbound.turnOf, Inbound.frameOf, hexit, if_neg hne, hopen, hrefused,
      Option.isSome_none, Bool.false_eq_true, if_false]
    exact ⟨_, rfl, rfl, by simp⟩
  obtain ⟨s', hturn, hexit', hseq⟩ := hframe
  -- whatever `VlessIn` now makes of it, it is opened first
  have hagain : (s'.turnOf opens (.frame frame tunOk)).2 = some plaintext := by
    simp only [Inbound.turnOf, Inbound.frameOf, hexit', if_neg hne, hseq, hopen,
      Option.isSome_none, Bool.false_eq_true, if_false]
    split
    · split_ifs <;> rfl
    · rfl
    · rfl
  simp [Inbound.openings, hturn, hagain]

end Inbound

/-! ## What the record loop opens -/

section RecordLoop

variable {σ : Type} (opens : UInt64 → List σ → Option Bytes)
  (seals : UInt64 → Bytes → Option Bytes) (t : Target) (expectVlessUuid : Option Uuid)

/-- What one turn of the record loop meets: a frame, the draws for the answer and the outcome
of its write. -/
structure ServerRead (σ : Type) where
  frame : List σ
  draw : ℕ → ℕ
  io : Option ℕ

/-- The plaintext that the loop opens in a frame. -/
def RecordLoop.opening (s : RecordLoop) (frame : List σ) : Option Bytes :=
  if frame = [] then none else opens s.seqIn frame

/-- What a run of the record loop opens. -/
def RecordLoop.openings : RecordLoop → List (ServerRead σ) → List Bytes
  | _, [] => []
  | s, r :: rs =>
    if s.ended.isSome then []
    else
      (s.opening opens r.frame).toList ++
        (s.frameOf t expectVlessUuid opens seals r.frame r.draw r.io).openings rs

variable {opens seals t expectVlessUuid}

theorem eq_add_of_addU64 {a b c : UInt64} (h : addU64 a b = .ok c) : c = a + b := by
  rw [addU64] at h
  split_ifs at h
  exact (Except.ok.inj h).symm

/-- Neither the request nor a payload touches the counter. -/
theorem content_seqIn {s s' : RecordLoop} {unpadded payload : Bytes}
    (h : s.content t expectVlessUuid unpadded = .ok (payload, s')) : s'.seqIn = s.seqIn := by
  rw [RecordLoop.content] at h
  split at h
  · simp only [RecordLoop.request, Cursor.bind_eq_ok] at h
    obtain ⟨hlen, -, header, -, req, -, expected, -, h⟩ := h
    split_ifs at h
    obtain ⟨payloadBytes, -, h⟩ := Cursor.bind_eq_ok.1 h
    cases h
    rfl
  · obtain ⟨payloadBytes, -, h⟩ := Cursor.bind_eq_ok.1 h
    cases h
    rfl

theorem reply_seqIn {s s' : RecordLoop} {opened reply : Bytes} {draw : ℕ → ℕ}
    (h : s.reply t expectVlessUuid opened draw = .ok (reply, s')) : s'.seqIn = s.seqIn := by
  rw [RecordLoop.reply] at h
  split at h
  · split at h
    · cases h
    · simp only [Cursor.bind_eq_ok, Prod.exists] at h
      obtain ⟨_, _, -, payload, s₁, hcontent, out, writer, -, h⟩ := h
      cases h
      have hseq := content_seqIn hcontent
      exact hseq
  · cases h
    rfl

/-- **A loop that goes on** behind a frame has skipped it, or opened it and counted it. -/
theorem opening_of_goes {s : RecordLoop} {r : ServerRead σ}
    (hgoes : (s.frameOf t expectVlessUuid opens seals r.frame r.draw r.io).ended = none) :
    s.opening opens r.frame = none ∧
        (s.frameOf t expectVlessUuid opens seals r.frame r.draw r.io).seqIn = s.seqIn ∨
      ∃ pt, s.opening opens r.frame = some pt ∧
        (s.frameOf t expectVlessUuid opens seals r.frame r.draw r.io).seqIn = s.seqIn + 1 := by
  rw [RecordLoop.frameOf] at hgoes ⊢
  rw [RecordLoop.opening]
  by_cases hempty : r.frame = []
  · rw [if_pos hempty, if_pos hempty]
    exact Or.inl ⟨rfl, rfl⟩
  rw [if_neg hempty] at hgoes ⊢
  rw [if_neg hempty]
  right
  cases hanswer : s.answerOf t expectVlessUuid opens seals r.frame r.draw with
  | error e =>
    rw [hanswer] at hgoes
    cases hgoes
  | ok answer =>
    obtain ⟨resealed, s₁⟩ := answer
    -- the answer has counted the record
    have hcounted : ∃ pt, opens s.seqIn r.frame = some pt ∧ s₁.seqIn = s.seqIn + 1 := by
      simp only [RecordLoop.answerOf, Cursor.bind_eq_ok, Prod.exists] at hanswer
      obtain ⟨pt, hopen, seqIn, hadd, reply, s₂, hreply, _, -, seqOut, -, h⟩ := hanswer
      cases h
      exact ⟨pt, okOr_eq_ok.1 hopen, (reply_seqIn hreply).trans (eq_add_of_addU64 hadd)⟩
    obtain ⟨pt, hopen, hseq⟩ := hcounted
    refine ⟨pt, hopen, ?_⟩
    dsimp only
    split <;> exact hseq

/-- **Records that open at their own place only** are opened in order. -/
theorem serverOpenings_prefix {payloads : List Bytes} (hlen : payloads.length < 2 ^ 64)
    {rs : List (ServerRead σ)} (h : ∀ r ∈ rs, ∀ seq pt, opens seq r.frame = some pt →
      payloads[seq.toNat]? = some pt) (s : RecordLoop) :
    s.openings opens seals t expectVlessUuid rs <+: payloads.drop s.seqIn.toNat := by
  induction rs generalizing s with
  | nil => exact List.nil_prefix
  | cons r rs ih =>
    rw [List.forall_mem_cons] at h
    rw [RecordLoop.openings]
    split_ifs
    · exact List.nil_prefix
    have hhead : ∀ pt, s.opening opens r.frame = some pt → payloads.drop s.seqIn.toNat =
        pt :: payloads.drop (s.seqIn + 1).toNat := by
      intro pt hopening
      rw [RecordLoop.opening] at hopening
      split_ifs at hopening
      exact drop_succ hlen (h.1 _ _ hopening)
    have hrest := ih h.2 (s.frameOf t expectVlessUuid opens seals r.frame r.draw r.io)
    generalize hs' : s.frameOf t expectVlessUuid opens seals r.frame r.draw r.io = s' at hrest
    cases hended : s'.ended with
    | some why =>
      -- the loop has ended with this frame
      have hnothing : s'.openings opens seals t expectVlessUuid rs = [] := by
        cases rs <;> simp [RecordLoop.openings, hended]
      rw [hnothing, List.append_nil]
      cases hopening : s.opening opens r.frame with
      | none => exact List.nil_prefix
      | some pt =>
        rw [hhead pt hopening]
        exact (List.prefix_cons_inj _).2 List.nil_prefix
    | none =>
      rcases opening_of_goes (hs' ▸ hended) with ⟨hnone, hseq⟩ | ⟨pt, hopening, hseq⟩
      · rw [hs'] at hseq
        rw [hseq] at hrest
        rw [hnone]
        exact hrest
      · rw [hs'] at hseq
        rw [hseq] at hrest
        rw [hopening, hhead pt hopening]
        exact (List.prefix_cons_inj _).2 hrest

end RecordLoop

/-! ## Records of the runs -/

/-- What the inbound loop makes of the payloads of the server: it opens them in place, what
it takes in is a front of them, and without VLESS each opens once and the TUN gets what was
taken in. -/
structure TakesIn {σ : Type} (opens : UInt64 → List σ → Except HandshakeError Bytes)
    (payloads : List Bytes) (s : Inbound) (es : List (SocketReadOf σ)) : Prop where
  inPlace : InPlace payloads (s.openings opens es)
  front : takenIn (s.openings opens es) <+: payloads
  raw : s.vlessIn = none → (s.openings opens es).map Opening.plaintext <+: payloads ∧
    (s.ran opens es).delivered = s.delivered ++ takenIn (s.openings opens es)

theorem takesIn_of_opensAt {σ : Type} {opens : UInt64 → List σ → Except HandshakeError Bytes}
    {payloads : List Bytes} (hlen : payloads.length < 2 ^ 64) {es : List (SocketReadOf σ)}
    (h : OpensAt opens payloads es) (s : Inbound) :
    TakesIn opens (payloads.drop s.seqIn.toNat) s es :=
  ⟨openings_inPlace hlen h s, (openings_inPlace hlen h s).takenIn_front, openings_raw hlen h⟩

section Runs

variable {κ : Type} {serverSecret : κ} {own : κ → Prop}
  {runs : Set (Run (Crypto.symbolic (κ := κ)) serverSecret)}
  {run : Run (Crypto.symbolic (κ := κ)) serverSecret}
  {data : Run (Crypto.symbolic (κ := κ)) serverSecret → Direction → List Bytes}

/-- **What the loops of a tunnel take in.**  Runs whose answers have key shares of their own,
an attacker without the ephemeral secrets of this client and of the servers, and any frames
it can build: what the record loop opens is a front of what the client of the run sent, and
the inbound loop, once client and server agree, takes in a front of what the server sent for
its hello, each record opened in its place. -/
theorem records_origin (hfresh : Set.InjOn Run.serverEphemeral runs) (hrun : run ∈ runs)
    (he : ¬ own run.ephemeral) (ht : ∀ x ∈ runs, ¬ own x.serverEphemeral)
    (hdata : ∀ x ∈ runs, ∀ direction, (data x direction).length < 2 ^ 64) :
    (∀ (t : Target) (expectVlessUuid : Option Uuid) {rs : List (ServerRead (Term κ))},
      (∀ r ∈ rs, ∀ y ∈ r.frame, Knows Crypto.symbolic own (Run.transcript data runs) y) →
      (RecordLoop.start expectVlessUuid 0 0).openings (serverOpens Crypto.symbolic run.session)
        (serverSeals Crypto.symbolic run.session) t expectVlessUuid rs <+: data run .client) ∧
    ∀ {r : List (Term κ)} {st' : HandshakeState κ (Term κ)},
      run.st.complete Crypto.symbolic r = (.ok (), st') → run.Agrees runs r →
      ∃ x ∈ runs, x.st.wireHello = run.st.wireHello ∧
        ∀ (config : PumpConfig) (stats : PumpStats) (nextInSeq : UInt64)
          {es : List (SocketReadOf (Term κ))},
          (∀ frame tunOk, .frame frame tunOk ∈ es →
            ∀ y ∈ frame, Knows Crypto.symbolic own (Run.transcript data runs) y) →
          TakesIn (openBytes Crypto.symbolic st') ((data x .server).drop nextInSeq.toNat)
            (.start config stats nextInSeq) es := by
  refine ⟨fun t expectVlessUuid {rs} hknown => ?_, fun {r st'} haccept hagrees => ?_⟩
  · refine serverOpenings_prefix (hdata run hrun .client) ?_ (.start expectVlessUuid 0 0)
    intro r hr seq pt hopen
    obtain ⟨opened, hopened, rfl⟩ := Option.map_eq_some_iff.1 hopen
    obtain ⟨payload, hsent, rfl⟩ :=
      Run.server_opens_origin hfresh hrun he (ht run hrun) (hknown r hr) hopened
    rw [values_lits]
    exact hsent
  · obtain ⟨x, hx, hhello, horigin⟩ :=
      @Run.client_opens_origin _ _ _ _ _ data hfresh he ht r st' haccept hagrees
    refine ⟨x, hx, hhello, fun config stats nextInSeq {es} hknown => ?_⟩
    refine takesIn_of_opensAt (hdata x hx .server) ?_ (.start config stats nextInSeq)
    intro frame tunOk hmem seq pt hopen
    rw [openBytes] at hopen
    cases hopened : st'.openRecord Crypto.symbolic seq frame with
    | error e =>
      rw [hopened] at hopen
      cases hopen
    | ok opened =>
      rw [hopened] at hopen
      obtain rfl := Except.ok.inj hopen
      obtain ⟨payload, hsent, rfl⟩ := horigin (hknown frame tunOk hmem) hopened
      rw [values_lits]
      exact hsent

/-- One record each way. -/
def sampleData : Direction → List Bytes
  | .client => [[1, 2]]
  | .server => [[3]]

/-- A client and its server, to each of which the attacker plays a record twice. -/
theorem records_origin_replayed : ∃ (run : Run (Crypto.symbolic (κ := ℕ)) 3)
    (st' : HandshakeState ℕ (Term ℕ)) (up down : List (Term ℕ)),
    run.st.complete Crypto.symbolic run.response = (.ok (), st') ∧
    st'.sealRecord Crypto.symbolic 0 (lits [1, 2]) = .ok up ∧
    run.session.sealRecord Crypto.symbolic 0 (lits [3]) = some down ∧
    (RecordLoop.start none 0 0).openings (serverOpens Crypto.symbolic run.session)
      (serverSeals Crypto.symbolic run.session) .aarch64 none
      [⟨up, fun _ => 0, none⟩, ⟨up, fun _ => 0, none⟩] <+: [[1, 2]] ∧
    TakesIn (openBytes Crypto.symbolic st') [[3]] (.start ⟨false, none⟩ .zero 0)
      [.frame down true, .frame down true] := by
  obtain ⟨run, he, -, ht⟩ := Run.exists_run (κ := ℕ) 3 5 7 9
  have hecdhe : Crypto.symbolic.x25519 run.ephemeral
      (Crypto.symbolic.publicKey run.serverEphemeral) ≠ Crypto.zeros 32 := by
    rw [Crypto.symbolic_publicKey, Crypto.symbolic_x25519_point]
    exact point_ne_zeros _ _
  obtain ⟨st', haccept, hkeys⟩ := complete_serve Crypto.symbolic_lawful rfl run.initiated
    run.answered hecdhe
  obtain ⟨up, hup⟩ : ∃ up, st'.sealRecord Crypto.symbolic 0 (lits [1, 2]) = .ok up := by
    obtain ⟨up, hup⟩ := Crypto.symbolic_lawful.encrypt_ok run.keys.send
      (deriveNonce Crypto.symbolic st'.sealedSessionId 0 .client NONCE_PURPOSE_DATA) []
      (lits [1, 2]) (by simp) (by decide)
    refine ⟨up, ?_⟩
    rw [HandshakeState.sealRecord, (Run.keys_of_accept haccept).1]
    dsimp only
    rw [hup]
  obtain ⟨down, hdown⟩ : ∃ down, run.session.sealRecord Crypto.symbolic 0 (lits [3]) = some down :=
    Crypto.symbolic_lawful.encrypt_ok _ _ [] (lits [3]) (by simp) (by decide)
  have hmem : run ∈ ({run} : Set (Run Crypto.symbolic 3)) := Set.mem_singleton run
  have hknown : ∀ frame ∈ [up, down], ∀ y ∈ frame,
      Knows Crypto.symbolic (· = 11) (Run.transcript (fun _ => sampleData) {run}) y := by
    intro frame hframe y hy
    simp only [List.mem_cons, List.not_mem_nil, or_false] at hframe
    rcases hframe with rfl | rfl
    · exact .wire (.inr ⟨run, rfl, _, .clientRecord haccept rfl hup, hy⟩)
    · exact .wire (.inr ⟨run, rfl, _, .serverRecord rfl hdown, hy⟩)
  obtain ⟨hserver, hclient⟩ := @records_origin ℕ 3 (· = 11) {run} run (fun _ => sampleData)
    (Set.injOn_singleton _ run) hmem (by rw [he]; decide) (by rintro x rfl; rw [ht]; decide)
    (fun _ _ direction => by cases direction <;> simp [sampleData])
  obtain ⟨x, -, -, htakes⟩ := hclient haccept (Run.agrees_response hmem)
  refine ⟨run, st', up, down, haccept, hup, hdown, hserver .aarch64 none ?_,
    htakes ⟨false, none⟩ .zero 0 ?_⟩
  · intro r hr
    have hframe : r.frame = up := by
      rcases List.mem_pair.1 hr with rfl | rfl <;> rfl
    rw [hframe]
    exact hknown up (by simp)
  · intro frame tunOk hmem
    have hframe : frame = down := by
      rcases List.mem_pair.1 hmem with h | h <;> exact (SocketReadOf.frame.inj h).1
    rw [hframe]
    exact hknown down (by simp)

end Runs

end ShadeVpn.Pump
