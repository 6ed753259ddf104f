import ShadeVpn.Tls13.ServerFlight

/-!
# Record boundaries in the server flight

Handshake messages cross record boundaries as they like: a record may hold a part of a
message, or several, or nothing, and a ChangeCipherSpec may stand anywhere.  The flight loop
refills its buffer from the records and takes messages from it in turns.

* `processServerFlight_division` — for messages that end in their only Finished, and records
  that open to fragments of their bytes, the loop comes to what the messages come to one by
  one (`processMessages`), an outcome or an error; so any two divisions come to the same.

The loop ends because every turn takes a record or, from the buffer, a message.
-/

namespace ShadeVpn.Tls13

open Octets Checked Fallible

variable (k : Crates)

/-! ## Messages one by one -/

/-- Messages taken up in order, without records. -/
def takeMessages (h : HashAlg) (seen : Seen) : List Message → Method Seen
  | [] => pure seen
  | m :: ms => do
    let thBefore ← takeMessage k m.encode m
    let c ← get
    let seen ← lift <| handleMessage k h c.shts seen m thBefore
    takeMessages h seen ms

/-- What the messages of a flight come to. -/
def processMessages (t : Target) (ms : List Message) : Method Tls13Outcome := do
  let c ← get
  let suite ← orFail .badHandshake c.suite
  let seen ← takeMessages k suite.hash ⟨[], none, false⟩ ms
  let (scheme, sig, tbs) ← orFail .badHandshake seen.cv
  let leaf ← orFail .badHandshake seen.serverChain.head?
  lift <| verifyCertificateVerify k t scheme leaf sig tbs
  deriveAppKeys k suite seen.serverChain

/-- The last message is a Finished, and no other is. -/
def EndsInFinished : List Message → Prop
  | [] => False
  | m :: ms => if m.type = HS_FINISHED then ms = [] else EndsInFinished ms

instance decidableEndsInFinished : (ms : List Message) → Decidable (EndsInFinished ms)
  | [] => inferInstanceAs (Decidable False)
  | m :: ms =>
    have := decidableEndsInFinished ms
    inferInstanceAs (Decidable (if m.type = HS_FINISHED then ms = [] else EndsInFinished ms))

/-! ## Records -/

/-- A record of the flight: a ChangeCipherSpec, or an encrypted record that is to open to a
fragment with some zeros behind its content type. -/
inductive FlightRecord where
  | changeCipherSpec (version : UInt8 × UInt8) (body : Bytes)
  | encrypted (version : UInt8 × UInt8) (body fragment : Bytes) (padding : ℕ)

namespace FlightRecord

def contentType : FlightRecord → UInt8
  | changeCipherSpec _ _ => CONTENT_CHANGE_CIPHER_SPEC
  | encrypted _ _ _ _ => CONTENT_APPDATA

def version : FlightRecord → UInt8 × UInt8
  | changeCipherSpec version _ => version
  | encrypted version _ _ _ => version

def body : FlightRecord → Bytes
  | changeCipherSpec _ body => body
  | encrypted _ body _ _ => body

def fragment : FlightRecord → Bytes
  | changeCipherSpec _ _ => []
  | encrypted _ _ fragment _ => fragment

def header (r : FlightRecord) : Bytes :=
  r.contentType :: r.version.1 :: r.version.2 :: toBE 2 r.body.length

def wire (r : FlightRecord) : Bytes := r.header ++ r.body

/-- An encrypted record opens to its fragment under a protection. -/
def Opens (p : Option Protection) : FlightRecord → Prop
  | changeCipherSpec _ _ => True
  | r@(encrypted _ body fragment padding) => (do
      let p ← okOr Tls13Error.badRecord p
      let nonce ← recordNonce p.iv p.seq
      p.cipher.open k nonce body r.header) =
        .ok (fragment ++ CONTENT_HANDSHAKE :: List.replicate padding 0)

instance (p : Option Protection) : (r : FlightRecord) → Decidable (r.Opens k p)
  | changeCipherSpec _ _ => inferInstanceAs (Decidable True)
  | encrypted _ _ _ _ => inferInstanceAs (Decidable (_ = _))

/-- The protection behind a record. -/
def next (p : Option Protection) : FlightRecord → Option Protection
  | changeCipherSpec _ _ => p
  | encrypted _ _ _ _ => p.map Protection.next

end FlightRecord

/-- Every encrypted record opens at its sequence. -/
def Opens (p : Option Protection) : List FlightRecord → Prop
  | [] => True
  | r :: rs => r.Opens k p ∧ Opens (r.next p) rs

instance decidableOpens :
    (p : Option Protection) → (records : List FlightRecord) → Decidable (Opens k p records)
  | _, [] => inferInstanceAs (Decidable True)
  | p, r :: rs =>
    have := decidableOpens (r.next p) rs
    inferInstanceAs (Decidable (_ ∧ _))

/-- A division of the bytes of messages into records. -/
structure Division (p : Option Protection) (ms : List Message) where
  records : List FlightRecord
  sized : ∀ r ∈ records, r.body.length < 2 ^ 16
  fragments : records.flatMap FlightRecord.fragment = encodeAll ms
  opens : Opens k p records

/-- The records on the wire. -/
def Division.wire {k : Crates} {p : Option Protection} {ms : List Message} (d : Division k p ms) :
    Bytes :=
  d.records.flatMap FlightRecord.wire

/-! ## What a record opens to -/

variable {k} {h : HashAlg} {c d : Tls13Client} {seen : Seen}

/-- A message in front of anything is the front message. -/
theorem frontMessage_encode {m : Message} (hm : m.body.length < 256 ^ 3) (rest : Bytes) :
    frontMessage (m.encode ++ rest) = some m := by
  obtain ⟨a, b, e, habe⟩ := List.length_eq_three.1 (length_toBE 3 m.body.length)
  have hlen : ofBE [a, b, e] = m.body.length := by
    rw [← habe, ofBE_toBE_of_lt hm]
  simp [Message.encode, habe, frontMessage, hlen]

/-- The zeros behind a content type are padding, those before it are not. -/
theorem stripInnerPadding_fragment {type : UInt8} (htype : type ≠ 0) (fragment : Bytes)
    (padding : ℕ) :
    stripInnerPadding (fragment ++ type :: List.replicate padding 0) = .ok (type, fragment) := by
  have hzeros : (List.replicate padding (0 : UInt8) ++ type :: fragment.reverse).dropWhile (· = 0) =
      type :: fragment.reverse := by
    induction padding with
    | zero => simp [htype]
    | succ n ih => simpa [List.replicate_succ] using ih
  simp [stripInnerPadding, List.reverse_append, hzeros]

theorem FlightRecord.recordLen_wire {r : FlightRecord} (hr : r.body.length < 2 ^ 16)
    (rest : Bytes) : recordLen (r.wire ++ rest) = r.body.length := by
  obtain ⟨a, b, hab⟩ := List.length_eq_two.1 (length_toBE 2 r.body.length)
  have hlen : ofBE [a, b] = r.body.length := by
    rw [← hab, ofBE_toBE_of_lt hr]
  simp [recordLen, wire, header, hab, hlen]

theorem FlightRecord.length_wire (r : FlightRecord) : r.wire.length = 5 + r.body.length := by
  simp [wire, header]
  omega

theorem FlightRecord.take_wire (r : FlightRecord) (rest : Bytes) :
    (r.wire ++ rest).take (5 + r.body.length) = r.wire :=
  List.take_left' r.length_wire

theorem FlightRecord.drop_wire (r : FlightRecord) (rest : Bytes) :
    (r.wire ++ rest).drop (5 + r.body.length) = rest :=
  List.drop_left' r.length_wire

theorem recordBody_encrypted {version : UInt8 × UInt8} {body fragment : Bytes} {padding : ℕ}
    (hbody : body.length < 2 ^ 16) (bad : Tls13Error) :
    recordBody CONTENT_APPDATA bad (FlightRecord.encrypted version body fragment padding).wire =
      .ok body := by
  obtain ⟨a, b, hab⟩ := List.length_eq_two.1 (length_toBE 2 body.length)
  have hlen : ofBE [a, b] = body.length := by
    rw [← hab, ofBE_toBE_of_lt hbody]
  have hwire : (FlightRecord.encrypted version body fragment padding).wire =
      CONTENT_APPDATA :: version.1 :: version.2 :: a :: b :: body := by
    simp [FlightRecord.wire, FlightRecord.header, FlightRecord.body, FlightRecord.contentType,
      FlightRecord.version, hab]
  rw [hwire, recordBody, if_neg (by simp), index_eq_ok (by simp), index_eq_ok (by simp)]
  simp only [List.getElem_cons_succ, List.getElem_cons_zero, bind, Except.bind, hlen]
  rw [if_neg (by simp; omega), slice_add_eq_ok (by simp; omega)]
  simp

/-- **An encrypted record of a division opens to its fragment.** -/
theorem opened_encrypted {p : Option Protection} {version : UInt8 × UInt8} {body fragment : Bytes}
    {padding : ℕ} (hbody : body.length < 2 ^ 16)
    (hopens : (FlightRecord.encrypted version body fragment padding).Opens k p) :
    opened k .badRecord p (FlightRecord.encrypted version body fragment padding).wire =
      .ok (CONTENT_HANDSHAKE, fragment) := by
  obtain ⟨p', hp, hopens⟩ := Cursor.bind_eq_ok.1 hopens
  obtain ⟨nonce, hnonce, hplain⟩ := Cursor.bind_eq_ok.1 hopens
  have haad : (slice (FlightRecord.encrypted version body fragment padding).wire 0 5 :
      Except (Stop Tls13Error) Bytes) =
      .ok (FlightRecord.encrypted version body fragment padding).header := by
    rw [slice_eq_ok (by omega) (by rw [FlightRecord.length_wire]; omega), List.drop_zero]
    exact congrArg _ (List.take_left' (by simp [FlightRecord.header]))
  simp only [opened, recordBody_encrypted hbody, haad, hp, hnonce, hplain, bind, Except.bind,
    stripInnerPadding_fragment (show CONTENT_HANDSHAKE ≠ 0 by decide)]

/-! ## Clients that differ in the read protection -/

/-- Clients alike but for the protection that records are opened with. -/
def Alike (c d : Tls13Client) : Prop := ∃ p, d = { c with hsRead := p }

/-- Alike, and the first opens with `p`. -/
def Reads (p : Option Protection) (c d : Tls13Client) : Prop := c.hsRead = p ∧ Alike c d

theorem agree_takeMessage {p : Option Protection} {buf : Bytes} {m : Message}
    (hfront : frontMessage buf = some m) (hcd : Reads p c d) :
    Agree (Reads p) c (takeMessage k buf m) d (takeMessage k m.encode m) := by
  have hbytes : buf.take (4 + m.body.length) = m.encode.take (4 + m.body.length) := by
    conv_lhs => rw [(frontMessage_eq_some hfront).1]
    rw [List.take_left' m.length_encode, List.take_of_length_le m.length_encode.le]
  obtain ⟨hread, q, rfl⟩ := hcd
  refine agree_get_bind ?_
  refine agree_bind (agree_lift ⟨hread, q, rfl⟩ _) ?_
  rintro tr c _ ⟨hread, q, rfl⟩
  rw [hbytes]
  refine agree_bind (agree_modify ⟨hread, q, rfl⟩) ?_
  intro _ c d hcd
  exact agree_pure hcd _

theorem agree_deriveAppKeys (suite : CipherSuite) (serverChain : List Bytes) (hcd : Alike c d) :
    Agree Alike c (deriveAppKeys k suite serverChain) d (deriveAppKeys k suite serverChain) := by
  obtain ⟨q, rfl⟩ := hcd
  refine agree_get_bind ?_
  refine agree_bind (agree_lift ⟨q, rfl⟩ _) ?_
  rintro tr c d hcd
  refine agree_bind (agree_lift hcd _) ?_
  rintro master c _ ⟨q, rfl⟩
  refine agree_bind (agree_modify ⟨q, rfl⟩) ?_
  rintro _ c d hcd
  refine agree_bind (agree_lift hcd _) ?_
  rintro write c _ ⟨q, rfl⟩
  refine agree_bind (agree_modify ⟨q, rfl⟩) ?_
  rintro _ c d hcd
  refine agree_bind (agree_lift hcd _) ?_
  rintro read c _ ⟨q, rfl⟩
  refine agree_bind (agree_modify ⟨q, rfl⟩) ?_
  intro _ c d hcd
  exact agree_pure hcd _

/-! ## The loop takes the messages one by one -/

theorem Message.encode_inj {m : Message} {ms : List Message} {pending rest : Bytes}
    (hm : m.body.length < 256 ^ 3) (hbytes : pending ++ rest = encodeAll (m :: ms)) {m' : Message}
    (hfront : frontMessage pending = some m') : m' = m := by
  have hfront' := frontMessage_append hfront rest
  rw [hbytes, encodeAll_cons, frontMessage_encode hm] at hfront'
  exact (Option.some.inj hfront').symm

/-- While a message is due and none is in the buffer, there is a record. -/
theorem exists_record {pending : Bytes} {ms : List Message} {records : List FlightRecord}
    (hsized : ∀ m ∈ ms, m.body.length < 256 ^ 3) (hend : EndsInFinished ms)
    (hfront : frontMessage pending = none)
    (hbytes : pending ++ records.flatMap FlightRecord.fragment = encodeAll ms) :
    ∃ r rs, records = r :: rs := by
  cases records with
  | cons r rs => exact ⟨r, rs, rfl⟩
  | nil =>
    cases ms with
    | nil => exact hend.elim
    | cons m ms =>
      rw [List.flatMap_nil, List.append_nil] at hbytes
      rw [hbytes, encodeAll_cons, frontMessage_encode (hsized m List.mem_cons_self)] at hfront
      cases hfront

/-- **The flight loop takes the messages one by one.** -/
theorem agree_flightLoop {pending rest : Bytes} {ms : List Message} {records : List FlightRecord}
    {p : Option Protection} (hseen : seen.gotFinished = false)
    (hms : ∀ m ∈ ms, m.body.length < 256 ^ 3) (hend : EndsInFinished ms)
    (hsized : ∀ r ∈ records, r.body.length < 2 ^ 16)
    (hrest : rest = records.flatMap FlightRecord.wire)
    (hbytes : pending ++ records.flatMap FlightRecord.fragment = encodeAll ms)
    (hopens : Opens k p records) (hcd : Reads p c d) :
    Agree Alike c (flightLoop k h pending rest seen) d (takeMessages k h seen ms) := by
  induction pending, rest, seen using flightLoop.induct generalizing c d p records ms with
  | case1 pending rest seen hfin => exact absurd hfin (by simp [hseen])
  | case2 pending rest seen hgoing m hfront ih =>
    cases ms with
    | nil => exact hend.elim
    | cons m' ms =>
      obtain rfl := Message.encode_inj (hms m' List.mem_cons_self) hbytes hfront
      rw [flightLoop_front hseen hfront, takeMessages]
      refine agree_bind_mono (agree_takeMessage hfront hcd) (fun _ _ hcd => hcd.2) ?_
      rintro th c _ ⟨hread, q, rfl⟩
      refine agree_get_bind (agree_lift_bind ⟨q, rfl⟩ ?_)
      intro seen₁ hm
      have hhandled := handled_of_eq_ok hm
      rw [EndsInFinished] at hend
      split_ifs at hend with htype
      · rw [hend, flightLoop_finished (hhandled.finished htype).1]
        exact agree_pure ⟨q, rfl⟩ _
      · refine ih seen₁ ((hhandled.gotFinished htype).trans hseen)
          (fun m hm => hms m (List.mem_cons_of_mem _ hm)) hend hsized hrest ?_ hopens
          ⟨hread, q, rfl⟩
        have hdrop := congrArg (List.drop (4 + m.body.length)) hbytes
        rwa [List.drop_append_of_le_length (le_length_of_frontMessage hfront), encodeAll_cons,
          List.drop_left' m.length_encode] at hdrop
  | case3 pending rest seen hgoing hfront hshort =>
    obtain ⟨r, rs, rfl⟩ := exists_record hms hend hfront hbytes
    rw [hrest, List.flatMap_cons, List.length_append, r.length_wire] at hshort
    omega
  | case4 pending rest seen hgoing hfront hheader hshort =>
    obtain ⟨r, rs, rfl⟩ := exists_record hms hend hfront hbytes
    rw [hrest, List.flatMap_cons, FlightRecord.recordLen_wire (hsized r List.mem_cons_self),
      List.length_append, r.length_wire] at hshort
    omega
  | case5 pending rest seen hgoing hfront hheader hwhole hccs ih =>
    obtain ⟨r, rs, rfl⟩ := exists_record hms hend hfront hbytes
    rw [flightLoop_record hseen hfront, if_neg hheader, if_neg hwhole, if_pos hccs]
    rw [List.flatMap_cons] at hrest
    cases r with
    | changeCipherSpec version body =>
      refine ih hseen hms hend (fun r hr => hsized r (List.mem_cons_of_mem _ hr)) ?_ hbytes
        hopens.2 hcd
      rw [hrest, FlightRecord.recordLen_wire (hsized _ List.mem_cons_self),
        FlightRecord.drop_wire]
    | encrypted version body fragment padding =>
      rw [hrest] at hccs
      have htype : some CONTENT_APPDATA = some CONTENT_CHANGE_CIPHER_SPEC := hccs
      exact absurd htype (by decide)
  | case6 pending rest seen hgoing hfront hheader hwhole hccs ih =>
    obtain ⟨r, rs, rfl⟩ := exists_record hms hend hfront hbytes
    rw [flightLoop_record hseen hfront, if_neg hheader, if_neg hwhole, if_neg hccs]
    rw [List.flatMap_cons] at hrest
    cases r with
    | changeCipherSpec version body =>
      rw [hrest] at hccs
      exact absurd rfl hccs
    | encrypted version body fragment padding =>
      have hbody : body.length < 2 ^ 16 := hsized _ List.mem_cons_self
      obtain ⟨rfl, q, rfl⟩ := hcd
      have hopen := openHsRecord_eq_ok.2 ⟨opened_encrypted hbody hopens.1, rfl⟩
      have hlen := FlightRecord.recordLen_wire (hsized _ List.mem_cons_self)
        (rs.flatMap FlightRecord.wire)
      rw [hrest, hlen] at ih ⊢
      rw [FlightRecord.take_wire, FlightRecord.drop_wire, Agree, exec_bind, hopen]
      dsimp only
      rw [if_neg (not_not.2 rfl)]
      rw [FlightRecord.drop_wire] at ih
      refine ih fragment hseen hms hend (fun r hr => hsized r (List.mem_cons_of_mem _ hr)) rfl ?_
        hopens.2 ⟨rfl, q, rfl⟩
      rw [List.append_assoc]
      exact hbytes

/-- The flight and its messages one by one come to the same, but for the read protection. -/
theorem agree_processServerFlight {ms : List Message} (hms : ∀ m ∈ ms, m.body.length < 256 ^ 3)
    (hend : EndsInFinished ms) (t : Target) (f : Division k c.hsRead ms) :
    Agree Alike c (processServerFlight k t f.wire) c (processMessages k t ms) := by
  refine agree_get_bind (agree_lift_bind ⟨c.hsRead, rfl⟩ ?_)
  intro suite _
  refine agree_bind (agree_flightLoop rfl hms hend f.sized rfl f.fragments f.opens
    ⟨rfl, c.hsRead, rfl⟩) ?_
  intro seen c d hcd
  refine agree_lift_bind hcd fun cv _ => ?_
  refine agree_lift_bind hcd fun leaf _ => ?_
  refine agree_lift_bind hcd fun _ _ => ?_
  exact agree_deriveAppKeys suite seen.serverChain hcd

/-- **A flight comes to what its messages come to**, however it is divided into records. -/
theorem processServerFlight_division (t : Target) {ms : List Message}
    (hms : ∀ m ∈ ms, m.body.length < 256 ^ 3) (hend : EndsInFinished ms)
    (f f' : Division k c.hsRead ms) :
    (exec (processServerFlight k t f.wire) c).1 = (exec (processMessages k t ms) c).1 ∧
      (exec (processServerFlight k t f'.wire) c).1 = (exec (processMessages k t ms) c).1 :=
  ⟨(agree_processServerFlight hms hend t f).1, (agree_processServerFlight hms hend t f').1⟩

/-! ## The sample flight in two divisions -/

/-- The flight in order, with its Finished. -/
def sampleMessages : List Message :=
  let ms := [sampleExtensions, sampleCertificate,
    sampleVerify [sampleExtensions, sampleCertificate]]
  ms ++ [⟨HS_FINISHED, hmacHash sampleCrates .s256
    (finishedKey sampleCrates .s256 (sampleClient.shts.getD [])) (sampleHash ms)⟩]

/-- A fragment sealed for the sample client at a sequence number. -/
def sampleRecord (seq : UInt64) (fragment : Bytes) (padding : ℕ) : FlightRecord :=
  let plain := fragment ++ CONTENT_HANDSHAKE :: List.replicate padding 0
  let body := do
    let p ← okOr Tls13Error.badRecord sampleClient.hsRead
    let nonce ← recordNonce p.iv seq
    p.cipher.seal sampleCrates nonce plain
      (CONTENT_APPDATA :: 3 :: 3 :: toBE 2 (plain.length + TAG_LEN))
  .encrypted (3, 3) (body.toOption.getD []) fragment padding

/-- All in one record. -/
def wholeDivision : Division sampleCrates sampleClient.hsRead sampleMessages where
  records := [sampleRecord 0 (encodeAll sampleMessages) 0]
  sized := by decide +kernel
  fragments := by decide +kernel
  opens := by decide +kernel

/-- An empty fragment, a break inside the first message, padding, and ChangeCipherSpecs. -/
def brokenDivision : Division sampleCrates sampleClient.hsRead sampleMessages where
  records := [.changeCipherSpec (3, 3) [1], sampleRecord 0 [] 3,
    sampleRecord 1 ((encodeAll sampleMessages).take 5) 0, .changeCipherSpec (3, 3) [],
    sampleRecord 2 ((encodeAll sampleMessages).drop 5) 1]
  sized := by decide +kernel
  fragments := by decide +kernel
  opens := by decide +kernel

theorem processServerFlight_sampleMessages :
    (exec (processMessages sampleCrates .aarch64 sampleMessages) sampleClient).1.isOk ∧
    (exec (processServerFlight sampleCrates .aarch64 wholeDivision.wire) sampleClient).1 =
      (exec (processMessages sampleCrates .aarch64 sampleMessages) sampleClient).1 ∧
    (exec (processServerFlight sampleCrates .aarch64 brokenDivision.wire) sampleClient).1 =
      (exec (processMessages sampleCrates .aarch64 sampleMessages) sampleClient).1 :=
  ⟨by decide +kernel, processServerFlight_division .aarch64 (by decide +kernel)
    (by decide +kernel) wholeDivision brokenDivision⟩

end ShadeVpn.Tls13
