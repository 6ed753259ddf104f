import ShadeVpn.Pump.Outbound

/-!
# The inbound half of the pump

`TunnelPump::start` of `native/src/pump.rs`, the thread that reads frames from
the socket, opens them, takes the VLESS stream off and writes the packets to the
TUN.  It is run against the honest server, whose records arrive in order between
empty frames and frames that fail authentication (`Lane`).

The loop advances `seq_in` before it opens a record and takes the step back on
any error.  That is right for a frame that does not open and wrong for a record
that opened and that `VlessIn` then refused: the server is one record ahead from
there on.

* `opened_iff_tame` — every record that arrives is opened, once and in order,
  exactly when none arrives after one that `VlessIn` refused.
-/

namespace ShadeVpn.Pump

open Octets Checked Transduce Handshake Transport Vless

/-! ## State and events -/

/-- The inbound half: its sequence number, its VLESS stream, the counters, the
packets it wrote to the TUN, and how its loop ended if it did. -/
structure Inbound where
  seqIn : UInt64
  vlessIn : Option VlessIn
  stats : PumpStats
  delivered : List Bytes
  exit : Option Exit
  deriving DecidableEq

/-- What one turn of the inbound loop meets, frames being of symbols `σ`.  A frame comes
with the outcome of the TUN write it may lead to. -/
inductive SocketReadOf (σ : Type) where
  | stopped
  | frame (symbols : List σ) (tunOk : Bool)
  | eof
  | failed
  deriving DecidableEq

abbrev SocketRead := SocketReadOf UInt8

/-- The inbound half as `start` spawns it. -/
def Inbound.start (config : PumpConfig) (stats : PumpStats) (nextInSeq : UInt64) : Inbound where
  seqIn := nextInSeq
  vlessIn := config.vless.map fun p => .new p.uuid
  stats := stats
  delivered := []
  exit := none

/-- The packet in a plaintext, and the stream behind it. -/
def unwrap (vlessIn : Option VlessIn) (plaintext : Bytes) :
    Except (Stop VlessError) Bytes × Option VlessIn :=
  match vlessIn with
  | some v =>
    let (packet, v) := v.unwrap plaintext
    (packet, some v)
  | none => (.ok plaintext, none)

section Loop

-- the loop looks at the symbols of a frame only to open it
variable {σ : Type} (opens : UInt64 → List σ → Except HandshakeError Bytes)

/-- The body of the inbound loop on a frame, with the plaintext it opens. -/
def Inbound.frameOf (s : Inbound) (frame : List σ) (tunOk : Bool) : Inbound × Option Bytes :=
  if frame = [] then (s, none)
  else
    let seq := s.seqIn
    let s := { s with seqIn := s.seqIn + 1 }
    match opens seq frame with
    | .error _ =>
      ({ s with
          seqIn := s.seqIn - 1
          stats := { s.stats with openErrors := s.stats.openErrors + 1 } }, none)
    | .ok plaintext =>
      match unwrap s.vlessIn plaintext with
      | (.ok packet, vlessIn) =>
        if tunOk then
          ({ s with
              vlessIn
              delivered := s.delivered ++ [packet]
              stats := { s.stats with
                deliveredPackets := s.stats.deliveredPackets + 1
                deliveredBytes := s.stats.deliveredBytes + UInt64.ofNat packet.length } },
            some plaintext)
        else
          ({ s with vlessIn, seqIn := s.seqIn - 1, exit := some .tunFailed }, some plaintext)
      | (.error (.err _), vlessIn) =>
        ({ s with
            vlessIn
            seqIn := s.seqIn - 1
            stats := { s.stats with openErrors := s.stats.openErrors + 1 } }, some plaintext)
      | (.error _, vlessIn) => ({ s with vlessIn, exit := some .panicked }, some plaintext)

/-- One turn of the inbound loop; a loop that was left stays left. -/
def Inbound.turnOf (s : Inbound) (e : SocketReadOf σ) : Inbound × Option Bytes :=
  if s.exit.isSome then (s, none)
  else
    match e with
    | .stopped => ({ s with exit := some .stop }, none)
    | .frame symbols tunOk => s.frameOf opens symbols tunOk
    | .eof => ({ s with exit := some .eof }, none)
    | .failed => ({ s with exit := some .socketFailed }, none)

end Loop

variable {κ : Type} (C : Crypto κ UInt8) (st : HandshakeState κ UInt8)

def Inbound.frame (s : Inbound) (frame : Bytes) (tunOk : Bool) : Inbound × Option Bytes :=
  s.frameOf (st.openRecord C) frame tunOk

def Inbound.turn (s : Inbound) (e : SocketRead) : Inbound × Option Bytes :=
  s.turnOf (st.openRecord C) e

variable {C st} in
/-- A turn of a loop that is still going, on a frame. -/
theorem Inbound.turn_frame {s : Inbound} (hexit : s.exit = none) (frame : Bytes) (tunOk : Bool) :
    s.turn C st (.frame frame tunOk) = s.frame C st frame tunOk := by
  rw [turn, turnOf, if_neg (by simp [hexit])]
  rfl

/-! ## The lane from the server -/

/-- The inbound half and the server that sends to it: the sequence number the
server seals at next, the plaintexts of the records that reached the loop, and
the plaintexts the loop has opened. -/
structure Lane where
  inbound : Inbound
  nextSeal : UInt64
  arrived : List Bytes
  opened : List Bytes
  deriving DecidableEq

/-- What reaches the loop: a record of the server, an empty frame, a frame that
was put in on the way, or something that ends the loop. -/
inductive Arrival where
  | record (plaintext : Bytes) (tunOk : Bool)
  | empty
  | injected (frame : Bytes)
  | stopped
  | eof
  | failed
  deriving DecidableEq

variable (session : ServerSession UInt8)

/-- The turn of the loop an arrival leads to. -/
def Lane.read (l : Lane) (e : SocketRead) : Lane :=
  let (inbound, plaintext) := l.inbound.turn C st e
  { l with inbound, opened := l.opened ++ plaintext.toList }

/-- One arrival.  A loop that was left reads nothing more. -/
def Lane.step (l : Lane) (a : Arrival) : Lane :=
  if l.inbound.exit.isSome then l
  else
    match a with
    | .record plaintext tunOk =>
      match session.sealRecord C l.nextSeal plaintext with
      | none => l
      | some frame =>
        Lane.read C st { l with nextSeal := l.nextSeal + 1, arrived := l.arrived ++ [plaintext] }
          (.frame frame tunOk)
    | .empty => l.read C st (.frame [] true)
    | .injected frame => l.read C st (.frame frame true)
    | .stopped => l.read C st .stopped
    | .eof => l.read C st .eof
    | .failed => l.read C st .failed

/-- The lane when the pump starts where the server stands. -/
def Lane.start (config : PumpConfig) (stats : PumpStats) (nextInSeq : UInt64) : Lane where
  inbound := .start config stats nextInSeq
  nextSeal := nextInSeq
  arrived := []
  opened := []

/-- An injected frame fails authentication where it arrives. -/
def Lane.Rejects (l : Lane) (a : Arrival) : Prop :=
  ∀ frame, a = .injected frame → ∃ e, st.openRecord C l.inbound.seqIn frame = .error e

/-- Does the loop read on after this arrival? -/
def Arrival.ends : Arrival → Bool
  | .stopped => true
  | .eof => true
  | .failed => true
  | _ => false

/-- No record arrives before the loop ends. -/
def Silent (as : List Arrival) : Prop :=
  ∀ a ∈ as.takeWhile fun a => !a.ends, ∀ plaintext tunOk, a ≠ .record plaintext tunOk

/-- `VlessIn` takes every record the loop reads, but perhaps the last. -/
def Tame : Option VlessIn → List Arrival → Prop
  | _, [] => True
  | v, .record plaintext tunOk :: as =>
    match unwrap v plaintext with
    | (.ok _, v) => tunOk = true → Tame v as
    | (.error _, _) => Silent as
  | v, .empty :: as => Tame v as
  | v, .injected _ :: as => Tame v as
  | _, _ => True

/-- Every record fits a frame. -/
def Sendable (as : List Arrival) : Prop :=
  ∀ plaintext tunOk, .record plaintext tunOk ∈ as →
    plaintext.length + Crypto.AES_TAG ≤ MAX_FRAME_LEN

/-! ## Records and sequence numbers -/

variable {C st session}

/-- What the server seals, the client opens at the same sequence number. -/
theorem PeeredWith.open_sealed (hC : C.Lawful) (hpeer : PeeredWith st session) {seq : UInt64}
    {pt ct : Bytes} (h : session.sealRecord C seq pt = some ct) :
    st.openRecord C seq ct = .ok pt := by
  rw [HandshakeState.openRecord, hpeer.keys, hpeer.sessionId]
  dsimp only
  rw [hC.decrypt_encrypt h]

/-- The nonces of the server's records differ. -/
def NoncesDistinct (C : Crypto κ UInt8) (session : ServerSession UInt8) : Prop :=
  Function.Injective fun seq => deriveNonce C session.sessionId seq .server NONCE_PURPOSE_DATA

/-- It does not open at another sequence number. -/
theorem PeeredWith.open_other (hC : C.Ideal) (hnonce : NoncesDistinct C session)
    (hpeer : PeeredWith st session) {seq seq' : UInt64} (hne : seq' ≠ seq) {pt ct : Bytes}
    (h : session.sealRecord C seq pt = some ct) :
    st.openRecord C seq' ct = .error .sessionAuthRejected := by
  rw [HandshakeState.openRecord, hpeer.keys, hpeer.sessionId]
  dsimp only
  split
  · rfl
  · next pt' hopen =>
    have hseal := hC.encrypt_of_decrypt hopen
    exact absurd (hnonce (hC.nonce_unique hseal h)) hne

/-- The server can seal a record that fits a frame, and the frame is not empty. -/
theorem seal_ok (hC : C.Lawful) (session : ServerSession UInt8) (seq : UInt64) {pt : Bytes}
    (hpt : pt.length + Crypto.AES_TAG ≤ MAX_FRAME_LEN) :
    ∃ ct, session.sealRecord C seq pt = some ct ∧ ct ≠ [] := by
  have hmax : MAX_FRAME_LEN ≤ Crypto.AES_MAX := by decide
  obtain ⟨ct, hct⟩ := hC.encrypt_ok session.sendKey
    (deriveNonce C session.sessionId seq .server NONCE_PURPOSE_DATA) [] pt (by simp) (by omega)
  refine ⟨ct, hct, ?_⟩
  have hlen := hC.encrypt_length hct
  rw [Crypto.AES_TAG] at hlen
  rintro rfl
  simp at hlen

/-! ## One turn -/

/-- An open fails: only the error is counted. -/
theorem frame_fails {s : Inbound} {frame : Bytes} {e : HandshakeError}
    (h : st.openRecord C s.seqIn frame = .error e) (tunOk : Bool) :
    ∃ stats, s.frame C st frame tunOk = ({ s with stats }, none) := by
  by_cases hempty : frame = []
  · exact ⟨s.stats, by rw [Inbound.frame, Inbound.frameOf, if_pos hempty]⟩
  · refine ⟨{ s.stats with openErrors := s.stats.openErrors + 1 }, ?_⟩
    rw [Inbound.frame, Inbound.frameOf, if_neg hempty]
    simp [h]

/-- The VLESS stream of a pump that runs: it never faults. -/
def Drains (v : Option VlessIn) : Prop := ∀ w ∈ v, w.reader.Draining

theorem Drains.unwrap {v : Option VlessIn} (h : Drains v) (plaintext : Bytes) :
    Drains (unwrap v plaintext).2 ∧
      ∀ e, (unwrap v plaintext).1 = .error e → ∃ w, e = .err w := by
  cases v with
  | none => exact ⟨h, by simp [Pump.unwrap]⟩
  | some v =>
    have hsound := VlessIn.unwrap_sound (h v rfl) plaintext
    refine ⟨?_, hsound.2⟩
    rintro w ⟨⟩
    exact hsound.1

/-- A record opens and its packet is delivered. -/
theorem frame_accepted {s : Inbound} {frame plaintext packet : Bytes} {v : Option VlessIn}
    (hne : frame ≠ []) (h : st.openRecord C s.seqIn frame = .ok plaintext)
    (hv : unwrap s.vlessIn plaintext = (.ok packet, v)) :
    ∃ s', s.frame C st frame true = (s', some plaintext) ∧ s'.seqIn = s.seqIn + 1 ∧
      s'.vlessIn = v ∧ s'.exit = s.exit := by
  rw [Inbound.frame, Inbound.frameOf, if_neg hne]
  simp only [h, hv, if_true]
  exact ⟨_, rfl, rfl, rfl, rfl⟩

/-- A record opens and its packet finds the TUN gone. -/
theorem frame_tunGone {s : Inbound} {frame plaintext packet : Bytes} {v : Option VlessIn}
    (hne : frame ≠ []) (h : st.openRecord C s.seqIn frame = .ok plaintext)
    (hv : unwrap s.vlessIn plaintext = (.ok packet, v)) :
    ∃ s', s.frame C st frame false = (s', some plaintext) ∧ s'.exit.isSome = true := by
  rw [Inbound.frame, Inbound.frameOf, if_neg hne]
  simp only [h, hv]
  exact ⟨_, rfl, rfl⟩

/-- A record opens and `VlessIn` refuses it: the sequence number steps back. -/
theorem frame_refused {s : Inbound} {frame plaintext : Bytes} {e : VlessError} {v : Option VlessIn}
    (hne : frame ≠ []) (h : st.openRecord C s.seqIn frame = .ok plaintext)
    (hv : unwrap s.vlessIn plaintext = (.error (.err e), v)) (tunOk : Bool) :
    ∃ s', s.frame C st frame tunOk = (s', some plaintext) ∧ s'.seqIn = s.seqIn ∧
      s'.vlessIn = v ∧ s'.exit = s.exit := by
  rw [Inbound.frame, Inbound.frameOf, if_neg hne]
  simp only [h, hv]
  exact ⟨_, rfl, by simp, rfl, rfl⟩

/-! ## One arrival -/

/-- A loop that was left reads nothing more. -/
theorem lane_exited {l : Lane} (h : l.inbound.exit.isSome = true) (as : List Arrival) :
    Machine.run (Lane.step C st session) l as = l := by
  induction as with
  | nil => rfl
  | cons a as ih =>
    have hstep : l.step C st session a = l := by rw [Lane.step.eq_def, if_pos h]
    rw [Machine.run_cons, hstep, ih]

/-- A turn of a loop that is still going, on a frame. -/
theorem read_frame {l : Lane} (hexit : l.inbound.exit = none) {bytes : Bytes} {tunOk : Bool}
    {s' : Inbound} {plaintext : Option Bytes}
    (h : l.inbound.frame C st bytes tunOk = (s', plaintext)) :
    l.read C st (.frame bytes tunOk)
      = { l with inbound := s', opened := l.opened ++ plaintext.toList } := by
  rw [Lane.read, Inbound.turn_frame hexit, h]

variable (C st session) in
/-- What ends the loop ends it and does nothing else. -/
theorem step_ends {l : Lane} (hexit : l.inbound.exit = none) {a : Arrival} (h : a.ends = true) :
    (l.step C st session a).inbound.exit.isSome = true ∧
      (l.step C st session a).opened = l.opened ∧ (l.step C st session a).arrived = l.arrived := by
  cases a with
  | record | empty | injected => cases h
  | _ => simp [Lane.step, hexit, Lane.read, Inbound.turn, Inbound.turnOf]

/-- An empty frame is skipped. -/
theorem step_empty {l : Lane} (hexit : l.inbound.exit = none) :
    l.step C st session .empty = l := by
  have hframe : l.inbound.frame C st [] true = (l.inbound, none) := by
    rw [Inbound.frame, Inbound.frameOf, if_pos rfl]
  simp [Lane.step, hexit, read_frame hexit hframe]

variable (session) in
/-- A frame that fails authentication changes the counters only. -/
theorem step_injected {l : Lane} (hexit : l.inbound.exit = none) {frame : Bytes}
    (h : l.Rejects C st (.injected frame)) :
    ∃ stats, l.step C st session (.injected frame)
      = { l with inbound := { l.inbound with stats } } := by
  obtain ⟨e, he⟩ := h frame rfl
  obtain ⟨stats, hframe⟩ := frame_fails he true
  refine ⟨stats, ?_⟩
  simp [Lane.step, hexit, read_frame hexit hframe]

/-- A record of the server, as the frame that arrives. -/
theorem step_record (hC : C.Lawful) {l : Lane} (hexit : l.inbound.exit = none) {pt : Bytes}
    (hpt : pt.length + Crypto.AES_TAG ≤ MAX_FRAME_LEN) (tunOk : Bool) :
    ∃ frame, session.sealRecord C l.nextSeal pt = some frame ∧ frame ≠ [] ∧
      ∀ s' opened, l.inbound.frame C st frame tunOk = (s', opened) →
        l.step C st session (.record pt tunOk)
          = ⟨s', l.nextSeal + 1, l.arrived ++ [pt], l.opened ++ opened.toList⟩ := by
  obtain ⟨frame, hseal, hne⟩ := seal_ok hC session l.nextSeal hpt
  refine ⟨frame, hseal, hne, fun s' opened h => ?_⟩
  simp only [Lane.step, hexit, hseal]
  exact read_frame (l := { l with
    nextSeal := l.nextSeal + 1, arrived := l.arrived ++ [pt] }) hexit h

/-! ## Whole runs -/

/-- Fewer records were opened than arrived. -/
def Lane.Lost (l : Lane) : Prop := l.opened.length < l.arrived.length

/-- No arrival makes up for a record that was lost. -/
theorem Lost.step {l : Lane} (h : l.Lost) {a : Arrival} (hreject : l.Rejects C st a) :
    (l.step C st session a).Lost := by
  by_cases hexit : l.inbound.exit = none
  · rcases hends : a.ends with _ | _
    · cases a with
      | record pt tunOk =>
        rcases hseal : session.sealRecord C l.nextSeal pt with _ | frame
        · simpa [Lane.step, hexit, hseal] using h
        · rcases hframe : l.inbound.frame C st frame tunOk with ⟨s', opened⟩
          have hread := read_frame (l := { l with
            nextSeal := l.nextSeal + 1, arrived := l.arrived ++ [pt] }) hexit hframe
          have hle : opened.toList.length ≤ 1 := by cases opened <;> simp
          simp only [Lane.step, hexit, hseal, Option.isSome_none, Bool.false_eq_true, if_false,
            hread]
          simp only [Lane.Lost, List.length_append, List.length_singleton] at h ⊢
          omega
      | empty => rwa [step_empty hexit]
      | injected frame =>
        obtain ⟨stats, hstep⟩ := step_injected session hexit hreject
        rw [hstep]
        exact h
      | _ => cases hends
    · obtain ⟨-, hopened, harrived⟩ := step_ends C st session hexit hends
      rwa [Lane.Lost, hopened, harrived]
  · rw [Lane.step.eq_def, if_pos (Option.isSome_iff_ne_none.2 hexit)]
    exact h

theorem Lost.run {l : Lane} (h : l.Lost) {as : List Arrival}
    (hreject : Machine.Along (Lane.step C st session) (Lane.Rejects C st) l as) :
    (Machine.run (Lane.step C st session) l as).Lost :=
  Machine.run_inv_along (I := Lane.Lost) (fun _ _ hl hr => Lost.step hl hr) as h hreject

theorem Sendable.tail {a : Arrival} {as : List Arrival} (h : Sendable (a :: as)) : Sendable as :=
  fun pt tunOk hmem => h pt tunOk (List.mem_cons_of_mem a hmem)

/-- A loop that was left has opened what arrived if it had before. -/
theorem exited_opened {l : Lane} (hexit : l.inbound.exit.isSome = true)
    (hopened : l.opened = l.arrived) (as : List Arrival) :
    (Machine.run (Lane.step C st session) l as).opened
      = (Machine.run (Lane.step C st session) l as).arrived := by
  rw [lane_exited hexit, hopened]

section Lockstep

variable (hC : C.Lawful) (hI : C.Ideal) (hnonce : NoncesDistinct C session)
  (hpeer : PeeredWith st session)

include hC hI hnonce hpeer

/-- **After a refused record** the loop is one sequence number behind, and the
next record does not open. -/
theorem opened_iff_silent {as : List Arrival} {l : Lane} (hexit : l.inbound.exit = none)
    (hseq : l.inbound.seqIn + 1 = l.nextSeal) (hopened : l.opened = l.arrived)
    (hsend : Sendable as)
    (hreject : Machine.Along (Lane.step C st session) (Lane.Rejects C st) l as) :
    (Machine.run (Lane.step C st session) l as).opened
      = (Machine.run (Lane.step C st session) l as).arrived ↔ Silent as := by
  induction as generalizing l with
  | nil => exact ⟨fun _ => by simp [Silent], fun _ => hopened⟩
  | cons a as ih =>
    rcases hends : a.ends with _ | _
    · have hsilent : Silent (a :: as) ↔ (∀ pt tunOk, a ≠ .record pt tunOk) ∧ Silent as := by
        simp [Silent, hends]
      rw [Machine.run_cons, hsilent]
      cases a with
      | record pt tunOk =>
        obtain ⟨frame, hseal, -, hstep⟩ :=
          step_record hC hexit (hsend pt tunOk List.mem_cons_self) tunOk
        have hne : l.inbound.seqIn ≠ l.nextSeal := by rw [← hseq]; simp
        obtain ⟨stats, hframe⟩ := frame_fails (hpeer.open_other hI hnonce hne hseal) tunOk
        have hlost : (l.step C st session (.record pt tunOk)).Lost := by
          rw [hstep _ _ hframe]
          simp [Lane.Lost, hopened]
        have hrun := Lost.run hlost hreject.2
        refine ⟨fun h => absurd hrun ?_, fun h => absurd rfl (h.1 pt tunOk)⟩
        rw [Lane.Lost, h]
        exact lt_irrefl _
      | empty =>
        have htail := hreject.2
        rw [step_empty hexit] at htail ⊢
        simpa using ih hexit hseq hopened hsend.tail htail
      | injected frame =>
        obtain ⟨stats, hstep⟩ := step_injected session hexit hreject.1
        have htail := hreject.2
        rw [hstep] at htail ⊢
        simpa using ih (l := { l with inbound := { l.inbound with stats } }) hexit hseq hopened
          hsend.tail htail
      | _ => cases hends
    · obtain ⟨hleft, ho, ha⟩ := step_ends C st session hexit hends
      refine ⟨fun _ => by simp [Silent, hends], fun _ => ?_⟩
      exact exited_opened hleft (by rw [ho, ha, hopened]) as

/-- **Lock-step.**  A loop that stands where the server stands opens every record
that arrives exactly when none arrives after one `VlessIn` refused. -/
theorem opened_iff_tame {as : List Arrival} {l : Lane} (hexit : l.inbound.exit = none)
    (hseq : l.inbound.seqIn = l.nextSeal) (hopened : l.opened = l.arrived)
    (hdrains : Drains l.inbound.vlessIn) (hsend : Sendable as)
    (hreject : Machine.Along (Lane.step C st session) (Lane.Rejects C st) l as) :
    (Machine.run (Lane.step C st session) l as).opened
      = (Machine.run (Lane.step C st session) l as).arrived ↔ Tame l.inbound.vlessIn as := by
  induction as generalizing l with
  | nil => exact ⟨fun _ => trivial, fun _ => hopened⟩
  | cons a as ih =>
    rcases hends : a.ends with _ | _
    · rw [Machine.run_cons]
      have htail := hreject.2
      cases a with
      | record pt tunOk =>
        obtain ⟨frame, hseal, hne, hstep⟩ :=
          step_record hC hexit (hsend pt tunOk List.mem_cons_self) tunOk
        have hopen : st.openRecord C l.inbound.seqIn frame = .ok pt := by
          rw [hseq]
          exact hpeer.open_sealed hC hseal
        obtain ⟨hdrains', herr⟩ := hdrains.unwrap pt
        rw [Tame]
        rcases hv : unwrap l.inbound.vlessIn pt with ⟨e | packet, v⟩
        · -- refused: the record was opened, the sequence number is one behind
          obtain ⟨w, rfl⟩ := herr e (by rw [hv])
          obtain ⟨s', hframe, hseq', -, hexit'⟩ := frame_refused hne hopen hv tunOk
          rw [hstep _ _ hframe] at htail ⊢
          exact opened_iff_silent hC hI hnonce hpeer (hexit'.trans hexit)
            (by rw [hseq', hseq]) (by simp [hopened]) hsend.tail htail
        · cases tunOk with
          | true =>
            obtain ⟨s', hframe, hseq', rfl, hexit'⟩ := frame_accepted hne hopen hv
            rw [hv] at hdrains'
            rw [hstep _ _ hframe] at htail ⊢
            simpa using ih (hexit'.trans hexit) (by rw [hseq', hseq]) (by simp [hopened])
              hdrains' hsend.tail htail
          | false =>
            obtain ⟨s', hframe, hleft⟩ := frame_tunGone hne hopen hv
            refine ⟨fun _ => by simp, fun _ => ?_⟩
            rw [hstep _ _ hframe]
            exact exited_opened hleft (by simp [hopened]) as
      | empty =>
        rw [step_empty hexit] at htail ⊢
        exact ih hexit hseq hopened hdrains hsend.tail htail
      | injected frame =>
        obtain ⟨stats, hstep⟩ := step_injected session hexit hreject.1
        rw [hstep] at htail ⊢
        exact ih (l := { l with inbound := { l.inbound with stats } }) hexit hseq hopened
          hdrains hsend.tail htail
      | _ => cases hends
    · obtain ⟨hleft, ho, ha⟩ := step_ends C st session hexit hends
      refine ⟨fun _ => ?_, fun _ => exited_opened hleft (by rw [ho, ha, hopened]) as⟩
      cases a with
      | record | empty | injected => cases hends
      | _ => simp [Tame]

end Lockstep

/-! ## The inbound pump -/

/-- Without VLESS nothing is refused. -/
theorem tame_none (as : List Arrival) : Tame none as := by
  induction as with
  | nil => trivial
  | cons a as ih =>
    cases a with
    | record => exact fun _ => ih
    | empty => exact ih
    | injected => exact ih
    | _ => trivial

/-- **When the inbound pump keeps in lock-step.**  The server's records arrive in
order, between empty frames and frames that fail authentication.  Every record
that arrives is opened, once and in order, if and only if no record arrives
after one that `VlessIn` refused. -/
theorem inbound_lockstep_iff (hC : C.Lawful) (hI : C.Ideal) (hnonce : NoncesDistinct C session)
    (hpeer : PeeredWith st session) (config : PumpConfig) (stats : PumpStats) (nextInSeq : UInt64)
    {as : List Arrival} (hsend : Sendable as)
    (hreject : Machine.Along (Lane.step C st session) (Lane.Rejects C st)
      (.start config stats nextInSeq) as) :
    (Machine.run (Lane.step C st session) (.start config stats nextInSeq) as).opened
        = (Machine.run (Lane.step C st session) (.start config stats nextInSeq) as).arrived ↔
      Tame (config.vless.map fun p => .new p.uuid) as := by
  refine opened_iff_tame hC hI hnonce hpeer rfl rfl rfl ?_ hsend hreject
  intro v hv
  obtain ⟨p, -, rfl⟩ := Option.map_eq_some_iff.1 hv
  exact VisionReader.draining_new p.uuid

/-- The nonces of the toy primitives carry the sequence number. -/
theorem toy_noncesDistinct (session : ServerSession UInt8) : NoncesDistinct Crypto.toy session := by
  have hlast : ∀ (front : Bytes) (seq : UInt64), 24 ≤ front.length →
      (copyFrom 12 (Crypto.toy.sha256 (front ++ toBE 8 seq.toNat)).toList).toList.take 8
        = (toBE 8 seq.toNat).reverse := by
    intro front seq hfront
    have hlen : 32 ≤ (front ++ toBE 8 seq.toNat).reverse.length := by
      simp only [List.length_reverse, List.length_append, length_toBE]
      omega
    rw [toList_copyFrom (by simp)]
    show ((copyFrom 32 (front ++ toBE 8 seq.toNat).reverse).toList.take 12).take 8 = _
    rw [toList_copyFrom hlen, List.reverse_append, List.take_take, List.take_take]
    exact List.take_left' (by simp)
  intro a b h
  have hseq := congrArg (fun v : List.Vector UInt8 12 => v.toList.take 8) h
  simp only [deriveNonce, lits_uint8] at hseq
  rw [hlast _ a (by simp; omega), hlast _ b (by simp; omega)] at hseq
  have hnat : a.toNat = b.toNat :=
    toBE_injOn (k := 8) (by have := a.toNat_lt; omega) (by have := b.toNat_lt; omega)
      (List.reverse_injective hseq)
  exact UInt64.toNat_inj.1 hnat

theorem inbound_lockstep_iff_toy :
    (Machine.run (Lane.step Crypto.toy sampleState sampleSession)
        (.start ⟨true, some sampleVless⟩ .zero 3)
        [.record [0, 10, 1, 0, 69] true, .empty, .injected [1, 2, 3], .record [69, 0] true]).opened
      = (Machine.run (Lane.step Crypto.toy sampleState sampleSession)
        (.start ⟨true, some sampleVless⟩ .zero 3)
        [.record [0, 10, 1, 0, 69] true, .empty, .injected [1, 2, 3],
          .record [69, 0] true]).arrived := by
  refine (inbound_lockstep_iff Crypto.toy_lawful Crypto.toy_ideal (toy_noncesDistinct _)
    sampleState_peered ⟨true, some sampleVless⟩ .zero 3 ?_ ?_).2 ?_
  · rintro pt tunOk hmem
    simp only [List.mem_cons, Arrival.record.injEq, reduceCtorEq, List.not_mem_nil, or_false,
      false_or] at hmem
    rcases hmem with ⟨rfl, -⟩ | ⟨rfl, -⟩ <;> decide
  · refine ⟨fun _ h => by simp at h, fun _ h => by simp at h, ?_, fun _ h => by simp at h, trivial⟩
    rintro frame ⟨⟩
    exact ⟨.sessionAuthRejected, by decide +kernel⟩
  · exact fun _ _ => trivial

/-- A record that `VlessIn` refuses costs the record behind it. -/
theorem not_lockstep_refused :
    ∃ as, Sendable as ∧
      Machine.Along (Lane.step Crypto.toy sampleState sampleSession)
        (Lane.Rejects Crypto.toy sampleState) (.start ⟨true, some sampleVless⟩ .zero 3) as ∧
      (Machine.run (Lane.step Crypto.toy sampleState sampleSession)
          (.start ⟨true, some sampleVless⟩ .zero 3) as).opened
        ≠ (Machine.run (Lane.step Crypto.toy sampleState sampleSession)
          (.start ⟨true, some sampleVless⟩ .zero 3) as).arrived := by
  refine ⟨[.record (List.replicate 21 255) true, .record [69, 0] true], ?_, ?_, ?_⟩
  · rintro pt tunOk hmem
    simp only [List.mem_cons, Arrival.record.injEq, List.not_mem_nil, or_false] at hmem
    rcases hmem with ⟨rfl, -⟩ | ⟨rfl, -⟩ <;> decide
  · exact ⟨fun _ h => by simp at h, fun _ h => by simp at h, trivial⟩
  · decide +kernel

end ShadeVpn.Pump
