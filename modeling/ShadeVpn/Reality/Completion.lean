import ShadeVpn.Lib.Machine
import ShadeVpn.Reality.HonestRun

/-!
# Completion, again and at once

`HandshakeState::complete` called many times on one state.

In sequence: a rejection gives `completed` back, but the keys of a response whose
certificate and share are good and whose confirmation is not have been fixed by
then, and they stay.

* `rejected_no_trace_iff` — when a rejected response leaves no trace.

At once: `complete` is cut into the steps that other threads can see
(`CallStage.advance`), and any number of calls take steps in any order.  The flag
is a lock that only its owner releases.

* `complete_single_use` — at most one call returns `Ok`, for good.
-/

namespace ShadeVpn.Handshake

open Octets Checked Tls Reality

variable {κ σ : Type} [Alphabet σ] [DecidableEq σ] (C : Crypto κ σ)

/-! ## Responses in sequence -/

/-- The state after a response, accepted or not. -/
def HandshakeState.attempt (st : HandshakeState κ σ) (r : List σ) : HandshakeState κ σ :=
  (st.complete C r).2

/-- The state after some responses. -/
def HandshakeState.attempts (st : HandshakeState κ σ) (rs : List (List σ)) : HandshakeState κ σ :=
  Machine.run (HandshakeState.attempt C) st rs

/-- Every response of a sequence is rejected in its turn. -/
def Rejected (st : HandshakeState κ σ) (rs : List (List σ)) : Prop :=
  Machine.Along (HandshakeState.attempt C) (fun st r => ∃ e, (st.complete C r).1 = .error e) st rs

/-- A good certificate and a good share, and a confirmation that does not open. -/
structure BadConfirmation (st : HandshakeState κ σ) (r : List σ) : Prop where
  length : SERVER_RESPONSE_MIN ≤ r.length
  certificate : verifyTemporaryCertificate C st.authKey (r.take CERT_LEN) = .ok ()
  secret : responseSecret C st.ephemeral r ≠ Crypto.zeros 32
  confirmation : C.aesDecrypt
    (recordKeys C st.sealedSessionId (responseSecret C st.ephemeral r)).recv
    (deriveNonce C st.sealedSessionId 0 .server NONCE_PURPOSE_RESPONSE) []
    (r.drop (CERT_LEN + SERVER_SHARE_LEN)) = none

/-- Neither completed nor keyed. -/
structure HandshakeState.Fresh (st : HandshakeState κ σ) : Prop where
  completed : st.completed = false
  recordKeys : st.recordKeys = none

/-- The keys a response leads to. -/
def HandshakeState.keysOf (st : HandshakeState κ σ) (r : List σ) : RecordKeys σ :=
  Handshake.recordKeys C st.sealedSessionId (responseSecret C st.ephemeral r)

variable {C}

/-- What a completed state answers. -/
theorem complete_of_completed {st : HandshakeState κ σ} (h : st.completed = true) (r : List σ) :
    st.complete C r = (.error .sessionAuthRejected, st) := by
  rw [HandshakeState.complete, if_pos h]

/-- A bad confirmation leaves its keys behind. -/
theorem complete_of_badConfirmation {st : HandshakeState κ σ} (hfresh : st.Fresh) {r : List σ}
    (h : BadConfirmation C st r) : st.complete C r
      = (.error .sessionAuthRejected, { st with recordKeys := some (st.keysOf C r) }) := by
  have hlen : ¬ r.length < SERVER_RESPONSE_MIN := not_lt.2 h.length
  have hconf := h.confirmation
  rw [HandshakeState.complete, hfresh.completed, if_neg Bool.false_ne_true]
  dsimp only
  rw [if_neg hlen, h.certificate]
  dsimp only
  rw [if_neg h.secret, hfresh.recordKeys, if_neg (by simp), hconf]
  rw [← hfresh.completed]
  rfl

/-- **A rejection leaves no trace** on the flag and the keys unless it is for the
confirmation of a response that fixed the keys. -/
theorem complete_rejected {st st' : HandshakeState κ σ} {r : List σ} {e : HandshakeError}
    (h : st.complete C r = (.error e, st')) (hbad : ¬ (st.Fresh ∧ BadConfirmation C st r)) :
    st' = st := by
  by_cases hdone : st.completed = true
  · rw [complete_of_completed hdone] at h
    cases h
    rfl
  · have hfalse : st.completed = false := by simpa using hdone
    have hback : ({ st with completed := false } : HandshakeState κ σ) = st := by
      rw [← hfalse]
    rw [HandshakeState.complete, if_neg hdone] at h
    dsimp only at h
    rcases hcert : verifyTemporaryCertificate C st.authKey (r.take CERT_LEN) with e' | ⟨⟩
    · rw [hcert] at h
      split_ifs at h <;> cases h <;> exact hback
    · rw [hcert] at h
      dsimp only at h
      split_ifs at h with hlen hsecret hkeys
      · cases h
        exact hback
      · cases h
        exact hback
      · cases h
        exact hback
      · split at h
        · next hconf =>
          have hfresh : st.Fresh := ⟨hfalse, by simpa using hkeys⟩
          exact absurd ⟨hfresh, not_lt.1 hlen, hcert, hsecret, hconf⟩ hbad
        · cases h

theorem complete_rejected_iff {st : HandshakeState κ σ} {r : List σ} :
    (∀ e st', st.complete C r = (.error e, st') →
        st'.completed = st.completed ∧ st'.recordKeys = st.recordKeys) ↔
      ¬ (st.Fresh ∧ BadConfirmation C st r) := by
  constructor
  · rintro h ⟨hfresh, hbad⟩
    have hkeys := (h _ _ (complete_of_badConfirmation hfresh hbad)).2
    rw [hfresh.recordKeys] at hkeys
    cases hkeys
  · intro hbad e st' h
    rw [complete_rejected h hbad]
    exact ⟨rfl, rfl⟩

/-- Keys that are there stay there. -/
theorem complete_keeps_keys {st : HandshakeState κ σ} {keys : RecordKeys σ}
    (h : st.recordKeys = some keys) (r : List σ) : (st.attempt C r).recordKeys = some keys := by
  unfold HandshakeState.attempt
  rcases hres : st.complete C r with ⟨e | ⟨⟩, st'⟩
  · have hbad : ¬ (st.Fresh ∧ BadConfirmation C st r) := by
      rintro ⟨hfresh, -⟩
      rw [hfresh.recordKeys] at h
      cases h
    rw [complete_rejected hres hbad]
    exact h
  · obtain ⟨-, hnone, -⟩ := acceptable_of_complete hres
    rw [hnone] at h
    cases h

theorem attempts_keeps_keys {keys : RecordKeys σ} (rs : List (List σ)) {st : HandshakeState κ σ}
    (h : st.recordKeys = some keys) : (st.attempts C rs).recordKeys = some keys := by
  unfold HandshakeState.attempts
  apply Machine.run_inv (I := fun s : HandshakeState κ σ => s.recordKeys = some keys) _ rs h
  intro s r hs
  exact complete_keeps_keys hs r

/-- Rejected responses without a bad confirmation leave a fresh state as it is. -/
theorem attempts_rejected {st : HandshakeState κ σ} (rs : List (List σ)) (hrej : Rejected C st rs)
    (hbad : ∀ r ∈ rs, ¬ BadConfirmation C st r) : st.attempts C rs = st := by
  induction rs with
  | nil => rfl
  | cons r rs ih =>
    obtain ⟨⟨e, he⟩, htail⟩ := hrej
    have hsame : st.attempt C r = st :=
      complete_rejected (Prod.ext he rfl) fun h => hbad r List.mem_cons_self h.2
    rw [HandshakeState.attempts, Machine.run_cons, hsame]
    rw [hsame] at htail
    exact ih htail fun q hq => hbad q (List.mem_cons_of_mem r hq)

/-- Responses that a state rejects one by one are rejected in their turn, for want of
a bad confirmation. -/
theorem rejected_of_forall {st : HandshakeState κ σ} (rs : List (List σ))
    (hrej : ∀ r ∈ rs, ∃ e, (st.complete C r).1 = .error e)
    (hbad : ∀ r ∈ rs, ¬ BadConfirmation C st r) : Rejected C st rs := by
  induction rs with
  | nil => trivial
  | cons r rs ih =>
    obtain ⟨e, he⟩ := hrej r List.mem_cons_self
    have hsame : st.attempt C r = st :=
      complete_rejected (Prod.ext he rfl) fun h => hbad r List.mem_cons_self h.2
    refine ⟨⟨e, he⟩, ?_⟩
    rw [hsame]
    exact ih (fun q hq => hrej q (List.mem_cons_of_mem r hq))
      fun q hq => hbad q (List.mem_cons_of_mem r hq)

/-- A bad confirmation among rejected responses leaves keys. -/
theorem attempts_badConfirmation {st : HandshakeState κ σ} (hfresh : st.Fresh) (rs : List (List σ))
    (hrej : Rejected C st rs) {r : List σ} (hr : r ∈ rs) (hbad : BadConfirmation C st r) :
    (st.attempts C rs).recordKeys.isSome := by
  induction rs with
  | nil => cases hr
  | cons q rs ih =>
    obtain ⟨⟨e, he⟩, htail⟩ := hrej
    rw [HandshakeState.attempts, Machine.run_cons]
    by_cases hq : BadConfirmation C st q
    · have hkeys : (st.attempt C q).recordKeys = some (st.keysOf C q) := by
        rw [HandshakeState.attempt, complete_of_badConfirmation hfresh hq]
      have hkept := attempts_keeps_keys (C := C) rs hkeys
      rw [HandshakeState.attempts] at hkept
      rw [hkept]
      rfl
    · have hsame : st.attempt C q = st :=
        complete_rejected (Prod.ext he rfl) fun h => hq h.2
      rw [hsame] at htail ⊢
      rcases List.mem_cons.1 hr with rfl | hmem
      · exact absurd hbad hq
      · exact ih htail hmem

/-- **When a rejected response leaves no trace.**  In every state that a hello of
`initiate` reaches by any responses, a rejection keeps flag and keys exactly
unless the state is fresh and the response has a bad confirmation.  After any
rejected responses, records still fail and an honest response still completes,
exactly if none of them had a bad confirmation. -/
theorem rejected_no_trace_iff (hC : C.Lawful) {serverSecret ephemeral : κ} {sni : String}
    {shortId : Bytes} {unixTime : UInt32} {st : HandshakeState κ σ}
    (hinit : initiate C ⟨sni, C.publicKey serverSecret, shortId⟩ ephemeral unixTime = .ok st)
    (rs : List (List σ)) :
    (∀ r, (∀ e st', (st.attempts C rs).complete C r = (.error e, st') →
        st'.completed = (st.attempts C rs).completed ∧
          st'.recordKeys = (st.attempts C rs).recordKeys) ↔
      ¬ ((st.attempts C rs).Fresh ∧ BadConfirmation C (st.attempts C rs) r)) ∧
    (Rejected C st rs →
      (((∀ seq pt, (st.attempts C rs).sealRecord C seq pt = .error .sessionAuthRejected) ∧
        (∀ seq ct, (st.attempts C rs).openRecord C seq ct = .error .sessionAuthRejected) ∧
        ∀ expectedShortId signing serverEphemeral response session,
          serve C serverSecret expectedShortId signing serverEphemeral st.wireHello
              = .ok (response, session) →
          C.x25519 ephemeral (C.publicKey serverEphemeral) ≠ Crypto.zeros 32 →
          ∃ st', (st.attempts C rs).complete C response = (.ok (), st')) ↔
      ∀ r ∈ rs, ¬ BadConfirmation C st r)) := by
  obtain ⟨-, hcompleted, hnone⟩ := initiate_fresh hinit
  have hfresh : st.Fresh := ⟨hcompleted, hnone⟩
  refine ⟨fun r => complete_rejected_iff, fun hrej => ⟨?_, ?_⟩⟩
  · rintro ⟨hseal, -⟩ r hr hbad
    obtain ⟨keys, hkeys⟩ := Option.isSome_iff_exists.1
      (attempts_badConfirmation hfresh rs hrej hr hbad)
    obtain ⟨ct, hct⟩ := hC.encrypt_ok keys.send
      (deriveNonce C (st.attempts C rs).sealedSessionId 0 .client NONCE_PURPOSE_DATA) [] []
      (by simp) (by simp)
    have := hseal 0 []
    rw [HandshakeState.sealRecord, hkeys] at this
    dsimp only at this
    rw [hct] at this
    cases this
  · intro hbad
    rw [attempts_rejected rs hrej hbad]
    refine ⟨fun seq pt => ?_, fun seq ct => ?_, ?_⟩
    · rw [HandshakeState.sealRecord, hnone]
    · rw [HandshakeState.openRecord, hnone]
    · intro expectedShortId signing serverEphemeral response session hserve hecdhe
      obtain ⟨st', hcomplete, -⟩ := complete_serve hC rfl hinit hserve hecdhe
      exact ⟨st', hcomplete⟩

/-- A client with a hello out. -/
def sampleHello : Option (HandshakeState UInt8 UInt8) :=
  (initiate Crypto.toy ⟨"example.com", Crypto.toy.publicKey 3, [1, 2]⟩ 5 1700000000).toOption

/-- The server's answer to it. -/
def sampleAnswer : Option (List UInt8) :=
  sampleHello.bind fun st =>
    (serve Crypto.toy 3 (copyFrom 8 (lits (padShortId [1, 2]))) 7 9 st.wireHello).toOption.map
      Prod.fst

/-- An answer whose last byte was changed on the way is rejected.  The keys it
fixed stay: a record is sealed under them, and the answer itself is rejected next. -/
theorem not_rejected_no_trace :
    (sampleHello.bind fun st => sampleAnswer.map fun response =>
        let bad := response.dropLast ++ [0]
        let after := st.attempt Crypto.toy bad
        ((st.complete Crypto.toy bad).1.isOk, st.recordKeys.isSome, after.recordKeys.isSome,
          (after.sealRecord Crypto.toy 0 []).isOk, (after.complete Crypto.toy response).1.isOk))
      = some (false, false, true, true, false) := by
  decide +kernel

/-- The value an `ok` result shows as an option. -/
theorem eq_ok_of_toOption {ε α : Type} {x : Except ε α} {a : α} (h : x.toOption = some a) :
    x = .ok a := by
  cases x with
  | error e => cases h
  | ok b => exact congrArg _ (Option.some.inj h)

/-- A stub, the answer cut short, and the answer with its first certificate byte changed. -/
def sampleRejected (response : List UInt8) : List (List UInt8) :=
  [[1, 2, 3], response.take 100, 0 :: response.tail]

/-- None of the three gets as far as the confirmation. -/
theorem sampleRejected_short_or_forged {st : HandshakeState UInt8 UInt8} {response : List UInt8}
    (hhello : sampleHello = some st) (hanswer : sampleAnswer = some response) :
    ∀ r ∈ sampleRejected response, (st.complete Crypto.toy r).1.isOk = false ∧
      (r.length < SERVER_RESPONSE_MIN ∨
        (verifyTemporaryCertificate Crypto.toy st.authKey (r.take CERT_LEN)).isOk = false) := by
  have hrun : (sampleHello.bind fun st => sampleAnswer.map fun response =>
      (sampleRejected response).all fun r => !(st.complete Crypto.toy r).1.isOk &&
        (r.length < SERVER_RESPONSE_MIN ||
          !(verifyTemporaryCertificate Crypto.toy st.authKey (r.take CERT_LEN)).isOk))
      = some true := by
    decide +kernel
  rw [hhello, hanswer] at hrun
  simpa [-Bool.not_eq_true] using hrun

/-- After three rejected responses records still fail, and the honest one completes. -/
theorem rejected_no_trace_iff_sample : ∃ (st : HandshakeState UInt8 UInt8) (response : List UInt8),
    sampleHello = some st ∧ sampleAnswer = some response ∧
      (∀ seq pt, (st.attempts Crypto.toy (sampleRejected response)).sealRecord Crypto.toy seq pt
        = .error .sessionAuthRejected) ∧
      ∃ st', (st.attempts Crypto.toy (sampleRejected response)).complete Crypto.toy response
        = (.ok (), st') := by
  obtain ⟨st, hhello⟩ : ∃ st, sampleHello = some st :=
    Option.isSome_iff_exists.1 (by decide +kernel)
  obtain ⟨response, hanswer⟩ : ∃ response, sampleAnswer = some response :=
    Option.isSome_iff_exists.1 (by decide +kernel)
  have hinit : initiate Crypto.toy ⟨"example.com", Crypto.toy.publicKey 3, [1, 2]⟩ 5 1700000000
      = .ok st := eq_ok_of_toOption hhello
  obtain ⟨session, hserve⟩ : ∃ session, serve Crypto.toy 3 (copyFrom 8 (lits (padShortId [1, 2])))
      7 9 st.wireHello = .ok (response, session) := by
    rw [sampleAnswer, hhello, Option.bind_some, Option.map_eq_some_iff] at hanswer
    obtain ⟨⟨r, session⟩, h, rfl⟩ := hanswer
    exact ⟨session, eq_ok_of_toOption h⟩
  have hbad : ∀ r ∈ sampleRejected response, ¬ BadConfirmation Crypto.toy st r := by
    intro r hr h
    rcases (sampleRejected_short_or_forged hhello hanswer r hr).2 with hshort | hcert
    · exact absurd h.length (not_le.2 hshort)
    · rw [h.certificate] at hcert
      cases hcert
  have hrej : Rejected Crypto.toy st (sampleRejected response) := by
    refine rejected_of_forall _ (fun r hr => ?_) hbad
    have hfail := (sampleRejected_short_or_forged hhello hanswer r hr).1
    rcases hres : (st.complete Crypto.toy r).1 with e | ⟨⟩
    · exact ⟨e, rfl⟩
    · rw [hres] at hfail
      cases hfail
  obtain ⟨hseal, -, hhonest⟩ :=
    ((rejected_no_trace_iff Crypto.toy_lawful hinit (sampleRejected response)).2 hrej).2 hbad
  exact ⟨st, response, hhello, hanswer, hseal, hhonest _ _ _ _ _ hserve (by decide)⟩

/-! ## Calls at once -/

/-- Where a call of `complete` stands between two steps that other threads can see. -/
inductive CallStage where
  /-- Before the compare-exchange. -/
  | entered
  /-- It has set the flag; the checks and the write of the keys are next. -/
  | holding
  /-- It has written the keys; the confirmation is next. -/
  | confirming
  /-- It has decided to reject; the store of `false` is next. -/
  | rejecting
  | returned (result : Except HandshakeError Unit)

variable (C) in
/-- One step of a call: at most one access to the flag or to the key cell. -/
def CallStage.advance (st : HandshakeState κ σ) (r : List σ) :
    CallStage → HandshakeState κ σ × CallStage
  | .entered =>
    if st.completed then (st, .returned (.error .sessionAuthRejected))
    else ({ st with completed := true }, .holding)
  | .holding =>
    if r.length < SERVER_RESPONSE_MIN then (st, .rejecting)
    else
      match verifyTemporaryCertificate C st.authKey (r.take CERT_LEN) with
      | .error _ => (st, .rejecting)
      | .ok () =>
        if responseSecret C st.ephemeral r = Crypto.zeros 32 then (st, .rejecting)
        else if st.recordKeys.isSome then (st, .rejecting)
        else ({ st with recordKeys := some (st.keysOf C r) }, .confirming)
  | .confirming =>
    match C.aesDecrypt (st.keysOf C r).recv
      (deriveNonce C st.sealedSessionId 0 .server NONCE_PURPOSE_RESPONSE) []
      (r.drop (CERT_LEN + SERVER_SHARE_LEN)) with
    | none => (st, .rejecting)
    | some _ => (st, .returned (.ok ()))
  | .rejecting => ({ st with completed := false }, .returned (.error .sessionAuthRejected))
  | .returned result => (st, .returned result)

/-- The steps of a call that nobody interrupts. -/
def CallStage.alone (C : Crypto κ σ) (st : HandshakeState κ σ) (r : List σ) (n : ℕ) :
    HandshakeState κ σ × CallStage :=
  (fun p => p.2.advance C p.1 r)^[n] (st, .entered)

/-- **The steps are those of `complete`**: four of them, one after the other, do what it does. -/
theorem alone_eq_complete (C : Crypto κ σ) (st : HandshakeState κ σ) (r : List σ) :
    CallStage.alone C st r 4 = ((st.complete C r).2, .returned (st.complete C r).1) := by
  simp only [CallStage.alone, Function.iterate_succ, Function.iterate_zero, Function.comp, id]
  rw [HandshakeState.complete]
  by_cases hdone : st.completed = true
  · simp [CallStage.advance, hdone]
  · by_cases hlen : r.length < SERVER_RESPONSE_MIN
    · simp [CallStage.advance, hdone, hlen]
    · rcases hcert : verifyTemporaryCertificate C st.authKey (r.take CERT_LEN) with e | ⟨⟩
      · simp [CallStage.advance, hdone, hlen, hcert]
      · by_cases hsecret : responseSecret C st.ephemeral r = Crypto.zeros 32
        · simp [CallStage.advance, hdone, hlen, hcert, hsecret]
        · by_cases hkeys : st.recordKeys.isSome
          · simp [CallStage.advance, hdone, hlen, hcert, hsecret, hkeys]
          · rcases hconf : C.aesDecrypt
              (recordKeys C st.sealedSessionId (responseSecret C st.ephemeral r)).recv
              (deriveNonce C st.sealedSessionId 0 .server NONCE_PURPOSE_RESPONSE) []
              (r.drop (CERT_LEN + SERVER_SHARE_LEN)) with _ | pt
            · simp [CallStage.advance, hdone, hlen, hcert, hsecret, hkeys, HandshakeState.keysOf,
                hconf]
            · simp [CallStage.advance, hdone, hlen, hcert, hsecret, hkeys, HandshakeState.keysOf,
                hconf]

/-! ### The machine -/

/-- A state that any number of calls work on. -/
structure Calls (ι κ σ : Type) where
  st : HandshakeState κ σ
  stage : ι → CallStage

variable {ι : Type} [DecidableEq ι]

variable (C) in
/-- Call `i` takes a step, with its own response. -/
def Calls.step (responses : ι → List σ) (s : Calls ι κ σ) (i : ι) : Calls ι κ σ :=
  let (st, stage) := (s.stage i).advance C s.st (responses i)
  ⟨st, Function.update s.stage i stage⟩

/-- No call has taken a step. -/
def Calls.start (st : HandshakeState κ σ) : Calls ι κ σ := ⟨st, fun _ => .entered⟩

/-- Call `i` has returned `Ok`. -/
def Calls.Accepted (s : Calls ι κ σ) (i : ι) : Prop := s.stage i = .returned (.ok ())

/-- Between its compare-exchange and its return, a call owns the flag. -/
def CallStage.Owns : CallStage → Prop
  | .entered => False
  | .holding => True
  | .confirming => True
  | .rejecting => True
  | .returned _ => False

/-- Before its compare-exchange, and after a rejection, a call has no part in the flag. -/
def CallStage.Quiet : CallStage → Prop
  | .entered => True
  | .returned (.error _) => True
  | _ => False

/-- The flag has one owner at most: a call on its way, or the one that returned `Ok`. -/
inductive Calls.Owned (s : Calls ι κ σ) : Prop
  | free (quiet : ∀ j, (s.stage j).Quiet)
  | held (i : ι) (owns : (s.stage i).Owns) (quiet : ∀ j, j ≠ i → (s.stage j).Quiet)
    (flag : s.st.completed = true) (keyed : s.stage i = .confirming → s.st.recordKeys.isSome)
  | done (i : ι) (accepted : s.Accepted i) (quiet : ∀ j, j ≠ i → (s.stage j).Quiet)
    (flag : s.st.completed = true) (keyed : s.st.recordKeys.isSome)

/-- What a step of a call can do. -/
inductive CallStage.Moves : HandshakeState κ σ → CallStage → HandshakeState κ σ → CallStage → Prop
  /-- The compare-exchange fails. -/
  | refused {st : HandshakeState κ σ} (h : st.completed = true) :
    Moves st .entered st (.returned (.error .sessionAuthRejected))
  /-- The compare-exchange takes the flag. -/
  | taken {st : HandshakeState κ σ} (h : st.completed = false) :
    Moves st .entered { st with completed := true } .holding
  /-- A check fails, or the key cell is full. -/
  | failed {st : HandshakeState κ σ} {stage : CallStage} (h : stage.Owns) :
    Moves st stage st .rejecting
  | keyed {st : HandshakeState κ σ} (h : st.recordKeys = none) (keys : RecordKeys σ) :
    Moves st .holding { st with recordKeys := some keys } .confirming
  | opened {st : HandshakeState κ σ} : Moves st .confirming st (.returned (.ok ()))
  | gaveBack {st : HandshakeState κ σ} :
    Moves st .rejecting { st with completed := false } (.returned (.error .sessionAuthRejected))
  | idle {st : HandshakeState κ σ} (result : Except HandshakeError Unit) :
    Moves st (.returned result) st (.returned result)

theorem CallStage.advance_moves (st : HandshakeState κ σ) (r : List σ) (stage : CallStage) :
    Moves st stage (stage.advance C st r).1 (stage.advance C st r).2 := by
  cases stage with
  | entered =>
    unfold CallStage.advance
    by_cases hdone : st.completed = true
    · rw [if_pos hdone]
      exact .refused hdone
    · rw [if_neg hdone]
      exact .taken (by simpa using hdone)
  | holding =>
    unfold CallStage.advance
    rcases hcert : verifyTemporaryCertificate C st.authKey (r.take CERT_LEN) with e | ⟨⟩
    · dsimp only
      split_ifs
      · exact .failed trivial
      · exact .failed trivial
    · dsimp only
      split_ifs with hlen hsecret hkeys
      · exact .failed trivial
      · exact .failed trivial
      · exact .failed trivial
      · exact .keyed (by simpa using hkeys) _
  | confirming =>
    unfold CallStage.advance
    dsimp only
    split
    · exact .failed trivial
    · exact .opened
  | rejecting => exact .gaveBack
  | returned result => exact .idle result

section Moves

omit [Alphabet σ] [DecidableEq σ]

/-- Under another owner's flag, a quiet call stays quiet and changes nothing. -/
theorem CallStage.Moves.quiet {st st' : HandshakeState κ σ} {stage stage' : CallStage}
    (h : Moves st stage st' stage') (hquiet : stage.Quiet) (hflag : st.completed = true) :
    st' = st ∧ stage'.Quiet := by
  cases h with
  | refused => exact ⟨rfl, trivial⟩
  | taken hfree =>
    rw [hflag] at hfree
    cases hfree
  | failed howns => cases stage <;> first | exact howns.elim | exact hquiet.elim
  | keyed => exact hquiet.elim
  | opened => exact hquiet.elim
  | gaveBack => exact hquiet.elim
  | idle => exact ⟨rfl, hquiet⟩

theorem quiet_update {stage : ι → CallStage} {new : CallStage} {i j : ι}
    (hold : j ≠ i → (stage j).Quiet) (hnew : j = i → new.Quiet) :
    (Function.update stage i new j).Quiet := by
  by_cases hji : j = i
  · subst hji
    rw [Function.update_self]
    exact hnew rfl
  · rw [Function.update_of_ne hji]
    exact hold hji

/-- From a free flag a call can only take it. -/
theorem Calls.Owned.update_free {s : Calls ι κ σ} (quiet : ∀ j, (s.stage j).Quiet) {i : ι}
    {st : HandshakeState κ σ} {stage : CallStage}
    (hmove : CallStage.Moves s.st (s.stage i) st stage) :
    (⟨st, Function.update s.stage i stage⟩ : Calls ι κ σ).Owned := by
  have hquiet := quiet i
  generalize s.stage i = old at hmove hquiet
  cases hmove with
  | refused => exact .free fun j => quiet_update (fun _ => quiet j) fun _ => trivial
  | taken =>
    refine .held i ?_ ?_ rfl ?_
    · simp only [Function.update_self]
      trivial
    · intro j hj
      exact quiet_update (fun _ => quiet j) fun h => absurd h hj
    · intro h
      simp only [Function.update_self] at h
      cases h
  | failed howns => cases old <;> first | exact howns.elim | exact hquiet.elim
  | keyed => exact hquiet.elim
  | opened => exact hquiet.elim
  | gaveBack => exact hquiet.elim
  | idle => exact .free fun j => quiet_update (fun _ => quiet j) fun _ => hquiet

/-- The owner goes on, ends with `Ok` or gives the flag back. -/
theorem Calls.Owned.update_owner {s : Calls ι κ σ} {i : ι} (owns : (s.stage i).Owns)
    (quiet : ∀ j, j ≠ i → (s.stage j).Quiet) (flag : s.st.completed = true)
    (keyed : s.stage i = .confirming → s.st.recordKeys.isSome) {st : HandshakeState κ σ}
    {stage : CallStage} (hmove : CallStage.Moves s.st (s.stage i) st stage) :
    (⟨st, Function.update s.stage i stage⟩ : Calls ι κ σ).Owned := by
  have hothers : ∀ j, j ≠ i → (Function.update s.stage i stage j).Quiet := by
    intro j hj
    exact quiet_update (fun _ => quiet j hj) fun h => absurd h hj
  generalize hold : s.stage i = old at hmove owns keyed
  cases hmove with
  | refused => exact owns.elim
  | taken => exact owns.elim
  | failed =>
    refine .held i ?_ hothers flag ?_
    · simp only [Function.update_self]
      trivial
    · intro h
      simp only [Function.update_self] at h
      cases h
  | keyed =>
    refine .held i ?_ hothers flag fun _ => rfl
    simp only [Function.update_self]
    trivial
  | opened =>
    refine .done i ?_ hothers flag (keyed rfl)
    simp only [Calls.Accepted, Function.update_self]
  | gaveBack =>
    refine .free fun j => quiet_update (fun hj => quiet j hj) fun _ => trivial
  | idle => exact owns.elim

/-- **A step keeps the flag owned.** -/
theorem Calls.Owned.update {s : Calls ι κ σ} (h : s.Owned) {i : ι} {st : HandshakeState κ σ}
    {stage : CallStage} (hmove : CallStage.Moves s.st (s.stage i) st stage) :
    (⟨st, Function.update s.stage i stage⟩ : Calls ι κ σ).Owned := by
  cases h with
  | free quiet => exact Calls.Owned.update_free quiet hmove
  | held k owns quiet flag keyed =>
    by_cases hik : i = k
    · subst hik
      exact Calls.Owned.update_owner owns quiet flag keyed hmove
    · obtain ⟨rfl, hnew⟩ := hmove.quiet (quiet i hik) flag
      have hsame : Function.update s.stage i stage k = s.stage k :=
        Function.update_of_ne (Ne.symm hik) _ _
      refine .held k (by simpa only [hsame] using owns) ?_ flag (by simpa only [hsame] using keyed)
      intro j hj
      exact quiet_update (fun _ => quiet j hj) fun _ => hnew
  | done k accepted quiet flag keyed =>
    by_cases hik : i = k
    · subst hik
      rw [accepted] at hmove
      cases hmove with
      | failed howns => exact howns.elim
      | idle =>
        refine .done i ?_ ?_ flag keyed
        · simp only [Calls.Accepted, Function.update_self]
        · intro j hj
          exact quiet_update (fun _ => quiet j hj) fun h => absurd h hj
    · obtain ⟨rfl, hnew⟩ := hmove.quiet (quiet i hik) flag
      refine .done k ?_ ?_ flag keyed
      · unfold Calls.Accepted
        simp only [Function.update_of_ne (Ne.symm hik)]
        exact accepted
      · intro j hj
        exact quiet_update (fun _ => quiet j hj) fun _ => hnew

end Moves

/-! ### Runs of the machine -/

variable (C) in
/-- Some calls take steps, in an order. -/
def Calls.run (responses : ι → List σ) (s : Calls ι κ σ) (schedule : List ι) : Calls ι κ σ :=
  Machine.run (Calls.step C responses) s schedule

variable (C) in
/-- The next step of call `i` writes the key cell. -/
def Calls.Writes (responses : ι → List σ) (s : Calls ι κ σ) (i : ι) : Prop :=
  s.stage i = .holding ∧ (s.step C responses i).stage i = .confirming

theorem Calls.step_owned (responses : ι → List σ) {s : Calls ι κ σ} (h : s.Owned) (i : ι) :
    (s.step C responses i).Owned :=
  h.update (CallStage.advance_moves s.st (responses i) (s.stage i))

theorem Calls.run_owned (responses : ι → List σ) (schedule : List ι) {s : Calls ι κ σ}
    (h : s.Owned) : (s.run C responses schedule).Owned := by
  unfold Calls.run
  exact Machine.run_inv (I := Calls.Owned) (fun _ i hs => Calls.step_owned responses hs i) schedule h

omit [Alphabet σ] [DecidableEq σ] [DecidableEq ι] in
/-- An accepted call is the one that the flag belongs to. -/
theorem Calls.Owned.of_accepted {s : Calls ι κ σ} (h : s.Owned) {i : ι} (hi : s.Accepted i) :
    (∀ j, j ≠ i → (s.stage j).Quiet) ∧ s.st.completed = true ∧ s.st.recordKeys.isSome := by
  unfold Calls.Accepted at hi
  cases h with
  | free quiet =>
    have hquiet := quiet i
    rw [hi] at hquiet
    exact hquiet.elim
  | held k owns quiet =>
    by_cases hik : i = k
    · subst hik
      rw [hi] at owns
      exact owns.elim
    · have hquiet := quiet i hik
      rw [hi] at hquiet
      exact hquiet.elim
  | done k accepted quiet flag keyed =>
    by_cases hik : i = k
    · subst hik
      exact ⟨quiet, flag, keyed⟩
    · have hquiet := quiet i hik
      rw [hi] at hquiet
      exact hquiet.elim

/-- A step of any call, when one has been accepted, changes nothing. -/
theorem Calls.step_of_accepted (responses : ι → List σ) {s : Calls ι κ σ} (h : s.Owned) {i : ι}
    (hi : s.Accepted i) (j : ι) :
    (s.step C responses j).Accepted i ∧ (s.step C responses j).st = s.st := by
  obtain ⟨quiet, flag, -⟩ := h.of_accepted hi
  unfold Calls.Accepted at hi
  by_cases hji : j = i
  · subst hji
    simp only [Calls.Accepted, Calls.step, hi, CallStage.advance, Function.update_self, and_self]
  · have hmove := CallStage.advance_moves (C := C) s.st (responses j) (s.stage j)
    refine ⟨?_, (hmove.quiet (quiet j hji) flag).1⟩
    simp only [Calls.Accepted, Calls.step, Function.update_of_ne (Ne.symm hji), hi]

theorem Calls.run_of_accepted (responses : ι → List σ) (more : List ι) {s : Calls ι κ σ}
    (h : s.Owned) {i : ι} (hi : s.Accepted i) : (s.run C responses more).st = s.st := by
  induction more generalizing s with
  | nil => rfl
  | cons j more ih =>
    obtain ⟨haccepted, hsame⟩ := Calls.step_of_accepted responses h hi j
    rw [Calls.run, Machine.run_cons, ← hsame]
    exact ih (Calls.step_owned responses h j) haccepted

/-- Keys that are there stay there. -/
theorem Calls.step_keyed (responses : ι → List σ) {s : Calls ι κ σ} (h : s.st.recordKeys.isSome)
    (i : ι) : (s.step C responses i).st.recordKeys.isSome := by
  have hmove := CallStage.advance_moves (C := C) s.st (responses i) (s.stage i)
  unfold Calls.step
  generalize (s.stage i).advance C s.st (responses i) = next at hmove
  obtain ⟨st, stage⟩ := next
  dsimp only at hmove ⊢
  generalize s.stage i = old at hmove
  cases hmove with
  | refused => exact h
  | taken => exact h
  | failed => exact h
  | keyed => rfl
  | opened => exact h
  | gaveBack => exact h
  | idle => exact h

/-- A write finds the cell empty and fills it. -/
theorem Calls.Writes.keys {responses : ι → List σ} {s : Calls ι κ σ} {i : ι}
    (h : s.Writes C responses i) :
    s.st.recordKeys = none ∧ (s.step C responses i).st.recordKeys.isSome := by
  obtain ⟨hold, hnew⟩ := h
  have hmove := CallStage.advance_moves (C := C) s.st (responses i) (s.stage i)
  unfold Calls.step at hnew ⊢
  generalize (s.stage i).advance C s.st (responses i) = next at hmove hnew
  obtain ⟨st, stage⟩ := next
  simp only [Function.update_self] at hnew hmove ⊢
  subst hnew
  rw [hold] at hmove
  cases hmove with
  | keyed hempty => exact ⟨hempty, rfl⟩

/-- **Single use.**  Any number of calls, each with any response, in any order of
their steps, from any state.  One of them at most returns `Ok`; from then on the
flag is set and the keys are the ones they are; and after a step that writes the
keys no step does. -/
theorem complete_single_use (responses : ι → List σ) (st : HandshakeState κ σ)
    (schedule : List ι) :
    let s := (Calls.start st).run C responses schedule
    (∀ i j, s.Accepted i → s.Accepted j → i = j) ∧
    (∀ i, s.Accepted i → ∀ more,
      (s.run C responses more).st.completed = true ∧
        (s.run C responses more).st.recordKeys = s.st.recordKeys) ∧
    ∀ i, s.Writes C responses i → ∀ more j,
      ¬ ((s.step C responses i).run C responses more).Writes C responses j := by
  have howned := Calls.run_owned (C := C) responses schedule
    (.free fun _ => trivial : (Calls.start st : Calls ι κ σ).Owned)
  refine ⟨fun i j hi hj => ?_, fun i hi more => ?_, fun i hi more j hj => ?_⟩
  · by_contra hne
    obtain ⟨quiet, -⟩ := howned.of_accepted hi
    have hquiet := quiet j (Ne.symm hne)
    rw [hj] at hquiet
    exact hquiet
  · obtain ⟨-, hflag, -⟩ := howned.of_accepted hi
    rw [Calls.run_of_accepted responses more howned hi]
    exact ⟨hflag, rfl⟩
  · have hkept := Machine.run_inv (I := fun s : Calls ι κ σ => s.st.recordKeys.isSome)
      (fun _ k hs => Calls.step_keyed (C := C) responses hs k) more hi.keys.2
    rw [← Calls.run, hj.keys.1] at hkept
    cases hkept

end ShadeVpn.Handshake
