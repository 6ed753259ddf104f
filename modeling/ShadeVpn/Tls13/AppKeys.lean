import ShadeVpn.Tls13.NoAbort

/-!
# Application keys come from an authenticated server

Only the end of an accepted flight writes `app_read` and `app_write`: every other method
leaves them (`appKeys_step`) or moves a sequence number that is already there
(`pastKeyCheck_iff`).  So a record is sealed or opened under application keys only behind a
flight that returned `Ok` (`appKeys_authenticated`), and such a flight has matched the
Finished and verified the signature (`authenticates_of_eq_ok`).
-/

namespace ShadeVpn.Tls13

open Octets Checked Fallible

variable {k : Crates} {t : Target} {c c' : Tls13Client} {α : Type}

/-! ## What an accepted flight has checked -/

/-- What changed in the fold over the messages was changed by a message of its type, and
by none behind it. -/
theorem exists_last {β : Type} (f : Seen → β) {type : UInt8} {h : HashAlg} {shts : Option Bytes}
    {tr : Transcript} {seen seen' : Seen} {ms : List Message}
    (hstep : ∀ (s s' : Seen) (m : Message) (th : Bytes), m.type ≠ type →
      handleMessage k h shts s m th = .ok s' → f s' = f s)
    (hread : readMessages k h shts tr seen ms = .ok seen') (hne : f seen' ≠ f seen) :
    ∃ pre m post seen₁ seen₂, ms = pre ++ m :: post ∧ m.type = type ∧
      handleMessage k h shts seen₁ m ((tr.update (encodeAll pre)).hashOf k) = .ok seen₂ ∧
      f seen₂ = f seen' := by
  induction ms using List.reverseRecOn generalizing seen' with
  | nil =>
    cases hread
    exact absurd rfl hne
  | append_singleton ms m ih =>
    obtain ⟨seen₁, hread, hlast⟩ := readMessages_append_eq_ok.1 hread
    simp only [readMessages, Cursor.bind_eq_ok] at hlast
    obtain ⟨seen₂, hm, hend⟩ := hlast
    cases hend
    by_cases hsame : f seen' = f seen₁
    · obtain ⟨pre, m', post, s₁, s₂, rfl, htype, hm', hf⟩ := ih hread (hsame ▸ hne)
      exact ⟨pre, m', post ++ [m], s₁, s₂, by simp, htype, hm', hf.trans hsame.symm⟩
    · have htype : m.type = type := by
        by_contra hother
        exact hsame (hstep _ _ _ _ hother hm)
      exact ⟨ms, m, [], seen₁, seen', rfl, htype, hm, rfl⟩

/-- A flight that authenticates the server to a client: a Finished in it is the MAC over
the transcript before it, and the signature of a CertificateVerify in it over the
transcript before that verifies under the leaf that is returned. -/
structure Authenticates (k : Crates) (t : Target) (c : Tls13Client) (records : Bytes)
    (outcome : Tls13Outcome) : Prop where
  finished : ∃ pre fin post tr secret,
    flightMessages k c.hsRead records = pre ++ fin :: post ∧ fin.type = HS_FINISHED ∧
    c.transcript = some tr ∧ c.shts = some secret ∧
    fin.body = hmacHash k outcome.suite.hash (finishedKey k outcome.suite.hash secret)
      ((tr.update (encodeAll pre)).hashOf k)
  verified : ∃ pre cv post tr leaf scheme sig,
    flightMessages k c.hsRead records = pre ++ cv :: post ∧ cv.type = HS_CERTIFICATE_VERIFY ∧
    c.transcript = some tr ∧ outcome.serverChain.head? = some leaf ∧
    let signed := List.replicate 64 0x20 ++ utf8 "TLS 1.3, server CertificateVerify" ++
      ([0] ++ (tr.update (encodeAll pre)).hashOf k)
    readCertificateVerify cv.body ((tr.update (encodeAll pre)).hashOf k) =
      .ok (scheme, sig, signed) ∧
    verifyCertificateVerify k t scheme leaf sig signed = .ok ()

/-- **An accepted flight authenticates the server.** -/
theorem authenticates_of_eq_ok {records : Bytes} {outcome : Tls13Outcome}
    (hrun : exec (processServerFlight k t records) c = (.ok outcome, c')) :
    Authenticates k t c records outcome := by
  obtain ⟨seen, ⟨scheme, sig, signed⟩, leaf, tr, htr, hread, hgot, hcv, hleaf, hchain, hverify⟩ :=
    processServerFlight_eq_ok hrun
  constructor
  · obtain ⟨pre, fin, post, s₁, s₂, hms, htype, hm, -⟩ := exists_last Seen.gotFinished
      (fun _ _ _ _ hother hm => (handled_of_eq_ok hm).gotFinished hother) hread
      (by rw [hgot]; decide)
    obtain ⟨-, secret, hsecret, hmac⟩ := (handled_of_eq_ok hm).finished htype
    exact ⟨pre, fin, post, tr, secret, hms, htype, htr, hsecret, hmac⟩
  · obtain ⟨pre, cv, post, s₁, s₂, hms, htype, hm, hkept⟩ := exists_last Seen.cv
      (fun _ _ _ _ hother hm => (handled_of_eq_ok hm).cv hother) hread
      (by rw [hcv]; simp)
    obtain ⟨v, hreadCv, hv⟩ := (handled_of_eq_ok hm).verify htype
    obtain rfl : v = (scheme, sig, signed) :=
      Option.some.inj (hv.symm.trans (hkept.trans hcv))
    obtain rfl : signed = toBeSigned ((tr.update (encodeAll pre)).hashOf k) :=
      readCertificateVerify_eq_ok hreadCv
    exact ⟨pre, cv, post, tr, leaf, scheme, sig, hms, htype, htr, by rw [hchain, hleaf], hreadCv,
      hverify⟩

/-! ## Methods that frame the application keys -/

/-- The two fields. -/
def Tls13Client.appKeys (c : Tls13Client) : Option Protection × Option Protection :=
  (c.appRead, c.appWrite)

/-- A method that leaves the application keys as they are. -/
abbrev FramesKeys (x : Method α) : Prop := Frames Tls13Client.appKeys x

theorem frames_processServerHello (wire : Bytes) : FramesKeys (processServerHello k wire) := by
  refine frames_bind (frames_lift _) fun body => ?_
  split_ifs
  · exact frames_throw _
  refine frames_bind (frames_lift _) fun r => frames_bind frames_get fun c => ?_
  refine frames_bind (frames_lift _) fun hello => frames_bind (frames_lift _) fun helloHs => ?_
  exact frames_bind (frames_modify fun _ => rfl) fun _ => frames_lift _

theorem frames_deriveHandshakeKeys (sharedSecret : Bytes) :
    FramesKeys (deriveHandshakeKeys k sharedSecret) := by
  refine frames_bind frames_get fun c => frames_bind (frames_lift _) fun suite => ?_
  refine frames_bind (frames_lift _) fun early => ?_
  refine frames_bind (frames_modify fun _ => rfl) fun _ => ?_
  refine frames_bind (frames_lift _) fun tr => frames_bind (frames_modify fun _ => rfl) fun _ => ?_
  refine frames_bind (frames_lift _) fun read => ?_
  refine frames_bind (frames_modify fun _ => rfl) fun _ => ?_
  exact frames_bind (frames_lift _) fun write => frames_modify fun _ => rfl

theorem frames_openWith {γ : Type} {part : Tls13Client → γ} {bad : Tls13Error}
    {field : Tls13Client → Option Protection} {update : Protection → Tls13Client → Tls13Client}
    (hupdate : ∀ p c, part (update p c) = part c) (wire : Bytes) :
    Frames part (openWith k bad field update wire) := by
  refine frames_bind (frames_lift _) fun inner => frames_bind (frames_lift _) fun aad => ?_
  refine frames_bind frames_get fun c => frames_bind (frames_lift _) fun p => ?_
  refine frames_bind (frames_lift _) fun nonce => ?_
  refine frames_bind (frames_modify (hupdate _)) fun _ => ?_
  exact frames_bind (frames_lift _) fun plain => frames_lift _

theorem frames_sealWith {γ : Type} {part : Tls13Client → γ} {missing : Tls13Error}
    {field : Tls13Client → Option Protection} {update : Protection → Tls13Client → Tls13Client}
    (hupdate : ∀ p c, part (update p c) = part c) (contentType : UInt8) (data : Bytes) :
    Frames part (sealWith k missing field update contentType data) := by
  refine frames_bind frames_get fun c => frames_bind (frames_lift _) fun p => ?_
  refine frames_bind (frames_lift _) fun nonce => ?_
  refine frames_bind (frames_modify (hupdate _)) fun _ => ?_
  exact frames_bind (frames_lift _) fun sealed => frames_pure _

theorem frames_openHsRecord (wire : Bytes) : FramesKeys (openHsRecord k wire) := by
  have hupdate : ∀ (p : Protection) (c : Tls13Client),
      ({ c with hsRead := some p } : Tls13Client).appKeys = c.appKeys := fun _ _ => rfl
  exact frames_openWith hupdate wire

theorem frames_clientFinishedRecord : FramesKeys (clientFinishedRecord k) := by
  refine frames_bind frames_get fun c => frames_bind (frames_lift _) fun suite => ?_
  refine frames_bind (frames_lift _) fun chts => frames_bind (frames_lift _) fun tr => ?_
  refine frames_bind (frames_modify fun _ => rfl) fun _ => ?_
  have hupdate : ∀ (p : Protection) (c : Tls13Client),
      ({ c with hsWrite := some p } : Tls13Client).appKeys = c.appKeys := fun _ _ => rfl
  exact frames_sealWith hupdate _ _

theorem frames_takeMessage (buf : Bytes) (m : Message) : FramesKeys (takeMessage k buf m) := by
  refine frames_bind frames_get fun c => frames_bind (frames_lift _) fun tr => ?_
  exact frames_bind (frames_modify fun _ => rfl) fun _ => frames_pure _

theorem frames_flightLoop (h : HashAlg) (pending rest : Bytes) (seen : Seen) :
    FramesKeys (flightLoop k h pending rest seen) := by
  induction pending, rest, seen using flightLoop.induct with
  | case1 pending rest seen hfin =>
    rw [flightLoop_finished hfin]
    exact frames_pure seen
  | case2 pending rest seen hgoing m hfront ih =>
    rw [flightLoop_front (Bool.not_eq_true _ ▸ hgoing) hfront]
    refine frames_bind (frames_takeMessage _ _) fun th => frames_bind frames_get fun c => ?_
    exact frames_bind (frames_lift _) ih
  | case3 pending rest seen hgoing hfront hshort =>
    rw [flightLoop_record (Bool.not_eq_true _ ▸ hgoing) hfront, if_pos hshort]
    exact frames_throw _
  | case4 pending rest seen hgoing hfront hheader hshort =>
    rw [flightLoop_record (Bool.not_eq_true _ ▸ hgoing) hfront, if_neg hheader, if_pos hshort]
    exact frames_throw _
  | case5 pending rest seen hgoing hfront hheader hwhole hccs ih =>
    rw [flightLoop_record (Bool.not_eq_true _ ▸ hgoing) hfront, if_neg hheader, if_neg hwhole,
      if_pos hccs]
    exact ih
  | case6 pending rest seen hgoing hfront hheader hwhole hccs ih =>
    rw [flightLoop_record (Bool.not_eq_true _ ▸ hgoing) hfront, if_neg hheader, if_neg hwhole,
      if_neg hccs]
    refine frames_bind (frames_openHsRecord _) ?_
    rintro ⟨ct, payload⟩
    dsimp only
    split_ifs
    · exact frames_throw _
    · exact ih payload

/-! ## The flight -/

/-- Once the first key is written nothing can fail any more. -/
theorem framesError_deriveAppKeys (suite : CipherSuite) (serverChain : List Bytes) :
    FramesError Tls13Client.appKeys (deriveAppKeys k suite serverChain) := by
  refine framesError_bind frames_get fun c => framesError_bind (frames_lift _) fun tr => ?_
  refine framesError_bind (frames_lift _) fun master => ?_
  refine framesError_bind (frames_modify fun _ => rfl) fun _ => ?_
  refine framesError_bind (frames_lift _) fun write => framesError_of_ok fun c => ?_
  obtain ⟨read, hread, -⟩ := protectionOf_eq_ok k suite
    (deriveSecret k suite.hash master "s ap traffic" (tr.hashOf k))
  simp only [exec_bind, exec_modify, exec_lift, hread, exec_pure]
  exact ⟨_, _, rfl⟩

/-- **A flight that fails leaves the application keys.** -/
theorem framesError_processServerFlight (records : Bytes) :
    FramesError Tls13Client.appKeys (processServerFlight k t records) := by
  refine framesError_bind frames_get fun c => framesError_bind (frames_lift _) fun suite => ?_
  refine framesError_bind (frames_flightLoop _ _ _ _) fun seen => ?_
  refine framesError_bind (frames_lift _) fun ⟨scheme, sig, tbs⟩ => ?_
  refine framesError_bind (frames_lift _) fun leaf => ?_
  exact framesError_bind (frames_lift _) fun _ => framesError_deriveAppKeys _ _

theorem deriveAppKeys_protections {suite : CipherSuite} {serverChain : List Bytes}
    {outcome : Tls13Outcome}
    (hrun : exec (deriveAppKeys k suite serverChain) c = (.ok outcome, c')) :
    ∃ write read, protectionOf k outcome.suite outcome.clientAppSecret = .ok write ∧
      protectionOf k outcome.suite outcome.serverAppSecret = .ok read ∧
      c'.appKeys = (some read, some write) := by
  simp only [deriveAppKeys, exec_bind_ok, exec_pure, exec_modify, exec_lift, Prod.mk.injEq,
    Except.ok.injEq] at hrun
  obtain ⟨_, _, -, tr, _, -, master, _, -, _, _, -, write, _, ⟨hwrite, rfl⟩, _, _, ⟨-, rfl⟩, read,
    _, ⟨hread, rfl⟩, _, _, ⟨-, rfl⟩, rfl, rfl⟩ := hrun
  exact ⟨write, read, hwrite, hread, rfl⟩

/-- **An accepted flight installs the keys of the secrets it returns**, each with the
sequence number zero. -/
theorem protections_of_eq_ok {records : Bytes} {outcome : Tls13Outcome}
    (hrun : exec (processServerFlight k t records) c = (.ok outcome, c')) :
    ∃ write read, protectionOf k outcome.suite outcome.clientAppSecret = .ok write ∧
      protectionOf k outcome.suite outcome.serverAppSecret = .ok read ∧
      c'.appKeys = (some read, some write) := by
  simp only [processServerFlight, exec_bind_ok] at hrun
  obtain ⟨_, _, -, _, _, -, _, _, -, _, _, -, _, _, -, _, _, -, hkeys⟩ := hrun
  exact deriveAppKeys_protections hkeys

/-! ## The key check -/

section KeyCheck

variable {missing : Tls13Error} {field : Tls13Client → Option Protection}
  {update : Protection → Tls13Client → Tls13Client} {p : Protection} {nonce : Bytes}

/-- Past its key check a record is opened at the sequence number of the protection, which
moves on before the record opens or fails to. -/
theorem exec_openWith {wire inner : Bytes}
    (hbody : recordBody CONTENT_APPDATA missing wire = .ok inner) (hp : field c = some p)
    (hnonce : recordNonce p.iv p.seq = .ok nonce) :
    exec (openWith k missing field update wire) c =
      (p.cipher.open k nonce inner (wire.take 5) >>= stripInnerPadding, update p.next c) := by
  have hwire : 5 ≤ wire.length := by
    by_contra hshort
    rw [recordBody, if_pos (Or.inl (by omega))] at hbody
    cases hbody
  have haad : (slice wire 0 5 : Except (Stop Tls13Error) Bytes) = .ok (wire.take 5) :=
    slice_eq_ok (by omega) hwire
  simp only [openWith, orFail, exec_bind, exec_get, exec_lift, exec_modify, hbody, haad, hp, okOr,
    hnonce]
  rcases p.cipher.open k nonce inner (wire.take 5) with e | plain <;> rfl

theorem exec_sealWith (hp : field c = some p) (hnonce : recordNonce p.iv p.seq = .ok nonce)
    (contentType : UInt8) (data : Bytes) :
    let record := CONTENT_APPDATA :: 0x03 :: 0x03 :: toBE 2 (data.length + 1 + TAG_LEN)
    exec (sealWith k missing field update contentType data) c =
      ((p.cipher.seal k nonce (data ++ [contentType]) record).map (record ++ ·),
        update p.next c) := by
  intro record
  simp only [sealWith, orFail, exec_bind, exec_get, exec_lift, exec_modify, hp, okOr, hnonce]
  rcases p.cipher.seal k nonce (data ++ [contentType]) record with e | sealed <;> rfl

/-- A record whose header is not read, or without a key, leaves the client. -/
theorem exec_openWith_refused {wire : Bytes}
    (h : ¬ ((recordBody CONTENT_APPDATA missing wire).isOk ∧ (field c).isSome)) :
    ∃ e, exec (openWith k missing field update wire) c = (.error e, c) := by
  simp only [openWith, orFail, exec_bind, exec_get, exec_lift]
  rcases hbody : recordBody CONTENT_APPDATA missing wire with e | inner
  · exact ⟨e, rfl⟩
  rcases (slice wire 0 5 : Except (Stop Tls13Error) Bytes) with e | aad
  · exact ⟨e, rfl⟩
  have hnone : field c = none := by
    by_contra hsome
    exact h ⟨by rw [hbody]; rfl, Option.isSome_iff_ne_none.2 hsome⟩
  have hcheck : (okOr missing (field c) : Except (Stop Tls13Error) Protection) =
      .error (.err missing) := by
    rw [hnone, okOr]
  exact ⟨.err missing, by simp only [hcheck]⟩

theorem exec_sealWith_refused (h : field c = none) (contentType : UInt8) (data : Bytes) :
    exec (sealWith k missing field update contentType data) c = (.error (.err missing), c) := by
  simp only [sealWith, orFail, exec_bind, exec_get, exec_lift, h, okOr]

end KeyCheck

/-- The check of the inner content type leaves the client as opening the record did. -/
theorem openAppRecord_snd (wire : Bytes) :
    (exec (openAppRecord k wire) c).2 = (exec (openRecord k wire) c).2 := by
  rw [openAppRecord, exec_bind]
  rcases exec (openRecord k wire) c with ⟨e | ⟨ct, payload⟩, c'⟩
  · rfl
  · dsimp only
    split_ifs <;> rfl

theorem Protection.next_ne (p : Protection) : p.next ≠ p := by
  intro h
  have hseq : p.seq + 1 = p.seq := congrArg Protection.seq h
  simp at hseq

namespace Call

/-- A call that works on the application keys. -/
def IsRecord : Call → Bool
  | sealAppRecord _ | openRecord _ | openAppRecord _ => true
  | _ => false

/-- A call that gets past the key check of `seal_app_record` or `open_record`. -/
def PastKeyCheck (c : Tls13Client) : Call → Prop
  | sealAppRecord _ => c.appWrite.isSome
  | openRecord wire | openAppRecord wire =>
    (recordBody CONTENT_APPDATA .unexpectedRecord wire).isOk ∧ c.appRead.isSome
  | _ => False

/-- A flight that is accepted. -/
def Accepts (k : Crates) (t : Target) (c : Tls13Client) : Call → Prop
  | processServerFlight records =>
    ∃ outcome c', exec (Tls13.processServerFlight k t records) c = (.ok outcome, c')
  | _ => False

theorem discard_snd (x : Method α) : (exec (discard x) c).2 = (exec x c).2 := by
  rw [discard, exec_bind]
  rcases exec x c with ⟨e | a, c'⟩ <;> rfl

/-- A call of this kind that is stopped at its check leaves the client. -/
theorem step_of_not_pastKeyCheck {call : Call} (hrecord : call.IsRecord)
    (h : ¬ call.PastKeyCheck c) : call.step k t c = c := by
  cases call with
  | sealAppRecord data =>
    rw [step, method, discard_snd, Tls13.sealAppRecord,
      exec_sealWith_refused (Option.not_isSome_iff_eq_none.1 h)]
  | openRecord wire =>
    obtain ⟨e, hrun⟩ := exec_openWith_refused h
    rw [step, method, discard_snd, Tls13.openRecord, hrun]
  | openAppRecord wire =>
    obtain ⟨e, hrun⟩ := exec_openWith_refused h
    rw [step, method, discard_snd, openAppRecord_snd, Tls13.openRecord, hrun]
  | _ => cases hrecord

theorem step_sealAppRecord {p : Protection} (hp : c.appWrite = some p)
    (hiv : p.iv.length = IV_LEN) (data : Bytes) :
    step k t c (.sealAppRecord data) = { c with appWrite := some p.next } := by
  obtain ⟨nonce, hnonce, -⟩ := recordNonce_eq_ok hiv p.seq
  rw [step, method, discard_snd, Tls13.sealAppRecord, exec_sealWith hp hnonce]

theorem step_openRecord {p : Protection} {wire : Bytes}
    (hbody : (recordBody CONTENT_APPDATA .unexpectedRecord wire).isOk) (hp : c.appRead = some p)
    (hiv : p.iv.length = IV_LEN) :
    step k t c (.openRecord wire) = { c with appRead := some p.next } ∧
      step k t c (.openAppRecord wire) = { c with appRead := some p.next } := by
  obtain ⟨nonce, hnonce, -⟩ := recordNonce_eq_ok hiv p.seq
  obtain ⟨inner, hinner⟩ : ∃ inner,
      recordBody CONTENT_APPDATA .unexpectedRecord wire = .ok inner := by
    rcases h : recordBody CONTENT_APPDATA .unexpectedRecord wire with e | inner
    · rw [h] at hbody
      cases hbody
    · exact ⟨inner, rfl⟩
  rw [step, step, method, method, discard_snd, discard_snd, openAppRecord_snd, Tls13.openRecord,
    exec_openWith hinner hp hnonce]
  exact ⟨rfl, rfl⟩

/-- **A call gets past its check exactly if it moves a sequence number on.** -/
theorem pastKeyCheck_iff (hc : c.Inv) {call : Call} (hrecord : call.IsRecord) :
    call.PastKeyCheck c ↔ call.step k t c ≠ c := by
  constructor
  · intro h hsame
    cases call with
    | sealAppRecord data =>
      obtain ⟨p, hp⟩ := Option.isSome_iff_exists.1 h
      rw [step_sealAppRecord hp (hc.appWrite p hp)] at hsame
      have hnext := (congrArg Tls13Client.appWrite hsame).trans hp
      exact p.next_ne (Option.some.inj hnext)
    | openRecord wire | openAppRecord wire =>
      obtain ⟨p, hp⟩ := Option.isSome_iff_exists.1 h.2
      obtain ⟨hopen, hopenApp⟩ := step_openRecord (k := k) (t := t) h.1 hp (hc.appRead p hp)
      simp only [hopen, hopenApp] at hsame
      have hnext := (congrArg Tls13Client.appRead hsame).trans hp
      exact p.next_ne (Option.some.inj hnext)
    | _ => cases hrecord
  · intro hmoved
    by_contra h
    exact hmoved (step_of_not_pastKeyCheck hrecord h)

/-- A call that is neither of a record nor an accepted flight leaves the application keys. -/
theorem appKeys_step {call : Call} (hrecord : ¬ call.IsRecord) (hflight : ¬ call.Accepts k t c) :
    (call.step k t c).appKeys = c.appKeys := by
  cases call with
  | setClientHello record => rfl
  | processServerHello wire =>
    rw [step, method, discard_snd]
    exact frames_processServerHello wire c
  | deriveHandshakeKeys sharedSecret => exact frames_deriveHandshakeKeys sharedSecret c
  | processServerFlight records =>
    rw [step, method, discard_snd]
    rcases hrun : exec (Tls13.processServerFlight k t records) c with ⟨e | outcome, c'⟩
    · exact framesError_processServerFlight records c e c' hrun
    · exact absurd ⟨outcome, c', hrun⟩ hflight
  | clientFinishedRecord =>
    rw [step, method, discard_snd]
    exact frames_clientFinishedRecord c
  | _ => exact absurd rfl hrecord

theorem not_pastKeyCheck {call : Call} (hnone : c.appKeys = (none, none)) :
    ¬ call.PastKeyCheck c := by
  obtain ⟨hread, hwrite⟩ := Prod.mk.inj hnone
  cases call <;> simp [PastKeyCheck, hread, hwrite]

/-- A run without an accepted flight ends without application keys. -/
theorem appKeys_run (k : Crates) (t : Target) (calls : List Call) :
    (Machine.run (step k t) Tls13Client.new calls).appKeys = (none, none) ∨
      ∃ pre records post, calls = pre ++ .processServerFlight records :: post ∧
        Accepts k t (Machine.run (step k t) Tls13Client.new pre)
          (.processServerFlight records) := by
  induction calls using List.reverseRecOn with
  | nil => exact .inl rfl
  | append_singleton calls call ih =>
    rcases ih with hnone | ⟨pre, records, post, rfl, hrun⟩
    · rw [Machine.run_append, Machine.run_cons, Machine.run_nil]
      by_cases hrecord : call.IsRecord
      · rw [step_of_not_pastKeyCheck hrecord (not_pastKeyCheck hnone)]
        exact .inl hnone
      by_cases hflight : call.Accepts k t (Machine.run (step k t) Tls13Client.new calls)
      · cases call with
        | processServerFlight records => exact .inr ⟨calls, records, [], rfl, hflight⟩
        | _ => exact hflight.elim
      · exact .inl ((appKeys_step hrecord hflight).trans hnone)
    · exact .inr ⟨pre, records, post ++ [call], by simp, hrun⟩

end Call

/-- **Application keys exist only after server authentication.**  Whatever the calls, one
that gets past the key check has an accepted flight before it, whose Finished matched and
whose signature verified under the leaf it returned; and a flight that fails leaves the
keys of both directions. -/
theorem appKeys_authenticated (k : Crates) (t : Target) (calls : List Call) :
    let c := Machine.run (Call.step k t) Tls13Client.new calls
    (∀ call : Call, call.PastKeyCheck c →
      ∃ pre records post outcome c', calls = pre ++ .processServerFlight records :: post ∧
        let c₀ := Machine.run (Call.step k t) Tls13Client.new pre
        exec (processServerFlight k t records) c₀ = (.ok outcome, c') ∧
          Authenticates k t c₀ records outcome) ∧
    ∀ records e c', exec (processServerFlight k t records) c = (.error e, c') →
      c'.appRead = c.appRead ∧ c'.appWrite = c.appWrite := by
  intro c
  constructor
  · intro call hpast
    rcases Call.appKeys_run k t calls with hnone | ⟨pre, records, post, heq, outcome, c', hrun⟩
    · exact absurd hpast (Call.not_pastKeyCheck hnone)
    · exact ⟨pre, records, post, outcome, c', heq, hrun, authenticates_of_eq_ok hrun⟩
  · intro records e c' hrun
    exact Prod.mk.inj (framesError_processServerFlight records c e c' hrun)

/-- A handshake with the sample server gets past the key check, and has its accepted
flight before it. -/
theorem appKeys_authenticated_sample : ∃ calls, ∃ call : Call,
    call.PastKeyCheck (Machine.run (Call.step sampleCrates .aarch64) Tls13Client.new calls) ∧
    ∃ pre records post outcome c', calls = pre ++ .processServerFlight records :: post ∧
      let c₀ := Machine.run (Call.step sampleCrates .aarch64) Tls13Client.new pre
      exec (processServerFlight sampleCrates .aarch64 records) c₀ = (.ok outcome, c') ∧
        Authenticates sampleCrates .aarch64 c₀ records outcome := by
  obtain ⟨outcome, c', hrun⟩ := @sampleClient_accepts orderedFlight
    [sampleExtensions, sampleCertificate] (by decide +kernel) (by decide +kernel)
  obtain ⟨write, read, -, -, hkeys⟩ := protections_of_eq_ok hrun
  obtain ⟨pre, hclient⟩ : ∃ pre,
      Machine.run (Call.step sampleCrates .aarch64) Tls13Client.new pre = sampleClient :=
    ⟨[.setClientHello [CONTENT_HANDSHAKE, 3, 1, 0, 1, 1], .processServerHello sampleServerHello,
      .deriveHandshakeKeys (List.replicate 32 9)], by decide +kernel⟩
  have hpast : (Call.sealAppRecord []).PastKeyCheck
      (Machine.run (Call.step sampleCrates .aarch64) Tls13Client.new
        (pre ++ [.processServerFlight orderedFlight])) := by
    rw [Machine.run_append, hclient, Machine.run_cons, Machine.run_nil, Call.step, Call.method,
      Call.discard_snd, hrun]
    exact Option.isSome_iff_exists.2 ⟨write, (Prod.mk.inj hkeys).2⟩
  exact ⟨_, _, hpast, (appKeys_authenticated sampleCrates .aarch64 _).1 _ hpast⟩

end ShadeVpn.Tls13
