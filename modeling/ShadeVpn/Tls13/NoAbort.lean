import ShadeVpn.Lib.Machine
import ShadeVpn.Tls13.CertificateSafety
import ShadeVpn.Tls13.ServerFlight

/-!
# The client on hostile bytes

Any sequence of method calls, with any bytes and any answers of the crates.  The
unwraps rest on an invariant that links the suite to the transcript and the early
secret (`Tls13Client.Inv`); every method keeps it, and returns unless it is given one of
two inputs: a ServerHello of fewer than four bytes, or on a 32-bit target a leaf
certificate with a DER length that runs past the address space.  `noAbort_iff` is
about every run.
-/

namespace ShadeVpn.Tls13

open Octets Checked Reader Fallible

variable {k : Crates} {t : Target} {c : Tls13Client} {α : Type}

/-! ## Parsers -/

theorem sound_take (n : ℕ) (r : Bytes) : Sound (take n r) := by
  rw [take, Cursor.take]
  split_ifs
  · exact sound_err _
  · exact sound_ok _

theorem sound_number (n : ℕ) (r : Bytes) :
    Sound (Cursor.number (.err .truncated) n r : Except (Stop Tls13Error) (ℕ × Bytes)) := by
  rw [Cursor.number]
  exact sound_bind (sound_take n r) fun _ _ => sound_ok _

theorem sound_recordBody (contentType : UInt8) (bad : Tls13Error) (wire : Bytes) :
    Sound (recordBody contentType bad wire) := by
  rw [recordBody]
  split_ifs with hheader
  · exact sound_err _
  · push Not at hheader
    rw [index_eq_ok (by omega), index_eq_ok (by omega)]
    simp only [bind, Except.bind]
    split_ifs with hshort
    · exact sound_err _
    · rw [slice_add_eq_ok (by omega)]
      exact sound_ok _

theorem sound_readShareEntry (share : Option (List.Vector UInt8 32)) (data : Bytes) :
    Sound (readShareEntry share data) := by
  rw [readShareEntry]
  refine sound_bind (sound_number 2 data) fun ⟨group, ks⟩ _ => ?_
  refine sound_bind (sound_number 2 ks) fun ⟨klen, ks⟩ _ => ?_
  refine sound_bind (sound_take klen ks) fun ⟨key, _⟩ hkey => ?_
  dsimp only
  split_ifs with hx25519
  · have hlen : key.length = 32 := (Cursor.take_eq_ok hkey).2.trans hx25519.2
    rw [tryInto, dif_pos hlen]
    exact sound_ok _
  · exact sound_ok _

theorem sound_readShareExtensions (extTotal read : ℕ) (share : Option (List.Vector UInt8 32))
    (sh : Bytes) : Sound (readShareExtensions extTotal read share sh) := by
  induction read, share, sh using readShareExtensions.induct extTotal with
  | case1 read share sh hmore ih =>
    rw [readShareExtensions, if_pos hmore]
    refine sound_bind (sound_number 2 sh) fun ⟨type, sh⟩ _ => ?_
    refine sound_bind (sound_number 2 sh) fun ⟨l, sh⟩ _ => ?_
    refine sound_bind (sound_take l sh) fun ⟨data, sh⟩ _ => ?_
    dsimp only
    split_ifs
    · exact sound_bind (sound_readShareEntry share data) fun share' _ => ih l sh share'
    · exact ih l sh share
  | case2 read share sh hdone =>
    rw [readShareExtensions, if_neg hdone]
    exact sound_ok _

/-- The only index of the ServerHello parser that can be out of range is the first. -/
theorem sound_readServerHello {body : Bytes} (h : 4 ≤ body.length) :
    Sound (readServerHello body) := by
  rw [readServerHello, slice_eq_ok h le_rfl]
  refine sound_bind (sound_ok _) fun sh _ => ?_
  refine sound_bind (sound_take 2 sh) fun ⟨_, sh⟩ _ => ?_
  refine sound_bind (sound_take 32 sh) fun ⟨_, sh⟩ _ => ?_
  refine sound_bind (sound_number 1 sh) fun ⟨sidLen, sh⟩ _ => ?_
  refine sound_bind (sound_take sidLen sh) fun ⟨_, sh⟩ _ => ?_
  refine sound_bind (sound_number 2 sh) fun ⟨negotiated, sh⟩ _ => ?_
  refine sound_bind (sound_okOr _ _) fun suite _ => ?_
  refine sound_bind (sound_number 1 sh) fun ⟨_, sh⟩ _ => ?_
  refine sound_bind (sound_number 2 sh) fun ⟨extTotal, sh⟩ _ => ?_
  exact sound_bind (sound_readShareExtensions extTotal 0 none sh) fun _ _ => sound_ok _

theorem sound_certificateEntry (lr : Bytes) : Sound (certificateEntry lr) := by
  rw [certificateEntry]
  refine sound_bind (sound_number 3 lr) ?_
  rintro ⟨certLen, lr⟩ -
  refine sound_bind (sound_take certLen lr) ?_
  rintro ⟨cert, lr⟩ -
  refine sound_bind (sound_number 2 lr) ?_
  rintro ⟨extLen, lr⟩ -
  exact sound_bind (sound_take extLen lr) fun _ _ => sound_ok _

theorem length_certificateEntry {lr cert rest : Bytes}
    (h : certificateEntry lr = .ok (cert, rest)) : cert.length < 2 ^ 24 := by
  simp only [certificateEntry, Cursor.bind_eq_ok, Prod.exists] at h
  obtain ⟨certLen, r₁, hcertLen, cert', r₂, hcert, _, _, _, _, _, _, h⟩ := h
  cases h
  rw [(Cursor.take_eq_ok hcert).2]
  exact lt_of_lt_of_eq (Cursor.number_eq_ok hcertLen).2 (by norm_num)

/-- The loop over the certificate list returns, and its certificates have at most the
length three bytes can give. -/
theorem certificateEntries_spec (lr : Bytes) : Sound (certificateEntries lr) ∧
    ∀ chain, certificateEntries lr = .ok chain → ∀ cert ∈ chain, cert.length < 2 ^ 24 := by
  induction lr using certificateEntries.induct with
  | case1 =>
    rw [certificateEntries]
    exact ⟨sound_ok _, fun chain hchain => by cases hchain; simp⟩
  | case2 lr hne e he =>
    obtain ⟨v, rfl⟩ := sound_certificateEntry lr e he
    have herr : certificateEntries lr = .error (.err v) := by
      rw [certificateEntries, if_neg hne]
      split
      · next he' =>
        cases he.symm.trans he'
        rfl
      · next hok => rw [he] at hok; cases hok
    rw [herr]
    exact ⟨sound_err v, by simp⟩
  | case3 lr hne cert rest hok _ ih =>
    rw [certificateEntries_of_ok hok]
    cases hrest : certificateEntries rest with
    | error e =>
      obtain ⟨v, rfl⟩ := ih.1 e hrest
      exact ⟨sound_err v, by simp [Except.map]⟩
    | ok chain =>
      refine ⟨sound_ok _, fun chain' h => ?_⟩
      cases h
      exact List.forall_mem_cons.2 ⟨length_certificateEntry hok, ih.2 chain hrest⟩

theorem sound_parseCertificateEntryBodies (body : Bytes) :
    Sound (parseCertificateEntryBodies body) := by
  rw [parseCertificateEntryBodies]
  refine sound_bind (sound_number 1 body) fun ⟨ctxLen, r⟩ _ => ?_
  refine sound_bind (sound_take ctxLen r) fun ⟨_, r⟩ _ => ?_
  refine sound_bind (sound_number 3 r) fun ⟨listLen, r⟩ _ => ?_
  exact sound_bind (sound_take listLen r) fun ⟨list, _⟩ _ => (certificateEntries_spec list).1

theorem length_parseCertificateEntryBodies {body : Bytes} {chain : List Bytes}
    (h : parseCertificateEntryBodies body = .ok chain) : ∀ cert ∈ chain, cert.length < 2 ^ 24 := by
  simp only [parseCertificateEntryBodies, Cursor.bind_eq_ok, Prod.exists] at h
  obtain ⟨_, _, -, _, _, -, _, _, -, list, _, -, h⟩ := h
  exact (certificateEntries_spec list).2 chain h

theorem sound_readCertificateVerify (body th : Bytes) : Sound (readCertificateVerify body th) := by
  rw [readCertificateVerify]
  split_ifs with hshort
  · exact sound_err _
  rw [slice_eq_ok (by omega) (by omega), slice_eq_ok (by omega) (by omega)]
  simp only [bind, Except.bind]
  split_ifs with hsig
  · exact sound_err _
  · rw [slice_add_eq_ok (by omega)]
    exact sound_ok _

theorem sound_handleMessage (h : HashAlg) (shts : Option Bytes) (seen : Seen) (m : Message)
    (th : Bytes) : Sound (handleMessage k h shts seen m th) := by
  rw [handleMessage]
  split_ifs
  · exact sound_ok _
  · exact sound_bind (sound_parseCertificateEntryBodies m.body) fun _ _ => sound_ok _
  · exact sound_bind (sound_readCertificateVerify m.body th) fun _ _ => sound_ok _
  · refine sound_bind (sound_okOr _ _) fun secret _ => ?_
    split_ifs
    · exact sound_err _
    · exact sound_ok _
  · exact sound_ok _

theorem sound_noneAs {e : Tls13Error} {x : Except (Stop Unit) α} :
    Sound (noneAs e x) ↔ Sound x := by
  rcases x with (v | _ | _ | _ | _) | a <;> simp [noneAs, Sound]

/-- The check of the signature faults where the key parsers do. -/
theorem sound_verifyCertificateVerify {scheme : ℕ} {leaf sig tbs : Bytes} :
    Sound (verifyCertificateVerify k t scheme leaf sig tbs) ↔
      Sound ((parseLeafKey leaf).run (Der.tlv t)) := by
  rw [← sound_noneAs (e := .badScheme), verifyCertificateVerify]
  rcases noneAs .badScheme ((parseLeafKey leaf).run (Der.tlv t)) with e | ⟨n, e⟩
  · exact ⟨fun h e' he' => h e' (by cases he'; rfl), fun h e' he' => h e' (by cases he'; rfl)⟩
  refine iff_of_true (sound_bind (sound_ok (n, e)) fun ⟨n, e⟩ _ => ?_) (sound_ok _)
  dsimp only
  split
  · exact sound_err _
  refine sound_bind (sound_okOr _ _) fun accepted _ => ?_
  split_ifs
  · exact sound_ok _
  · exact sound_err _

/-! ## The invariant -/

/-- A direction that is not set up or whose nonces have the length that the cipher asserts. -/
def NonceLength (p : Option Protection) : Prop := ∀ q ∈ p, q.iv.length = IV_LEN

/-- What the unwraps of the client and the assertion of its ciphers rely on. -/
structure Tls13Client.Inv (c : Tls13Client) : Prop where
  transcript : c.suite.isSome → c.transcript.isSome
  earlySecret : c.suite.isSome → c.earlySecret.isSome
  hsRead : NonceLength c.hsRead
  hsWrite : NonceLength c.hsWrite
  appRead : NonceLength c.appRead
  appWrite : NonceLength c.appWrite

theorem Tls13Client.inv_new : Tls13Client.new.Inv := by
  constructor <;> simp [Tls13Client.new, NonceLength]

/-- A method that fails with an error of its own, and keeps the invariant. -/
def Kept (e : Stop Tls13Error) (c : Tls13Client) : Prop := (∃ v, e = .err v) ∧ c.Inv

/-- A method that returns: with `Q`, or with an error. -/
abbrev Returns (c : Tls13Client) (x : Method α) (Q : α → Tls13Client → Prop) : Prop :=
  Ensures c x Q Kept

variable {Q : α → Tls13Client → Prop}

theorem returns_fail (hc : c.Inv) (e : Tls13Error) : Returns c (fail e) Q :=
  ensures_throw ⟨⟨e, rfl⟩, hc⟩

theorem returns_lift {x : Except (Stop Tls13Error) α} (hc : c.Inv) (hx : Sound x)
    (h : ∀ a, x = .ok a → Q a c) : Returns c (lift x) Q :=
  ensures_lift h fun e he => ⟨hx e he, hc⟩

theorem returns_orFail {e : Tls13Error} {o : Option α} (hc : c.Inv)
    (h : ∀ a, o = some a → Q a c) : Returns c (orFail e o) Q :=
  returns_lift hc (sound_okOr e o) fun a ha => h a (okOr_eq_ok.1 ha)

theorem returns_orPanic {o : Option α} (hc : c.Inv) (ho : o.isSome) (h : ∀ a, o = some a → Q a c) :
    Returns c (orPanic o) Q := by
  obtain ⟨a, rfl⟩ := Option.isSome_iff_exists.1 ho
  exact returns_lift hc (sound_ok a) fun b hb => h b (unwrap_eq_ok.1 hb)

/-- Returning, said of the run. -/
theorem Returns.spec {x : Method α} (h : Returns c x fun _ c' => c'.Inv) :
    Sound (exec x c).1 ∧ (exec x c).2.Inv := by
  rw [Returns, Ensures] at h
  rcases hx : exec x c with ⟨e | a, c'⟩ <;> rw [hx] at h
  · obtain ⟨⟨v, rfl⟩, hc'⟩ := h
    exact ⟨sound_err v, hc'⟩
  · exact ⟨sound_ok a, h⟩

/-- An update that keeps the invariant: what follows it needs no more of the state. -/
theorem returns_modify {f : Tls13Client → Tls13Client} {g : Unit → Method α} (hf : (f c).Inv)
    (h : ∀ c', c'.Inv → Returns c' (g ()) Q) : Returns c (modify f >>= g) Q :=
  ensures_bind (ensures_modify (h (f c) hf))

theorem returns_protectionOf {Q : Protection → Tls13Client → Prop} (hc : c.Inv)
    (suite : CipherSuite) (secret : Bytes) (h : ∀ p, NonceLength (some p) → Q p c) :
    Returns c (lift (protectionOf k suite secret)) Q := by
  obtain ⟨p, hp, hlen⟩ := protectionOf_eq_ok k suite secret
  rw [hp]
  refine returns_lift hc (sound_ok p) fun q hq => ?_
  cases hq
  exact h p (by simpa [NonceLength] using hlen)

/-! ## The methods -/

theorem returns_setClientHello (hc : c.Inv) (record : Bytes) :
    Returns c (setClientHello record) fun _ c' => c'.Inv :=
  ensures_modify { hc with }

/-- A ServerHello record whose message ends before its header does. -/
def ShortServerHello (wire : Bytes) : Prop :=
  ∃ body, recordBody CONTENT_HANDSHAKE .badRecord wire = .ok body ∧
    body.head? = some HS_SERVER_HELLO ∧ body.length < 4

theorem returns_processServerHello (hc : c.Inv) {wire : Bytes} (h : ¬ ShortServerHello wire) :
    Returns c (processServerHello k wire) fun _ c' => c'.Inv := by
  refine ensures_bind (returns_lift hc (sound_recordBody _ _ wire) fun body hbody => ?_)
  split_ifs with htype
  · exact returns_fail hc _
  have hlong : 4 ≤ body.length := by
    by_contra hshort
    exact h ⟨body, hbody, not_not.1 htype, by omega⟩
  refine ensures_bind (returns_lift hc (sound_readServerHello hlong) fun ⟨suite, share⟩ _ => ?_)
  refine ensures_bind (ensures_get ?_)
  refine ensures_bind (returns_orFail hc fun hello _ => ?_)
  refine ensures_bind (returns_orFail hc fun helloHs _ => ?_)
  refine returns_modify ⟨fun _ => rfl, fun _ => rfl, hc.hsRead, hc.hsWrite, hc.appRead,
    hc.appWrite⟩ fun c' hc' => ?_
  exact returns_orFail hc' fun _ _ => hc'

theorem returns_deriveHandshakeKeys (hc : c.Inv) (sharedSecret : Bytes) :
    Returns c (deriveHandshakeKeys k sharedSecret) fun _ c' => c'.Inv := by
  refine ensures_bind (ensures_get ?_)
  refine ensures_bind (returns_orFail hc fun suite hsuite => ?_)
  have hset : c.suite.isSome := by rw [hsuite]; rfl
  refine ensures_bind (returns_orPanic hc (hc.earlySecret hset) fun early _ => ?_)
  refine returns_modify ⟨hc.transcript, hc.earlySecret, hc.hsRead, hc.hsWrite, hc.appRead,
    hc.appWrite⟩ fun c₁ hc₁ => ?_
  refine ensures_bind (returns_orPanic hc₁ (hc.transcript hset) fun transcript _ => ?_)
  refine returns_modify ⟨hc₁.transcript, hc₁.earlySecret, hc₁.hsRead, hc₁.hsWrite, hc₁.appRead,
    hc₁.appWrite⟩ fun c₂ hc₂ => ?_
  refine ensures_bind (returns_protectionOf hc₂ suite _ fun read hread => ?_)
  refine returns_modify { hc₂ with hsRead := hread } fun c₃ hc₃ => ?_
  refine ensures_bind (returns_protectionOf hc₃ suite _ fun write hwrite => ?_)
  exact ensures_modify { hc₃ with hsWrite := hwrite }

/-! ## Records -/

theorem sound_open (cipher : RecordCipher) {nonce : Bytes} (h : nonce.length = IV_LEN)
    (ciphertext aad : Bytes) : Sound (cipher.open k nonce ciphertext aad) := by
  rw [cipher.open_of_length k h]
  exact sound_okOr _ _

theorem sound_seal (cipher : RecordCipher) {nonce : Bytes} (h : nonce.length = IV_LEN)
    (plaintext aad : Bytes) : Sound (cipher.seal k nonce plaintext aad) := by
  rw [cipher.seal_of_length k h]
  exact sound_okOr _ _

/-- Reading the protection of one direction and moving its sequence number on, as all
records do: the nonce has its length. -/
theorem returns_nonce {p : Protection} {Q : Bytes → Tls13Client → Prop} (hc : c.Inv)
    (hp : NonceLength (some p)) (h : ∀ nonce, nonce.length = IV_LEN → Q nonce c) :
    Returns c (lift (recordNonce p.iv p.seq)) Q := by
  obtain ⟨nonce, hnonce, hlen⟩ := recordNonce_eq_ok (hp p rfl) p.seq
  rw [hnonce]
  refine returns_lift hc (sound_ok nonce) fun n hn => ?_
  cases hn
  exact h nonce hlen

section Records

variable {field : Tls13Client → Option Protection}
  {update : Protection → Tls13Client → Tls13Client}

theorem returns_openWith (hc : c.Inv) (bad : Tls13Error) (hfield : NonceLength (field c))
    (hupdate : ∀ p, NonceLength (some p) → (update p c).Inv) (wire : Bytes) :
    Returns c (openWith k bad field update wire) fun _ c' => c'.Inv := by
  refine ensures_bind (returns_lift hc (sound_recordBody _ _ wire) fun inner hinner => ?_)
  have hwire : 5 ≤ wire.length := by
    by_contra hshort
    rw [recordBody, if_pos (Or.inl (by omega))] at hinner
    cases hinner
  refine ensures_bind (returns_lift hc ?_ fun aad _ => ?_)
  · rw [slice_eq_ok (by omega) hwire]
    exact sound_ok _
  refine ensures_bind (ensures_get ?_)
  refine ensures_bind (returns_orFail hc fun p hp => ?_)
  rw [hp] at hfield
  refine ensures_bind (returns_nonce hc hfield fun nonce hnonce => ?_)
  refine ensures_bind (ensures_modify ?_)
  have hc' := hupdate p.next (by simpa [NonceLength, Protection.next] using hfield)
  refine ensures_bind (returns_lift hc' (sound_open _ hnonce _ _) fun plain _ => ?_)
  exact returns_lift hc' (sound_stripInnerPadding plain) fun _ _ => hc'

theorem returns_sealWith (hc : c.Inv) (missing : Tls13Error) (hfield : NonceLength (field c))
    (hupdate : ∀ p, NonceLength (some p) → (update p c).Inv) (contentType : UInt8) (data : Bytes) :
    Returns c (sealWith k missing field update contentType data) fun _ c' => c'.Inv := by
  refine ensures_bind (ensures_get ?_)
  refine ensures_bind (returns_orFail hc fun p hp => ?_)
  rw [hp] at hfield
  refine ensures_bind (returns_nonce hc hfield fun nonce hnonce => ?_)
  refine ensures_bind (ensures_modify ?_)
  have hc' := hupdate p.next (by simpa [NonceLength, Protection.next] using hfield)
  exact ensures_bind (returns_lift hc' (sound_seal _ hnonce _ _) fun _ _ => ensures_pure hc')

end Records

theorem returns_openHsRecord (hc : c.Inv) (wire : Bytes) :
    Returns c (openHsRecord k wire) fun _ c' => c'.Inv :=
  returns_openWith hc _ hc.hsRead (fun _ hp => { hc with hsRead := hp }) wire

theorem returns_openRecord (hc : c.Inv) (wire : Bytes) :
    Returns c (openRecord k wire) fun _ c' => c'.Inv :=
  returns_openWith hc _ hc.appRead (fun _ hp => { hc with appRead := hp }) wire

theorem returns_openAppRecord (hc : c.Inv) (wire : Bytes) :
    Returns c (openAppRecord k wire) fun _ c' => c'.Inv := by
  refine ensures_bind ((returns_openRecord hc wire).mono (fun ⟨ct, payload⟩ c' hc' => ?_)
    fun _ _ h => h)
  dsimp only
  split_ifs
  · exact returns_fail hc' _
  · exact ensures_pure hc'

theorem returns_sealAppRecord (hc : c.Inv) (data : Bytes) :
    Returns c (sealAppRecord k data) fun _ c' => c'.Inv :=
  returns_sealWith hc _ hc.appWrite (fun _ hp => { hc with appWrite := hp }) _ data

theorem returns_clientFinishedRecord (hc : c.Inv) :
    Returns c (clientFinishedRecord k) fun _ c' => c'.Inv := by
  refine ensures_bind (ensures_get ?_)
  refine ensures_bind (returns_orFail hc fun suite hsuite => ?_)
  refine ensures_bind (returns_orFail hc fun chts _ => ?_)
  have hset : c.suite.isSome := by rw [hsuite]; rfl
  refine ensures_bind (returns_orPanic hc (hc.transcript hset) fun transcript _ => ?_)
  refine returns_modify { hc with transcript := fun _ => rfl } fun c' hc' => ?_
  exact returns_sealWith hc' _ hc'.hsWrite (fun _ hp => { hc' with hsWrite := hp }) _ _

/-! ## The flight -/

theorem returns_takeMessage (hc : c.Inv) (htr : c.transcript.isSome) (buf : Bytes) (m : Message) :
    Returns c (takeMessage k buf m) fun _ c' => c'.Inv ∧ c'.transcript.isSome := by
  refine ensures_bind (ensures_get ?_)
  refine ensures_bind (returns_orPanic hc htr fun transcript _ => ?_)
  refine ensures_bind (ensures_modify ?_)
  exact ensures_pure ⟨{ hc with transcript := fun _ => rfl }, rfl⟩

/-- Opening a record leaves the transcript alone. -/
theorem returns_openHsRecord_transcript (hc : c.Inv) (htr : c.transcript.isSome) (wire : Bytes) :
    Returns c (openHsRecord k wire) fun _ c' => c'.Inv ∧ c'.transcript.isSome := by
  refine (returns_openHsRecord hc wire).and_exec.mono (fun r c' h => ⟨h.2, ?_⟩) fun _ _ h => h
  obtain ⟨-, rfl⟩ := openHsRecord_eq_ok.1 h.1
  exact htr

theorem returns_flightLoop {h : HashAlg} {pending rest : Bytes} {seen : Seen} (hc : c.Inv)
    (htr : c.transcript.isSome) :
    Returns c (flightLoop k h pending rest seen) fun _ c' => c'.Inv ∧ c'.transcript.isSome := by
  induction pending, rest, seen using flightLoop.induct generalizing c with
  | case1 pending rest seen hfin =>
    rw [flightLoop_finished hfin]
    exact ensures_pure ⟨hc, htr⟩
  | case2 pending rest seen hgoing m hfront ih =>
    rw [flightLoop_front (by simpa using hgoing) hfront]
    refine ensures_bind ((returns_takeMessage hc htr pending m).mono ?_ fun _ _ h => h)
    rintro th c₁ ⟨hc₁, htr₁⟩
    refine ensures_bind (ensures_get ?_)
    refine ensures_bind (returns_lift hc₁ (sound_handleMessage h _ seen m th) fun seen₁ _ => ?_)
    exact ih seen₁ hc₁ htr₁
  | case3 pending rest seen hgoing hfront hshort =>
    rw [flightLoop_record (by simpa using hgoing) hfront, if_pos hshort]
    exact returns_fail hc _
  | case4 pending rest seen hgoing hfront hheader hshort =>
    rw [flightLoop_record (by simpa using hgoing) hfront, if_neg hheader, if_pos hshort]
    exact returns_fail hc _
  | case5 pending rest seen hgoing hfront hheader hwhole hccs ih =>
    rw [flightLoop_record (by simpa using hgoing) hfront, if_neg hheader, if_neg hwhole,
      if_pos hccs]
    exact ih hc htr
  | case6 pending rest seen hgoing hfront hheader hwhole hccs ih =>
    rw [flightLoop_record (by simpa using hgoing) hfront, if_neg hheader, if_neg hwhole,
      if_neg hccs]
    refine ensures_bind ((returns_openHsRecord_transcript hc htr _).mono ?_ fun _ _ h => h)
    rintro ⟨ct, payload⟩ c₁ ⟨hc₁, htr₁⟩
    dsimp only
    split_ifs
    · exact returns_fail hc₁ _
    · exact ih payload hc₁ htr₁

theorem returns_deriveAppKeys (hc : c.Inv) (htr : c.transcript.isSome) (suite : CipherSuite)
    (serverChain : List Bytes) :
    Returns c (deriveAppKeys k suite serverChain) fun _ c' => c'.Inv := by
  refine ensures_bind (ensures_get ?_)
  refine ensures_bind (returns_orPanic hc htr fun transcript _ => ?_)
  refine ensures_bind (returns_orFail hc fun master _ => ?_)
  refine returns_modify ⟨hc.transcript, hc.earlySecret, hc.hsRead, hc.hsWrite, hc.appRead,
    hc.appWrite⟩ fun c₁ hc₁ => ?_
  refine ensures_bind (returns_protectionOf hc₁ suite _ fun write hwrite => ?_)
  refine returns_modify { hc₁ with appWrite := hwrite } fun c₂ hc₂ => ?_
  refine ensures_bind (returns_protectionOf hc₂ suite _ fun read hread => ?_)
  refine returns_modify { hc₂ with appRead := hread } fun c₃ hc₃ => ?_
  exact ensures_pure hc₃

/-- The leaf certificate that a flight brings to the check of its signature, if its
messages are handled through a Finished and carry a CertificateVerify. -/
def flightLeaf (k : Crates) (c : Tls13Client) (records : Bytes) : Option Bytes := do
  let suite ← c.suite
  let tr ← c.transcript
  match readMessages k suite.hash c.shts tr ⟨[], none, false⟩
    (flightMessages k c.hsRead records) with
  | .ok seen => if seen.gotFinished ∧ seen.cv.isSome then seen.serverChain.head? else none
  | .error _ => none

/-- On a 32-bit target, every DER value that the key parsers read of the leaf of a
flight ends, as it declares, within the address space. -/
def FlightFits (k : Crates) (t : Target) (c : Tls13Client) (records : Bytes) : Prop :=
  t = .armv7 → ∀ leaf ∈ flightLeaf k c records, ∀ d ∈ keyCursors leaf, d.Fits .armv7

/-- A chain the flight remembers came out of a Certificate. -/
theorem length_readMessages {h : HashAlg} {shts : Option Bytes} {tr : Transcript}
    {seen seen' : Seen} {ms : List Message}
    (hseen : ∀ cert ∈ seen.serverChain, cert.length < 2 ^ 24)
    (hread : readMessages k h shts tr seen ms = .ok seen') :
    ∀ cert ∈ seen'.serverChain, cert.length < 2 ^ 24 := by
  induction ms generalizing tr seen with
  | nil =>
    cases hread
    exact hseen
  | cons m ms ih =>
    simp only [readMessages, Cursor.bind_eq_ok] at hread
    obtain ⟨seen₁, hm, hread⟩ := hread
    refine ih ?_ hread
    have hhandled := handled_of_eq_ok hm
    by_cases htype : m.type = HS_CERTIFICATE
    · exact length_parseCertificateEntryBodies (hhandled.certificate htype)
    · rw [hhandled.serverChain htype]
      exact hseen

theorem flightLeaf_eq_some {records leaf : Bytes} :
    flightLeaf k c records = some leaf ↔ ∃ suite tr seen, c.suite = some suite ∧
      c.transcript = some tr ∧ readMessages k suite.hash c.shts tr ⟨[], none, false⟩
        (flightMessages k c.hsRead records) = .ok seen ∧
      seen.gotFinished = true ∧ seen.cv.isSome ∧ seen.serverChain.head? = some leaf := by
  rw [flightLeaf]
  rcases c.suite with _ | suite
  · simp
  rcases c.transcript with _ | tr
  · simp
  simp only [Option.bind_eq_bind, Option.bind_some]
  cases hread : readMessages k suite.hash c.shts tr ⟨[], none, false⟩
    (flightMessages k c.hsRead records) <;> simp [hread, and_assoc]

theorem returns_processServerFlight (hc : c.Inv) {records : Bytes}
    (hfits : FlightFits k t c records) :
    Returns c (processServerFlight k t records) fun _ c' => c'.Inv := by
  refine ensures_bind (ensures_get ?_)
  refine ensures_bind (returns_orFail hc fun suite hsuite => ?_)
  have htr : c.transcript.isSome := hc.transcript (by rw [hsuite]; rfl)
  refine ensures_bind ((returns_flightLoop hc htr).and_exec.mono ?_ fun _ _ h => h)
  rintro seen c₁ ⟨hloop, hc₁, htr₁⟩
  refine ensures_bind (returns_orFail hc₁ fun ⟨scheme, sig, tbs⟩ hcv => ?_)
  refine ensures_bind (returns_orFail hc₁ fun leaf hleaf => ?_)
  obtain ⟨hgot, tr, htr, hread⟩ := flightLoop_eq_ok rfl hloop
  have hkeys : Sound ((parseLeafKey leaf).run (Der.tlv t)) := by
    have hlen : leaf.length < 2 ^ 24 :=
      length_readMessages (by simp) hread leaf (List.mem_of_mem_head? hleaf)
    refine parseLeafKey_sound (lt_trans hlen (by norm_num)) fun harm => ?_
    rw [harm]
    exact hfits harm leaf (flightLeaf_eq_some.2
      ⟨suite, tr, seen, hsuite, htr, hread, hgot, by rw [hcv]; rfl, hleaf⟩)
  refine ensures_bind (returns_lift hc₁ (sound_verifyCertificateVerify.2 hkeys) fun _ _ => ?_)
  exact returns_deriveAppKeys hc₁ htr₁ suite seen.serverChain

/-- A leaf that does not fit aborts the client. -/
theorem not_sound_processServerFlight {records : Bytes} (h : ¬ FlightFits k t c records) :
    ¬ Sound (exec (processServerFlight k t records) c).1 := by
  simp only [FlightFits, not_forall] at h
  obtain ⟨rfl, leaf, hleaf, d, hd, hfits⟩ := h
  obtain ⟨suite, tr, seen, hsuite, htr, hread, hgot, hcv, hhead⟩ := flightLeaf_eq_some.1 hleaf
  obtain ⟨⟨scheme, sig, tbs⟩, hcv⟩ := Option.isSome_iff_exists.1 hcv
  have hread' : readMessages k suite.hash c.shts tr ⟨[], none, false⟩
      (throughFinished (messages ([] ++ flightPayload k c.hsRead records))) = .ok seen := hread
  obtain ⟨tr', hsRead, hloop⟩ := flightLoop_of_readMessages rfl htr hread' hgot
  have hlen : leaf.length < 2 ^ 24 :=
    length_readMessages (by simp) hread leaf (List.mem_of_mem_head? hhead)
  have hverify : ¬ Sound (verifyCertificateVerify k .armv7 scheme leaf sig tbs) := fun hs =>
    not_sound_parseLeafKey hlen ⟨d, hd, hfits⟩ (sound_verifyCertificateVerify.1 hs)
  cases he : verifyCertificateVerify k .armv7 scheme leaf sig tbs with
  | ok _ => exact absurd (he ▸ sound_ok _) hverify
  | error e =>
    have hrun : (exec (processServerFlight k .armv7 records) c).1 = .error e := by
      simp only [processServerFlight, orFail, exec_bind, exec_get, exec_lift, hsuite, okOr, hloop,
        hcv, hhead, he]
    rw [hrun]
    exact fun hs => hverify (he ▸ fun e' he' => by cases he'; exact hs e rfl)

/-! ## Runs -/

/-- A call of a method. -/
inductive Call where
  | setClientHello (record : Bytes)
  | processServerHello (wire : Bytes)
  | deriveHandshakeKeys (sharedSecret : Bytes)
  | processServerFlight (records : Bytes)
  | clientFinishedRecord
  | sealAppRecord (data : Bytes)
  | openRecord (wire : Bytes)
  | openAppRecord (wire : Bytes)

namespace Call

/-- A method, its value dropped. -/
def discard (x : Method α) : Method Unit := x >>= fun _ => pure ()

/-- The method called. -/
def method (k : Crates) (t : Target) : Call → Method Unit
  | setClientHello record => Tls13.setClientHello record
  | processServerHello wire => discard (Tls13.processServerHello k wire)
  | deriveHandshakeKeys sharedSecret => Tls13.deriveHandshakeKeys k sharedSecret
  | processServerFlight records => discard (Tls13.processServerFlight k t records)
  | clientFinishedRecord => discard (Tls13.clientFinishedRecord k)
  | sealAppRecord data => discard (Tls13.sealAppRecord k data)
  | openRecord wire => discard (Tls13.openRecord k wire)
  | openAppRecord wire => discard (Tls13.openAppRecord k wire)

/-- The client behind a call. -/
def step (k : Crates) (t : Target) (c : Tls13Client) (call : Call) : Tls13Client :=
  (exec (call.method k t) c).2

/-- A call that returns `Ok` or `Err`. -/
def Returns (k : Crates) (t : Target) (c : Tls13Client) (call : Call) : Prop :=
  Sound (exec (call.method k t) c).1

/-- A call with neither of the two inputs that abort. -/
def Fits (k : Crates) (t : Target) (c : Tls13Client) : Call → Prop
  | processServerHello wire => ¬ ShortServerHello wire
  | processServerFlight records => FlightFits k t c records
  | _ => True

theorem returns_discard {x : Method α} (h : Tls13.Returns c x fun _ c' => c'.Inv) :
    Tls13.Returns c (discard x) fun _ c' => c'.Inv :=
  ensures_bind (h.mono (fun _ _ hc' => ensures_pure hc') fun _ _ he => he)

theorem sound_of_discard {x : Method α} (h : Sound (exec (discard x) c).1) :
    Sound (exec x c).1 := by
  rw [discard, exec_bind] at h
  rcases hx : exec x c with ⟨e | a, c'⟩ <;> rw [hx] at h
  · exact fun e' he' => h e' (by cases he'; rfl)
  · exact sound_ok a

/-- A call that fits returns, and keeps the invariant. -/
theorem returns_of_fits (hc : c.Inv) {call : Call} (h : call.Fits k t c) :
    Tls13.Returns c (call.method k t) fun _ c' => c'.Inv := by
  cases call with
  | setClientHello record => exact returns_setClientHello hc record
  | processServerHello wire => exact returns_discard (returns_processServerHello hc h)
  | deriveHandshakeKeys sharedSecret => exact returns_deriveHandshakeKeys hc sharedSecret
  | processServerFlight records => exact returns_discard (returns_processServerFlight hc h)
  | clientFinishedRecord => exact returns_discard (returns_clientFinishedRecord hc)
  | sealAppRecord data => exact returns_discard (returns_sealAppRecord hc data)
  | openRecord wire => exact returns_discard (returns_openRecord hc wire)
  | openAppRecord wire => exact returns_discard (returns_openAppRecord hc wire)

theorem not_returns_shortServerHello {wire : Bytes} (h : ShortServerHello wire) :
    ¬ Returns k t c (.processServerHello wire) := by
  obtain ⟨body, hbody, htype, hshort⟩ := h
  have hslice : readServerHello body = .error .panic := by
    rw [readServerHello, slice, if_neg (by omega)]
    rfl
  have hrun : (exec (Tls13.processServerHello k wire) c).1 = .error .panic := by
    simp only [Tls13.processServerHello, exec_bind, exec_lift, hbody, htype, ne_eq,
      not_true_eq_false, if_false, hslice]
  intro hs
  simpa using sound_of_discard hs _ hrun

/-- **A call returns exactly if it fits.** -/
theorem returns_iff_fits (hc : c.Inv) (call : Call) : Returns k t c call ↔ Fits k t c call := by
  constructor
  · intro hs
    cases call with
    | processServerHello wire => exact fun hshort => not_returns_shortServerHello hshort hs
    | processServerFlight records =>
      by_contra hfits
      exact not_sound_processServerFlight hfits (sound_of_discard hs)
    | _ => trivial
  · intro hfits
    exact (returns_of_fits hc hfits).spec.1

theorem inv_step (hc : c.Inv) {call : Call} (h : Returns k t c call) : (step k t c call).Inv :=
  (returns_of_fits hc ((returns_iff_fits hc call).1 h)).spec.2

end Call

/-- **No call of a run aborts exactly if every call of it fits.** -/
theorem noAbort_iff (k : Crates) (t : Target) (calls : List Call) :
    Machine.Along (Call.step k t) (Call.Returns k t) Tls13Client.new calls ↔
      Machine.Along (Call.step k t) (Call.Fits k t) Tls13Client.new calls := by
  have hstep : ∀ (c : Tls13Client) (call : Call), c.Inv →
      (Call.Returns k t c call ↔ Call.Fits k t c call) :=
    fun _ call hc => Call.returns_iff_fits hc call
  have hinv : ∀ (c : Tls13Client) (call : Call), c.Inv → Call.Returns k t c call →
      (Call.step k t c call).Inv := fun _ _ hc h => Call.inv_step hc h
  exact Machine.along_iff_along hstep hinv calls Tls13Client.inv_new

/-- A ServerHello record of one byte, the first thing a server can send. -/
theorem not_noAbort : ¬ Machine.Along (Call.step sampleCrates .aarch64)
    (Call.Returns sampleCrates .aarch64) Tls13Client.new
    [.processServerHello [CONTENT_HANDSHAKE, 3, 3, 0, 1, HS_SERVER_HELLO]] := by
  rintro ⟨h, -⟩
  refine Call.not_returns_shortServerHello ⟨[HS_SERVER_HELLO], ?_, rfl, by decide⟩ h
  decide +kernel

end ShadeVpn.Tls13
