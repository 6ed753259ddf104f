import ShadeVpn.Tls.RoundTrip

/-!
# Declared lengths of an accepted hello

A hello whose lengths are all right is the encoding of a `WireHello` whose parts
know their own length.  The parser accepts encodings only (`exists_of_parse`), and
inside the extensions it looks at it checks every length but one: the loop over
the shares of a key_share body stops at the first share that ends at or past the
declared list length, and nothing compares the two.

* `consistentLengths_iff` — an accepted hello has consistent lengths if and only
  if its key_share lists do.
* `not_consistentLengths` — a hello whose only share stands behind a list length
  of one.
-/

namespace ShadeVpn.Tls

open Octets Checked Reader Cursor

/-! ## Length prefixes -/

/-- A byte string behind its length in `k` bytes. -/
def lengthPrefixed (k : ℕ) (bs : Bytes) : Bytes := toBE k bs.length ++ bs

theorem length_lengthPrefixed (k : ℕ) (bs : Bytes) :
    (lengthPrefixed k bs).length = k + bs.length := by
  simp [lengthPrefixed]

/-- A length prefix says where its byte string ends. -/
theorem lengthPrefixed_append_inj {k : ℕ} {a b x y : Bytes} (ha : a.length < 256 ^ k)
    (hb : b.length < 256 ^ k) (h : lengthPrefixed k a ++ x = lengthPrefixed k b ++ y) :
    a = b ∧ x = y := by
  rw [lengthPrefixed, lengthPrefixed, List.append_assoc, List.append_assoc] at h
  obtain ⟨hnum, hrest⟩ := List.append_inj h (by simp)
  exact List.append_inj hrest (toBE_injOn ha hb hnum)

theorem lengthPrefixed_inj {k : ℕ} {a b : Bytes} (ha : a.length < 256 ^ k)
    (hb : b.length < 256 ^ k) (h : lengthPrefixed k a = lengthPrefixed k b) : a = b :=
  (lengthPrefixed_append_inj (x := []) (y := []) ha hb (by simpa using h)).1

variable {k n : ℕ} {r rest xs : Bytes}

/-- A length and as many bytes were read. -/
theorem lengthPrefixed_of_take {ε : Type} {short : ε} {r₁ : Bytes}
    (hnum : number short k r = .ok (n, r₁)) (htake : Cursor.take short n r₁ = .ok (xs, rest)) :
    r = lengthPrefixed k xs ++ rest ∧ xs.length < 256 ^ k := by
  obtain ⟨rfl, rfl⟩ := Cursor.take_eq_ok htake
  refine ⟨?_, (Cursor.number_eq_ok hnum).2⟩
  rw [lengthPrefixed, List.append_assoc]
  exact Cursor.number_eq_ok_toBE hnum

/-- A length was read that is the length of all the rest. -/
theorem lengthPrefixed_of_rest (hnum : number TlsError.truncated k r = .ok (n, rest))
    (hlen : rest.length = n) : r = lengthPrefixed k rest ∧ rest.length < 256 ^ k := by
  subst hlen
  exact ⟨Cursor.number_eq_ok_toBE hnum, (Cursor.number_eq_ok hnum).2⟩

/-! ## The syntax of a hello -/

/-- The parts of a ClientHello record, without any length. -/
structure WireHello where
  recordVersion : List.Vector UInt8 2
  legacyVersion : List.Vector UInt8 2
  random : List.Vector UInt8 32
  sessionId : Bytes
  ciphers : Bytes
  compressions : Bytes
  extensions : List (Extension UInt8)

namespace WireHello

/-- The hello behind the handshake header. -/
def body (t : WireHello) : Bytes :=
  t.legacyVersion.toList ++ (t.random.toList ++ (lengthPrefixed 1 t.sessionId
    ++ (lengthPrefixed 2 t.ciphers ++ (lengthPrefixed 1 t.compressions
      ++ lengthPrefixed 2 (t.extensions.flatMap pushExtension)))))

/-- The handshake message. -/
def message (t : WireHello) : Bytes := toBE 1 HS_CLIENT_HELLO ++ lengthPrefixed 3 t.body

/-- The record. -/
def encode (t : WireHello) : Bytes :=
  toBE 1 CONTENT_HANDSHAKE ++ (t.recordVersion.toList ++ lengthPrefixed 2 t.message)

/-- Every part fits the length field in front of it. -/
structure Fits (t : WireHello) : Prop where
  message : t.message.length < 256 ^ 2
  body : t.body.length < 256 ^ 3
  sessionId : t.sessionId.length < 256 ^ 1
  ciphers : t.ciphers.length < 256 ^ 2
  compressions : t.compressions.length < 256 ^ 1
  block : (t.extensions.flatMap pushExtension).length < 256 ^ 2
  extensions : ∀ e ∈ t.extensions, e.Fits

end WireHello

/-- Extension blocks have one reading. -/
theorem flatMap_pushExtension_inj {es fs : List (Extension UInt8)} (hes : ∀ e ∈ es, e.Fits)
    (hfs : ∀ f ∈ fs, f.Fits) (h : es.flatMap pushExtension = fs.flatMap pushExtension) :
    es = fs := by
  induction es generalizing fs with
  | nil =>
    cases fs with
    | nil => rfl
    | cons f fs => simp [pushExtension, toBE] at h
  | cons e es ih =>
    cases fs with
    | nil => simp [pushExtension, toBE] at h
    | cons f fs =>
      obtain ⟨hetype, helen⟩ := hes e List.mem_cons_self
      obtain ⟨hftype, hflen⟩ := hfs f List.mem_cons_self
      have hpush (g : Extension UInt8) (tail : Bytes) :
          pushExtension g ++ tail = toBE 2 g.1 ++ (lengthPrefixed 2 g.2 ++ tail) := by
        simp [pushExtension, lengthPrefixed]
      rw [List.flatMap_cons, List.flatMap_cons, hpush, hpush] at h
      obtain ⟨htype, hrest⟩ := List.append_inj h (by simp)
      obtain ⟨hbody, htail⟩ := lengthPrefixed_append_inj (by simpa using helen)
        (by simpa using hflen) hrest
      have htype' := toBE_injOn (k := 2) (by simpa using hetype) (by simpa using hftype) htype
      rw [Prod.ext htype' hbody, ih (fun g hg => hes g (List.mem_cons_of_mem e hg))
        (fun g hg => hfs g (List.mem_cons_of_mem f hg)) htail]

/-- **A record is the encoding of one hello.** -/
theorem WireHello.encode_inj {t u : WireHello} (ht : t.Fits) (hu : u.Fits)
    (h : t.encode = u.encode) : t = u := by
  obtain ⟨hversion, hmessage⟩ := List.append_inj (List.append_cancel_left h) (by simp)
  have hbody := List.append_cancel_left (lengthPrefixed_inj ht.message hu.message hmessage)
  obtain ⟨hlegacy, hbody⟩ :=
    List.append_inj (lengthPrefixed_inj ht.body hu.body hbody) (by simp)
  obtain ⟨hrandom, hbody⟩ := List.append_inj hbody (by simp)
  obtain ⟨hsid, hbody⟩ := lengthPrefixed_append_inj ht.sessionId hu.sessionId hbody
  obtain ⟨hciphers, hbody⟩ := lengthPrefixed_append_inj ht.ciphers hu.ciphers hbody
  obtain ⟨hcomps, hblock⟩ := lengthPrefixed_append_inj ht.compressions hu.compressions hbody
  have hexts := flatMap_pushExtension_inj ht.extensions hu.extensions
    (lengthPrefixed_inj ht.block hu.block hblock)
  cases t
  cases u
  simp only [WireHello.mk.injEq]
  exact ⟨List.Vector.toList_injective hversion, List.Vector.toList_injective hlegacy,
    List.Vector.toList_injective hrandom, hsid, hciphers, hcomps, hexts⟩

/-! ## What the parser accepts -/

/-- A check that returns an error was passed. -/
theorem ite_error_eq_ok {α : Type} {c : Prop} [Decidable c] {e : TlsError}
    {x : Except TlsError α} {a : α} :
    (if c then .error e else x) = .ok a ↔ ¬ c ∧ x = .ok a := by
  split_ifs with hc <;> simp [hc]

/-- The extension loop has read whole extensions, and all of its block. -/
theorem exists_of_readExtensions {extTotal extRead : ℕ} (hread : extRead ≤ extTotal)
    {f f' : HelloFields UInt8} {r rest : Bytes}
    (h : readExtensions extTotal extRead f r = .ok (f', rest)) :
    ∃ es : List (Extension UInt8), (∀ e ∈ es, e.Fits) ∧ r = es.flatMap pushExtension ++ rest ∧
      extTotal = extRead + (es.flatMap pushExtension).length ∧
      es.foldlM readExtension f = .ok f' := by
  rw [readExtensions] at h
  split_ifs at h with hmore
  · simp only [bind_eq_ok, Prod.exists, ite_error_eq_ok] at h
    obtain ⟨extType, r₁, htype, extLen, r₂, hlen, hfits, body, r₃, hbody, g, hext, h⟩ := h
    obtain ⟨es, hes, rfl, htotal, hfold⟩ := exists_of_readExtensions (by omega) h
    have hr := Cursor.number_eq_ok_toBE htype
    obtain ⟨rfl, hbodyLen⟩ := lengthPrefixed_of_take hlen hbody
    obtain ⟨-, rfl⟩ := Cursor.take_eq_ok hbody
    have hpush : pushExtension (extType, body) = toBE 2 extType ++ lengthPrefixed 2 body := by
      simp [pushExtension, lengthPrefixed]
    refine ⟨(extType, body) :: es, List.forall_mem_cons.2 ⟨⟨?_, ?_⟩, hes⟩, ?_, ?_, ?_⟩
    · simpa using (Cursor.number_eq_ok htype).2
    · simpa using hbodyLen
    · rw [hr, List.flatMap_cons, hpush]
      simp only [List.append_assoc]
    · rw [List.flatMap_cons, List.length_append, length_pushExtension]
      dsimp only
      omega
    · rw [List.foldlM_cons, hext]
      exact hfold
  · cases h
    exact ⟨[], by simp, rfl, by simp; omega, rfl⟩
termination_by extTotal - extRead

/-- **The parser accepts encodings only**, and reads every extension of theirs. -/
theorem exists_of_parse {w : Bytes} {hello : ParsedClientHello UInt8}
    (h : parseClientHello w = .ok hello) :
    ∃ t : WireHello, t.Fits ∧ t.encode = w ∧
      ∃ f, t.extensions.foldlM readExtension ⟨none, none, false⟩ = .ok f := by
  simp only [parseClientHello, readHelloHeaders, bind_eq_ok, Prod.exists, ite_error_eq_ok] at h
  obtain ⟨r, ⟨_, w₁, htype, htypeVal, version, w₂, hversion, -, _, w₃, hrecord, hrecordLen, _, w₄,
    hmsg, hmsgVal, _, body, hbody, hbodyLen, hr⟩, legacy, r₁, hlegacy, random, r₂, hrandom, _,
      r₃, hsid,
    -, sid, r₄, hsidTake, _, r₅, hciphers, -, ciphers, r₆, hciphersTake, _, r₇, hcomps, comps, r₈,
    hcompsTake, _, r₉, hexts, f, r₁₀, hloop, hdone, -⟩ := h
  obtain rfl := Except.ok.inj hr
  obtain ⟨es, hes, rfl, htotal, hfold⟩ := exists_of_readExtensions (Nat.zero_le _) hloop
  obtain rfl := not_not.1 hdone
  rw [List.append_nil] at hexts
  have hblock := lengthPrefixed_of_rest hexts (by omega)
  have hcompsEq := lengthPrefixed_of_take hcomps hcompsTake
  have hciphersEq := lengthPrefixed_of_take hciphers hciphersTake
  have hsidEq := lengthPrefixed_of_take hsid hsidTake
  obtain ⟨hrandomEq, hrandomLen⟩ := Cursor.take_eq_ok hrandom
  obtain ⟨hlegacyEq, hlegacyLen⟩ := Cursor.take_eq_ok hlegacy
  obtain ⟨hversionEq, hversionLen⟩ := Cursor.take_eq_ok hversion
  have hbodyEq := lengthPrefixed_of_rest hbody (not_not.1 hbodyLen)
  have hrecordEq := lengthPrefixed_of_rest hrecord (not_not.1 hrecordLen)
  have hmsgEq := Cursor.number_eq_ok_toBE hmsg
  have htypeEq := Cursor.number_eq_ok_toBE htype
  rw [not_not.1 hmsgVal] at hmsgEq
  rw [not_not.1 htypeVal] at htypeEq
  let t : WireHello := ⟨⟨version, hversionLen⟩, ⟨legacy, hlegacyLen⟩, ⟨random, hrandomLen⟩, sid,
    ciphers, comps, es⟩
  have htbody : t.body = body := by
    show legacy ++ (random ++ (lengthPrefixed 1 sid ++ (lengthPrefixed 2 ciphers
      ++ (lengthPrefixed 1 comps ++ lengthPrefixed 2 (es.flatMap pushExtension))))) = body
    rw [← hblock.1, ← hcompsEq.1, ← hciphersEq.1, ← hsidEq.1, ← hrandomEq, ← hlegacyEq]
  have htmessage : t.message = w₃ := by
    rw [WireHello.message, htbody, ← hbodyEq.1, ← hmsgEq]
  refine ⟨t, ⟨?_, ?_, hsidEq.2, hciphersEq.2, hcompsEq.2, hblock.2, hes⟩, ?_, f, hfold⟩
  · rw [htmessage]
    exact hrecordEq.2
  · rw [htbody]
    exact hbodyEq.2
  · rw [WireHello.encode, htmessage, ← hrecordEq.1]
    exact (htypeEq.trans (congrArg _ hversionEq)).symm

/-- A session id in its slot. -/
theorem patchSessionId_append {σ : Type} {front sid rest : List σ}
    (h : front.length = SESSION_ID_OFFSET) :
    patchSessionId (front ++ (sid ++ rest)) sid = front ++ (sid ++ rest) := by
  rw [patchSessionId, List.take_left' h, ← List.drop_drop, List.drop_left' h, List.drop_left,
    List.append_assoc]

/-- **The session id of an accepted hello stands in its slot.** -/
theorem patchSessionId_of_parse {σ : Type} [Alphabet σ] {wire : List σ}
    {hello : ParsedClientHello σ} (h : parseClientHello wire = .ok hello) :
    patchSessionId wire hello.sessionId = wire := by
  simp only [parseClientHello, readHelloHeaders, bind_eq_ok, Prod.exists, ite_error_eq_ok] at h
  obtain ⟨body, ⟨_, r₁, htype, -, version, r₂, hversion, -, _, r₃, hrecord, -, _, r₄, hmsg, -, _, r₅,
    hlen, -, hbody⟩, legacy, r₆, hlegacy, random, r₇, hrandom, _, r₈, hsidLen, -, sid, r₉, hsid,
    -, r₁₀, -, -, -, r₁₁, -, -, r₁₂, -, -, r₁₃, -, -, r₁₄, -, f, r₁₅, -, -, hdone⟩ := h
  obtain rfl := Except.ok.inj hbody
  have hfields : hello.sessionId = sid := by
    split at hdone
    · cases hdone
    · obtain rfl := Except.ok.inj hdone
      rfl
  -- the headers and the fields in front of the session id, 44 symbols
  obtain ⟨f₁, rfl, h₁⟩ := exists_front_of_number htype
  obtain ⟨rfl, h₂⟩ := Cursor.take_eq_ok hversion
  obtain ⟨f₃, rfl, h₃⟩ := exists_front_of_number hrecord
  obtain ⟨f₄, rfl, h₄⟩ := exists_front_of_number hmsg
  obtain ⟨f₅, rfl, h₅⟩ := exists_front_of_number hlen
  obtain ⟨rfl, h₆⟩ := Cursor.take_eq_ok hlegacy
  obtain ⟨rfl, h₇⟩ := Cursor.take_eq_ok hrandom
  obtain ⟨f₈, rfl, h₈⟩ := exists_front_of_number hsidLen
  obtain ⟨rfl, -⟩ := Cursor.take_eq_ok hsid
  rw [hfields]
  have hfront : (f₁ ++ (version ++ (f₃ ++ (f₄ ++ (f₅ ++ (legacy ++ (random ++ f₈))))))).length =
      SESSION_ID_OFFSET := by
    simp only [List.length_append, h₁, h₂, h₃, h₄, h₅, h₆, h₇, h₈, SESSION_ID_OFFSET]
  simpa only [List.append_assoc] using @patchSessionId_append _ _ sid r₉ hfront

/-! ## Lengths inside the extensions -/

/-- A key_share body declares the length of its list. -/
def KeyShareExact (e : Extension UInt8) : Prop :=
  e.1 = EXT_KEY_SHARE → 2 + ofBE (e.2.take 2) = e.2.length

/-- The lengths inside the body of an extension that the parser looks at: the
server_name list and the name in it, the key_share list and each of its shares,
and the supported_versions list.  A share is laid out like an extension. -/
structure ConsistentExtension (e : Extension UInt8) : Prop where
  serverName : e.1 = EXT_SERVER_NAME → ∃ name : Bytes, name.length + 3 < 65536 ∧
    e.2 = lengthPrefixed 2 (0 :: lengthPrefixed 2 name)
  keyShare : e.1 = EXT_KEY_SHARE → ∃ shares : List (Extension UInt8), (∀ s ∈ shares, s.Fits) ∧
    (shares.flatMap pushExtension).length < 65536 ∧
      e.2 = lengthPrefixed 2 (shares.flatMap pushExtension)
  supportedVersions : e.1 = EXT_SUPPORTED_VERSIONS → ∃ versions : Bytes, versions.length < 256 ∧
    e.2 = lengthPrefixed 1 versions

/-- Every declared length of the record is the length of what it governs, and the
record has no other bytes. -/
def ConsistentLengths (w : Bytes) : Prop :=
  ∃ t : WireHello, t.Fits ∧ t.encode = w ∧ ∀ e ∈ t.extensions, ConsistentExtension e

/-- Every key_share list of the record declares its length. -/
def KeySharesExact (w : Bytes) : Prop :=
  ∃ t : WireHello, t.Fits ∧ t.encode = w ∧ ∀ e ∈ t.extensions, KeyShareExact e

theorem ConsistentExtension.keyShareExact {e : Extension UInt8} (h : ConsistentExtension e) :
    KeyShareExact e := by
  intro htype
  obtain ⟨shares, -, hlen, hbody⟩ := h.keyShare htype
  rw [hbody, length_lengthPrefixed, lengthPrefixed, List.take_left' (by simp),
    ofBE_toBE_of_lt (by simpa using hlen)]

/-- The server_name arm checks both its lengths. -/
theorem exists_of_readServerName {body : Bytes} {host : String}
    (h : readServerName body = .ok host) :
    ∃ name : Bytes, name.length + 3 < 65536 ∧
      body = lengthPrefixed 2 (0 :: lengthPrefixed 2 name) := by
  simp only [readServerName, bind_eq_ok, Prod.exists, ite_error_eq_ok] at h
  obtain ⟨listLen, r₁, hlist, nameType, r₂, htype, nameLen, r₃, hname, hcheck, name, r₄, htake,
    hdone, -⟩ := h
  obtain rfl := not_not.1 hdone
  obtain ⟨htypeVal, hlistVal⟩ : nameType = 0 ∧ listLen = 1 + 2 + nameLen := by
    simpa [not_or] using hcheck
  obtain ⟨hnameEq, -⟩ := lengthPrefixed_of_take hname htake
  obtain ⟨-, hnameLen⟩ := Cursor.take_eq_ok htake
  have htypeEq := Cursor.number_eq_ok_toBE htype
  have hlistLt := (Cursor.number_eq_ok hlist).2
  rw [htypeVal, hnameEq, List.append_nil] at htypeEq
  have hr₁ : r₁ = 0 :: lengthPrefixed 2 name := htypeEq
  have hlen : r₁.length = listLen := by
    rw [hr₁, List.length_cons, length_lengthPrefixed]
    omega
  refine ⟨name, by omega, ?_⟩
  rw [← hr₁]
  exact (lengthPrefixed_of_rest hlist hlen).1

/-- The loop over the versions reads two bytes for each. -/
theorem length_of_readVersions {n : ℕ} {seen seen' : Bool} {r rest : Bytes}
    (h : readVersions n seen r = .ok (seen', rest)) : r.length = 2 * n + rest.length := by
  induction n generalizing seen r with
  | zero =>
    cases h
    omega
  | succ n ih =>
    simp only [readVersions, bind_eq_ok, Prod.exists] at h
    obtain ⟨version, r₁, hversion, h⟩ := h
    have := (Cursor.number_eq_ok hversion).1
    have := ih h
    omega

/-- The supported_versions arm checks its length. -/
theorem exists_of_readSupportedVersions {body : Bytes} {seen seen' : Bool}
    (h : readSupportedVersions seen body = .ok seen') :
    ∃ versions : Bytes, versions.length < 256 ∧ body = lengthPrefixed 1 versions := by
  simp only [readSupportedVersions, bind_eq_ok, Prod.exists, ite_error_eq_ok] at h
  obtain ⟨listBytes, r₁, hlist, heven, _, r₂, hversions, hdone, -⟩ := h
  obtain rfl := not_not.1 hdone
  have hlen := length_of_readVersions hversions
  rw [List.length_nil] at hlen
  obtain ⟨hbody, hlt⟩ := lengthPrefixed_of_rest hlist (by omega)
  exact ⟨r₁, by simpa using hlt, hbody⟩

/-- The loop over the shares has read whole shares. -/
theorem exists_of_readShares {sharesLen shareRead : ℕ}
    {found found' : Option (List.Vector UInt8 32)}
    {r rest : Bytes} (h : readShares sharesLen shareRead found r = .ok (found', rest)) :
    ∃ shares : List (Extension UInt8), (∀ s ∈ shares, s.Fits) ∧
      r = shares.flatMap pushExtension ++ rest := by
  rw [readShares] at h
  split_ifs at h with hmore
  · simp only [bind_eq_ok, Prod.exists] at h
    obtain ⟨group, r₁, hgroup, klen, r₂, hklen, key, r₃, hkey, h⟩ := h
    obtain ⟨shares, hshares, rfl⟩ := exists_of_readShares h
    have hr := Cursor.number_eq_ok_toBE hgroup
    obtain ⟨rfl, hkeyLen⟩ := lengthPrefixed_of_take hklen hkey
    have hpush : pushExtension (group, key) = toBE 2 group ++ lengthPrefixed 2 key := by
      simp [pushExtension, lengthPrefixed]
    refine ⟨(group, key) :: shares, List.forall_mem_cons.2 ⟨⟨?_, ?_⟩, hshares⟩, ?_⟩
    · simpa using (Cursor.number_eq_ok hgroup).2
    · simpa using hkeyLen
    · rw [hr, List.flatMap_cons, hpush]
      simp only [List.append_assoc]
  · cases h
    exact ⟨[], by simp, rfl⟩
termination_by sharesLen - shareRead

/-- The key_share arm checks the lengths of the shares.  The length of their list
it takes as a bound on where a share may start. -/
theorem exists_of_readKeyShare {body : Bytes} {found found' : Option (List.Vector UInt8 32)}
    (h : readKeyShare found body = .ok found') :
    ∃ shares : List (Extension UInt8), (∀ s ∈ shares, s.Fits) ∧
      body = toBE 2 (ofBE (body.take 2)) ++ shares.flatMap pushExtension ∧
        ofBE (body.take 2) < 65536 := by
  simp only [readKeyShare, bind_eq_ok, Prod.exists, ite_error_eq_ok] at h
  obtain ⟨sharesLen, r₁, hlen, _, r₂, hloop, hdone, -⟩ := h
  obtain rfl := not_not.1 hdone
  obtain ⟨shares, hshares, rfl⟩ := exists_of_readShares hloop
  have hbody := Cursor.number_eq_ok_toBE hlen
  have hlt := (Cursor.number_eq_ok hlen).2
  have hdeclared : ofBE (body.take 2) = sharesLen := by
    rw [hbody, List.take_left' (by simp), ofBE_toBE_of_lt hlt]
  refine ⟨shares, hshares, ?_, by rw [hdeclared]; simpa using hlt⟩
  rw [hdeclared, ← List.append_nil (List.flatMap _ _)]
  exact hbody

/-- **What the parser checks in an extension**: every length but that of a
key_share list. -/
theorem consistentExtension_of_read {f f' : HelloFields UInt8} {e : Extension UInt8}
    (h : readExtension f e = .ok f') (hexact : KeyShareExact e) : ConsistentExtension e := by
  rw [readExtension] at h
  refine ⟨fun htype => ?_, fun htype => ?_, fun htype => ?_⟩
  · rw [if_pos htype, bind_eq_ok] at h
    obtain ⟨host, hhost, -⟩ := h
    exact exists_of_readServerName hhost
  · rw [if_neg (by rw [htype]; decide), if_pos htype, bind_eq_ok] at h
    obtain ⟨found, hfound, -⟩ := h
    obtain ⟨shares, hshares, hbody, hlt⟩ := exists_of_readKeyShare hfound
    have hlen := congrArg List.length hbody
    rw [List.length_append, length_toBE, ← hexact htype] at hlen
    have hdeclared : ofBE (e.2.take 2) = (shares.flatMap pushExtension).length := by omega
    rw [hdeclared] at hbody hlt
    exact ⟨shares, hshares, hlt, hbody⟩
  · rw [if_neg (by rw [htype]; decide), if_neg (by rw [htype]; decide), if_pos htype,
      bind_eq_ok] at h
    obtain ⟨seen, hseen, -⟩ := h
    exact exists_of_readSupportedVersions hseen

/-- Every extension of an accepted hello was read. -/
theorem readExtension_of_foldlM {es : List (Extension UInt8)} {f f' : HelloFields UInt8}
    (h : es.foldlM readExtension f = .ok f') :
    ∀ e ∈ es, ∃ g g', readExtension g e = .ok g' := by
  induction es generalizing f with
  | nil => simp
  | cons e es ih =>
    rw [List.foldlM_cons, bind_eq_ok] at h
    obtain ⟨g, he, hes⟩ := h
    exact List.forall_mem_cons.2 ⟨⟨f, g, he⟩, ih hes⟩

/-- **Declared lengths of an accepted hello.**  They are all consistent, and no byte
is left over, if and only if every key_share list declares its length. -/
theorem consistentLengths_iff {w : Bytes} {hello : ParsedClientHello UInt8}
    (h : parseClientHello w = .ok hello) : ConsistentLengths w ↔ KeySharesExact w := by
  constructor
  · rintro ⟨t, ht, hw, hall⟩
    exact ⟨t, ht, hw, fun e he => (hall e he).keyShareExact⟩
  · rintro ⟨t, ht, hw, hall⟩
    obtain ⟨u, hu, hw', f, hfold⟩ := exists_of_parse h
    obtain rfl := WireHello.encode_inj ht hu (hw.trans hw'.symm)
    refine ⟨t, ht, hw, fun e he => ?_⟩
    obtain ⟨g, g', hread⟩ := readExtension_of_foldlM hfold e he
    exact consistentExtension_of_read hread (hall e he)

/-- A hello that the parser accepts, with a key_share list of declared length `n`. -/
def helloDeclaring (n : ℕ) : WireHello where
  recordVersion := ⟨[0x03, 0x01], rfl⟩
  legacyVersion := ⟨[0x03, 0x03], rfl⟩
  random := List.Vector.replicate 32 4
  sessionId := []
  ciphers := [0x13, 0x01]
  compressions := [0x00]
  extensions := [(EXT_KEY_SHARE, toBE 2 n
    ++ pushExtension (GROUP_X25519, List.replicate X25519_PK_LEN 9))]

theorem helloDeclaring_fits (n : ℕ) : (helloDeclaring n).Fits where
  message := by
    have : (helloDeclaring n).message.length = 89 := rfl
    omega
  body := by
    have : (helloDeclaring n).body.length = 85 := rfl
    omega
  sessionId := show 0 < 256 ^ 1 by decide
  ciphers := show 2 < 256 ^ 2 by decide
  compressions := show 1 < 256 ^ 1 by decide
  block := by
    have : ((helloDeclaring n).extensions.flatMap pushExtension).length = 42 := rfl
    omega
  extensions := by
    have hshare : (toBE 2 n ++ pushExtension (GROUP_X25519,
        List.replicate X25519_PK_LEN (9 : UInt8))).length = 38 := rfl
    simp only [helloDeclaring, List.forall_mem_singleton, Extension.Fits, hshare]
    decide

theorem exists_of_isOk {α : Type} {x : Except TlsError α} (h : x.isOk = true) :
    ∃ a, x = .ok a := by
  cases x with
  | ok a => exact ⟨a, rfl⟩
  | error e => cases h

/-- The only share of the hello takes 36 bytes. -/
theorem consistentLengths_iff_declaring :
    ConsistentLengths (helloDeclaring 36).encode ↔ KeySharesExact (helloDeclaring 36).encode := by
  obtain ⟨hello, h⟩ := exists_of_isOk
    (show (parseClientHello (helloDeclaring 36).encode).isOk = true by decide +kernel)
  exact consistentLengths_iff h

/-- The same hello with a declared list length of one byte. -/
theorem not_consistentLengths :
    (∃ hello, parseClientHello (helloDeclaring 1).encode = .ok hello) ∧
      ¬ ConsistentLengths (helloDeclaring 1).encode := by
  refine ⟨exists_of_isOk (by decide +kernel), ?_⟩
  rintro ⟨t, ht, hw, hall⟩
  obtain rfl := WireHello.encode_inj ht (helloDeclaring_fits 1) hw
  have hexact := (hall _ List.mem_cons_self).keyShareExact rfl
  revert hexact
  decide

end ShadeVpn.Tls
