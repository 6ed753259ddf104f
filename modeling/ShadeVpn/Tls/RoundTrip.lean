import ShadeVpn.Tls.HelloLength

/-!
# What the parser reads from a built ClientHello

* `parse_build` — the parser reads back the fields the builder was given.
* `buildClientHello_patch` — writing another session id of the same length over
  the session id of a built hello gives the hello built with that session id.
* `mem_buildClientHello` — a hello holds literal bytes and copies of its arguments.
-/

namespace ShadeVpn.Tls

open Octets Checked Reader

variable {σ : Type} [Alphabet σ]

/-! ## The reader on what it reads -/

namespace Reader

omit [Alphabet σ] in
theorem take_append {n : ℕ} {xs : List σ} (h : xs.length = n) (rest : List σ) :
    take n (xs ++ rest) = .ok (xs, rest) :=
  Cursor.take_append h rest

theorem u16_toBE {n : ℕ} (h : n < 65536) (rest : List σ) :
    u16 (lits (toBE 2 n) ++ rest) = .ok (n, rest) :=
  Cursor.number_toBE (by simpa using h) rest

theorem u24_toBE {n : ℕ} (h : n < 16777216) (rest : List σ) :
    u24 (lits (toBE 3 n) ++ rest) = .ok (n, rest) :=
  Cursor.number_toBE (by simpa using h) rest

theorem u8_toBE {n : ℕ} (h : n < 256) (rest : List σ) :
    u8 (lits (toBE 1 n) ++ rest) = .ok (n, rest) :=
  Cursor.number_toBE (by simpa using h) rest

theorem u8_byte {n : ℕ} (h : n < 256) (rest : List σ) :
    u8 (lits [UInt8.ofNat n] ++ rest) = .ok (n, rest) :=
  Cursor.number_byte h rest

end Reader

/-! ## The extension block -/

/-- An extension whose type and length fit their fields. -/
def Extension.Fits (e : Extension σ) : Prop := e.1 < 65536 ∧ e.2.length < 65536

/-- **The extension loop** reads a block of extensions one by one and leaves what
follows the block. -/
theorem readExtensions_flatMap {es : List (Extension σ)} (hes : ∀ e ∈ es, e.Fits) (extRead : ℕ)
    (f : HelloFields σ) (rest : List σ) :
    readExtensions (extRead + (es.flatMap pushExtension).length) extRead f
        (es.flatMap pushExtension ++ rest)
      = (es.foldlM readExtension f).map (·, rest) := by
  induction es generalizing extRead f with
  | nil =>
    rw [readExtensions]
    simp [pure, Except.pure, Except.map]
  | cons e es ih =>
    obtain ⟨htype, hlen⟩ := hes e List.mem_cons_self
    have hes' : ∀ e ∈ es, e.Fits := fun g hg => hes g (List.mem_cons_of_mem e hg)
    have hblock : ((e :: es).flatMap pushExtension).length
        = 4 + e.2.length + (es.flatMap pushExtension).length := by
      rw [List.flatMap_cons, List.length_append, length_pushExtension]
    have hsplit : (e :: es).flatMap pushExtension ++ rest
        = lits (toBE 2 e.1) ++ (lits (toBE 2 e.2.length) ++ (e.2
          ++ (es.flatMap pushExtension ++ rest))) := by
      simp [pushExtension]
    rw [readExtensions, if_pos (by omega), hsplit, u16_toBE htype]
    simp only [bind, Except.bind]
    rw [u16_toBE hlen]
    simp only
    rw [if_neg (by omega), take_append rfl]
    simp only [List.foldlM_cons, bind, Except.bind]
    cases hread : readExtension f e with
    | error err => rfl
    | ok g =>
      have hnext := ih hes' (extRead + (4 + e.2.length)) g
      rw [hblock]
      simp only
      rw [show extRead + (4 + e.2.length + (es.flatMap pushExtension).length)
        = extRead + (4 + e.2.length) + (es.flatMap pushExtension).length by omega, ← hnext]

/-! ## The extensions of a hello -/

/-- The types whose body the parser looks at. -/
def Interpreted (extType : ℕ) : Prop :=
  extType = EXT_SERVER_NAME ∨ extType = EXT_KEY_SHARE ∨ extType = EXT_SUPPORTED_VERSIONS

instance (n : ℕ) : Decidable (Interpreted n) :=
  inferInstanceAs (Decidable (_ ∨ _))

theorem readExtension_other {e : Extension σ} (h : ¬ Interpreted e.1) (f : HelloFields σ) :
    readExtension f e = .ok f := by
  rw [Interpreted] at h
  rw [readExtension, if_neg (by tauto), if_neg (by tauto), if_neg (by tauto)]

theorem foldlM_other {es : List (Extension σ)} (h : ∀ e ∈ es, ¬ Interpreted e.1)
    (f : HelloFields σ) : es.foldlM readExtension f = .ok f := by
  induction es generalizing f with
  | nil => rfl
  | cons e es ih =>
    rw [List.foldlM_cons, readExtension_other (h e List.mem_cons_self)]
    exact ih (fun g hg => h g (List.mem_cons_of_mem e hg)) f

theorem readServerName_serverNameBody {host : String} (h : (utf8 host).length + 3 < 65536) :
    readServerName (lits (serverNameBody host) : List σ) = .ok host := by
  have hsplit : (lits (serverNameBody host) : List σ)
      = lits (toBE 2 (1 + 2 + (utf8 host).length)) ++ (lits [UInt8.ofNat 0]
        ++ (lits (toBE 2 (utf8 host).length) ++ (lits (utf8 host) ++ []))) := by
    have hlen : (0 :: (toBE 2 (utf8 host).length ++ utf8 host)).length
        = 1 + 2 + (utf8 host).length := by simp; omega
    rw [serverNameBody, hlen]
    simp [lits]
  rw [readServerName, hsplit, u16_toBE (by omega)]
  simp only [bind, Except.bind]
  rw [u8_byte (by decide)]
  simp only
  rw [u16_toBE (by omega)]
  simp only
  rw [if_neg (by simp), take_append (by simp)]
  simp

theorem readKeyShare_keyShareBody (pub : List.Vector σ 32) :
    readKeyShare none (keyShareBody pub) = .ok (some pub) := by
  have hsplit : keyShareBody pub
      = lits (toBE 2 36) ++ (lits (toBE 2 GROUP_X25519) ++ (lits (toBE 2 X25519_PK_LEN)
        ++ (pub.toList ++ []))) := by
    simp [keyShareBody]
  have hloop : readShares 36 0 none (lits (toBE 2 GROUP_X25519)
      ++ (lits (toBE 2 X25519_PK_LEN) ++ (pub.toList ++ []))) = .ok (some pub, []) := by
    rw [readShares, if_pos (by decide), u16_toBE (by decide)]
    simp only [bind, Except.bind]
    rw [u16_toBE (by decide)]
    simp only
    rw [take_append (by rw [pub.toList_length]; rfl)]
    simp only
    rw [readShares, if_neg (by decide)]
    simp
  rw [readKeyShare, hsplit, u16_toBE (by decide)]
  simp only [bind, Except.bind]
  rw [hloop]
  simp

theorem readSupportedVersions_fixed :
    readSupportedVersions false (lits (0x06 :: (toBE 2 GREASE_VERSION ++ [0x03, 0x04]
      ++ [0x03, 0x03])) : List σ) = .ok true := by
  have hsplit : (lits (0x06 :: (toBE 2 GREASE_VERSION ++ [0x03, 0x04] ++ [0x03, 0x03])) : List σ)
      = lits [UInt8.ofNat 6] ++ (lits (toBE 2 GREASE_VERSION) ++ (lits (toBE 2 0x0304)
        ++ (lits (toBE 2 0x0303) ++ []))) := by
    simp [lits, toBE]
  rw [readSupportedVersions, hsplit, u8_byte (by decide)]
  simp only [bind, Except.bind]
  rw [if_neg (by decide)]
  simp only [show 6 / 2 = 3 from rfl, readVersions, bind, Except.bind]
  rw [u16_toBE (by decide)]
  simp only
  rw [u16_toBE (by decide)]
  simp only
  rw [u16_toBE (by decide)]
  simp [GREASE_VERSION]

/-- The fixed extensions the parser skips: all but the last, the versions. -/
theorem fixedExtensions_eq : fixedExtensions = fixedExtensions.dropLast
    ++ [(EXT_SUPPORTED_VERSIONS, 0x06 :: (toBE 2 GREASE_VERSION ++ [0x03, 0x04] ++ [0x03, 0x03]))] :=
  rfl

theorem foldlM_fixedExtensions {f : HelloFields σ} (hf : f.tls13Negotiable = false) :
    (fixedExtensions.map fun e => ((e.1, lits e.2) : Extension σ)).foldlM readExtension f
      = .ok { f with tls13Negotiable := true } := by
  have hskip : ∀ e ∈ fixedExtensions.dropLast.map fun e => ((e.1, lits e.2) : Extension σ),
      ¬ Interpreted e.1 := by
    have hall : ∀ g ∈ fixedExtensions.dropLast, ¬ Interpreted g.1 := by decide
    intro e he
    obtain ⟨g, hg, rfl⟩ := List.mem_map.1 he
    exact hall g hg
  rw [fixedExtensions_eq, List.map_append, List.foldlM_append, foldlM_other hskip]
  simp only [bind, Except.bind, List.map_cons, List.map_nil, List.foldlM_cons, List.foldlM_nil,
    readExtension, hf, readSupportedVersions_fixed]
  rfl

theorem foldlM_helloExtensions {sni : Option String}
    (hsni : ∀ host, sni = some host → (utf8 host).length + 3 < 65536)
    (pub : List.Vector σ 32) (paddingLen : ℕ) :
    (helloExtensions sni pub ++ paddingExtensions paddingLen).foldlM readExtension
      ⟨none, none, false⟩ = .ok ⟨sni, some pub, true⟩ := by
  have hpad : ∀ f : HelloFields σ,
      (paddingExtensions paddingLen).foldlM readExtension f = .ok f := by
    refine foldlM_other fun e he => ?_
    rw [paddingExtensions] at he
    split_ifs at he
    · rw [List.mem_singleton.1 he]
      show ¬ Interpreted EXT_PADDING
      decide
    · cases he
  have hshare : ∀ f : HelloFields σ, f.ephemeralPublic = none →
      [(EXT_KEY_SHARE, keyShareBody pub)].foldlM readExtension f
        = .ok { f with ephemeralPublic := some pub } := by
    intro f hf
    simp only [List.foldlM_cons, List.foldlM_nil, readExtension, hf, readKeyShare_keyShareBody,
      bind, Except.bind]
    rfl
  have hname : (serverNameExtensions sni).foldlM readExtension
      (⟨none, none, false⟩ : HelloFields σ) = .ok ⟨sni, none, false⟩ := by
    cases sni with
    | none => rfl
    | some host =>
      simp only [serverNameExtensions, List.foldlM_cons, List.foldlM_nil, readExtension,
        readServerName_serverNameBody (hsni host rfl), bind, Except.bind]
      rfl
  rw [helloExtensions, List.cons_append, List.foldlM_cons,
    readExtension_other (by show ¬ Interpreted GREASE_EXT; decide)]
  simp only [bind, Except.bind, List.foldlM_append, hname, foldlM_fixedExtensions, hshare, hpad]

/-! ## The round trip -/

theorem helloExtensions_type {sni : Option String} {pub : List.Vector σ 32} {paddingLen : ℕ}
    {e : Extension σ} (h : e ∈ helloExtensions sni pub ++ paddingExtensions paddingLen) :
    e.1 < 65536 := by
  have hfixed : ∀ g ∈ fixedExtensions, g.1 < 65536 := by decide
  simp only [helloExtensions, List.mem_append, List.mem_cons, List.mem_map,
    List.not_mem_nil, or_false] at h
  obtain (rfl | (h | ⟨g, hg, rfl⟩) | rfl) | h := h
  · show GREASE_EXT < 65536
    decide
  · cases sni with
    | none => cases h
    | some host =>
      rw [List.mem_singleton.1 h]
      show EXT_SERVER_NAME < 65536
      decide
  · exact hfixed g hg
  · show EXT_KEY_SHARE < 65536
    decide
  · rw [paddingExtensions] at h
    split_ifs at h
    · rw [List.mem_singleton.1 h]
      show EXT_PADDING < 65536
      decide
    · cases h

/-- What a successful build went through. -/
theorem buildClientHello_eq_ok {sni : Option String} {pub random : List.Vector σ 32}
    {sid record : List σ} (h : buildClientHello sni pub random sid = .ok record) :
    sid.length ≤ 32 ∧ ∃ paddingLen,
      helloPaddingLen sni ((helloExtensions sni pub).flatMap pushExtension).length = .ok paddingLen ∧
      (helloBody random sid (helloExtensionsBlock sni pub paddingLen)).length ≤ 0xFFFFFF ∧
      record = helloRecord (helloBody random sid (helloExtensionsBlock sni pub paddingLen)) := by
  rw [buildClientHello] at h
  split_ifs at h with hsid
  obtain ⟨paddingLen, hpad, h⟩ := Cursor.bind_eq_ok.1 h
  dsimp only at h
  split_ifs at h with hbody
  cases h
  exact ⟨not_lt.1 hsid, paddingLen, hpad, not_lt.1 hbody, rfl⟩

theorem readHelloHeaders_helloRecord {body : List σ} (h : body.length + 4 < 65536) :
    readHelloHeaders (helloRecord body) = .ok body := by
  have hsplit : helloRecord body = lits (toBE 1 CONTENT_HANDSHAKE) ++ (lits [0x03, 0x01]
      ++ (lits (toBE 2 (body.length + 4)) ++ (lits (toBE 1 HS_CLIENT_HELLO)
        ++ (lits (toBE 3 body.length) ++ body)))) := by
    have hlen : 1 + (3 + body.length) = body.length + 4 := by omega
    simp [helloRecord, hlen, lits]
  rw [readHelloHeaders, hsplit, u8_toBE (by decide)]
  simp only [bind, Except.bind]
  rw [if_neg (by decide), take_append (by simp)]
  simp only [values_lits]
  rw [if_neg (by decide), u16_toBE (by omega)]
  simp only
  rw [if_neg (by simp; omega), u8_toBE (by decide)]
  simp only
  rw [if_neg (by decide), u24_toBE (by omega)]
  simp only
  rw [if_neg (by simp)]

/-- **The ClientHello round trip.**  If the builder returns a record whose
handshake message fits the record length field, the parser reads its fields back. -/
theorem parse_build {sni : Option String} {pub random : List.Vector σ 32} {sid record : List σ}
    (h : buildClientHello sni pub random sid = .ok record) (hlen : record.length < 5 + 65536) :
    parseClientHello record = .ok { sni, random, sessionId := sid, ephemeralPublic := pub,
                                    tls13Negotiable := true } := by
  obtain ⟨hsid, paddingLen, -, -, rfl⟩ := buildClientHello_eq_ok h
  have hblock : (helloExtensionsBlock sni pub paddingLen).length < 65536 := by
    rw [length_helloRecord, length_helloBody] at hlen
    omega
  have hfits : ∀ e ∈ helloExtensions sni pub ++ paddingExtensions paddingLen, e.Fits :=
    fun e he => ⟨helloExtensions_type he, lt_of_le_of_lt (length_le_flatMap he) hblock⟩
  have hsni : ∀ host, sni = some host → (utf8 host).length + 3 < 65536 := by
    rintro host rfl
    have hmem : ((EXT_SERVER_NAME, lits (serverNameBody host)) : Extension σ)
        ∈ helloExtensions (some host) pub ++ paddingExtensions paddingLen := by
      simp [helloExtensions, serverNameExtensions]
    have := (hfits _ hmem).2
    simp only [length_lits, serverNameBody, List.length_append, List.length_cons,
      length_toBE] at this
    omega
  have hexts := readExtensions_flatMap hfits 0 (⟨none, none, false⟩ : HelloFields σ) []
  rw [foldlM_helloExtensions hsni, List.append_nil, Nat.zero_add] at hexts
  have hsplit : helloBody random sid (helloExtensionsBlock sni pub paddingLen)
      = lits [0x03, 0x03] ++ (random.toList ++ (lits [UInt8.ofNat sid.length] ++ (sid
        ++ (lits (toBE 2 cipherSuites.length) ++ (lits cipherSuites ++ (lits [UInt8.ofNat 1]
          ++ (lits [0x00] ++ (lits (toBE 2 (helloExtensionsBlock sni pub paddingLen).length)
            ++ helloExtensionsBlock sni pub paddingLen)))))))) := by
    simp [helloBody, helloTail, lits]
  rw [parseClientHello, readHelloHeaders_helloRecord (by rw [length_helloRecord] at hlen; omega),
    hsplit]
  simp only [bind, Except.bind]
  rw [take_append (by simp)]
  simp only
  rw [take_append random.toList_length]
  simp only
  rw [u8_byte (by omega)]
  simp only
  rw [if_neg (by rw [MAX_SESSION_ID_LEN]; omega), take_append rfl]
  simp only
  rw [u16_toBE (by decide)]
  simp only
  rw [if_neg (by decide), take_append (by simp)]
  simp only
  rw [u8_byte (by decide)]
  simp only
  rw [take_append (by simp)]
  simp only
  rw [u16_toBE hblock]
  simp only
  rw [helloExtensionsBlock, hexts]
  simp [Except.map]

/-- The symbols of a hello record before the session id. -/
def helloHead (random : List.Vector σ 32) (sidLen bodyLen : ℕ) : List σ :=
  lits (toBE 1 CONTENT_HANDSHAKE ++ [0x03, 0x01] ++ toBE 2 (4 + bodyLen)
    ++ toBE 1 HS_CLIENT_HELLO ++ toBE 3 bodyLen ++ [0x03, 0x03]) ++ random.toList
    ++ lits [UInt8.ofNat sidLen]

theorem length_helloHead (random : List.Vector σ 32) (sidLen bodyLen : ℕ) :
    (helloHead random sidLen bodyLen).length = SESSION_ID_OFFSET := by
  simp [helloHead, SESSION_ID_OFFSET]

theorem helloRecord_eq (random : List.Vector σ 32) (sid exts : List σ) :
    helloRecord (helloBody random sid exts)
      = helloHead random sid.length (73 + sid.length + exts.length) ++ (sid ++ helloTail exts) := by
  have hlen : (lits (toBE 1 HS_CLIENT_HELLO ++ toBE 3 (73 + sid.length + exts.length))
      ++ helloBody random sid exts : List σ).length = 4 + (73 + sid.length + exts.length) := by
    rw [List.length_append, length_helloBody]
    simp
  rw [helloRecord, length_helloBody, hlen, helloBody, helloHead]
  simp [lits]

/-- **Patching the session id** of a built hello gives the hello with that session id. -/
theorem buildClientHello_patch {sni : Option String} {pub random : List.Vector σ 32}
    {sid sid' record : List σ} (hlen : sid'.length = sid.length)
    (h : buildClientHello sni pub random sid = .ok record) :
    buildClientHello sni pub random sid' = .ok (patchSessionId record sid') := by
  obtain ⟨hsid, paddingLen, hpad, hbody, rfl⟩ := buildClientHello_eq_ok h
  have hbody' : (helloBody random sid' (helloExtensionsBlock sni pub paddingLen)).length
      = (helloBody random sid (helloExtensionsBlock sni pub paddingLen)).length := by
    rw [length_helloBody, length_helloBody, hlen]
  have hpatch : helloRecord (helloBody random sid' (helloExtensionsBlock sni pub paddingLen))
      = patchSessionId (helloRecord (helloBody random sid
        (helloExtensionsBlock sni pub paddingLen))) sid' := by
    rw [helloRecord_eq, helloRecord_eq, patchSessionId, ← List.drop_drop,
      List.take_left' (length_helloHead ..), List.drop_left' (length_helloHead ..),
      List.drop_left' hlen.symm, hlen, List.append_assoc]
  rw [buildClientHello, if_neg (by rw [hlen, MAX_SESSION_ID_LEN]; omega), hpad]
  simp only [bind, Except.bind]
  rw [if_neg (by rw [hbody']; omega), hpatch]

/-- Builds of hellos that differ in the session id only go through or fail alike. -/
theorem buildClientHello_map_patch (sni : Option String) (pub random : List.Vector σ 32)
    {sid sid' : List σ} (hlen : sid'.length = sid.length) :
    buildClientHello sni pub random sid'
      = (buildClientHello sni pub random sid).map (patchSessionId · sid') := by
  rcases h : buildClientHello sni pub random sid with e | record
  · rw [Except.map, ← h, buildClientHello, buildClientHello, hlen]
    split_ifs with hsid
    · rfl
    rcases hpad : helloPaddingLen sni ((helloExtensions sni pub).flatMap pushExtension).length with
      e' | paddingLen
    · rfl
    · have hbody : (helloBody random sid' (helloExtensionsBlock sni pub paddingLen)).length
          = (helloBody random sid (helloExtensionsBlock sni pub paddingLen)).length := by
        rw [length_helloBody, length_helloBody, hlen]
      simp only [buildClientHello, if_neg hsid, hpad, bind, Except.bind] at h ⊢
      split_ifs at h with hbig
      rw [hbody, if_pos hbig, if_pos hbig]
  · exact buildClientHello_patch hlen h

/-- **Round trip and patch of a built hello.**  A record that `build_client_hello`
returns, with a handshake message that fits the record length field, parses to the
fields it was built from; and overwriting the session id of the hello built with a
zero id is building the hello with the new id. -/
theorem clientHello_roundTrip (sni : Option String) (pub random : List.Vector UInt8 32) :
    (∀ sid record : Bytes, buildClientHello sni pub random sid = .ok record →
      (record.drop 5).length < 65536 →
        parseClientHello record = .ok { sni, random, sessionId := sid, ephemeralPublic := pub,
                                        tls13Negotiable := true }) ∧
      ∀ id : List.Vector UInt8 32, buildClientHello sni pub random id.toList
        = (buildClientHello sni pub random (List.replicate 32 0)).map
            (patchSessionId · id.toList) := by
  refine ⟨fun sid record h hlen => parse_build h ?_, fun id => ?_⟩
  · rw [List.length_drop] at hlen
    omega
  · exact buildClientHello_map_patch sni pub random (by simp)

/-- A hello for `a.example` with a session id of 32 bytes. -/
theorem clientHello_roundTrip_example :
    ∃ record : Bytes, buildClientHello (some "a.example") (List.Vector.replicate 32 9)
        (List.Vector.replicate 32 4) (List.replicate 32 6) = .ok record ∧
      parseClientHello record = .ok ⟨some "a.example", List.Vector.replicate 32 4,
        List.replicate 32 6, List.Vector.replicate 32 9, true⟩ := by
  have hhost : (utf8 "a.example").length = 9 := by rw [length_utf8]; rfl
  have hshort : (utf8 "a.example").length < 64000 := by omega
  have hfault : (utf8 "a.example").length ≠ 141 := by omega
  have hsid : (List.replicate 32 6 : Bytes).length ≤ 32 := by simp
  obtain ⟨record, hbuild, hlen⟩ := buildClientHello_ok (List.Vector.replicate 32 (9 : UInt8))
    (List.Vector.replicate 32 4) hshort hfault hsid
  exact ⟨record, hbuild, (clientHello_roundTrip _ _ _).1 _ record hbuild
    (by rw [List.length_drop]; omega)⟩

/-- The session id slot of a built hello holds the session id. -/
theorem buildClientHello_slot {sni : Option String} {pub random : List.Vector σ 32}
    {sid record : List σ} (h : buildClientHello sni pub random sid = .ok record) :
    patchSessionId record sid = record ∧ SESSION_ID_OFFSET + sid.length ≤ record.length := by
  have hpatch := buildClientHello_patch rfl h
  rw [h] at hpatch
  obtain ⟨-, paddingLen, -, -, rfl⟩ := buildClientHello_eq_ok h
  refine ⟨(Except.ok.inj hpatch).symm, ?_⟩
  rw [helloRecord_eq, List.length_append, List.length_append, length_helloHead]
  omega

/-! ## What a hello is made of -/

theorem mem_helloExtensionsBlock {sni : Option String} {pub : List.Vector σ 32} {paddingLen : ℕ}
    {x : σ} (h : x ∈ helloExtensionsBlock sni pub paddingLen) :
    (∃ b, x = Alphabet.byte b) ∨ x ∈ pub.toList := by
  obtain ⟨e, he, hx⟩ := List.mem_flatMap.1 h
  rw [pushExtension, List.mem_append] at hx
  rcases hx with hx | hx
  · exact .inl (exists_byte_of_mem_lits hx)
  · simp only [helloExtensions, List.mem_append, List.mem_cons, List.mem_map,
      List.not_mem_nil, or_false] at he
    obtain (rfl | (he | ⟨g, -, rfl⟩) | rfl) | he := he
    · simp at hx
    · cases sni with
      | none => simp [serverNameExtensions] at he
      | some host =>
        simp only [serverNameExtensions, List.mem_singleton] at he
        subst he
        exact .inl (exists_byte_of_mem_lits hx)
    · exact .inl (exists_byte_of_mem_lits hx)
    · simp only [keyShareBody, List.mem_append] at hx
      rcases hx with hx | hx | hx
      · exact .inl (exists_byte_of_mem_lits hx)
      · exact .inl (exists_byte_of_mem_lits hx)
      · exact .inr hx
    · rw [paddingExtensions] at he
      split_ifs at he
      · rw [List.mem_singleton] at he
        subst he
        exact .inl (exists_byte_of_mem_lits hx)
      · cases he

/-- **Every symbol of a hello** is a literal byte or copied from an argument. -/
theorem mem_buildClientHello {sni : Option String} {pub random : List.Vector σ 32}
    {sid record : List σ} (h : buildClientHello sni pub random sid = .ok record) {x : σ}
    (hx : x ∈ record) :
    (∃ b, x = Alphabet.byte b) ∨ x ∈ pub.toList ∨ x ∈ random.toList ∨ x ∈ sid := by
  obtain ⟨-, paddingLen, -, -, rfl⟩ := buildClientHello_eq_ok h
  simp only [helloRecord_eq, helloHead, helloTail, List.mem_append] at hx
  obtain ((hx | hx) | hx) | hx | hx | hx := hx
  · exact .inl (exists_byte_of_mem_lits hx)
  · exact .inr (.inr (.inl hx))
  · exact .inl (exists_byte_of_mem_lits hx)
  · exact .inr (.inr (.inr hx))
  · exact .inl (exists_byte_of_mem_lits hx)
  · rcases mem_helloExtensionsBlock hx with hbyte | hpub
    · exact .inl hbyte
    · exact .inr (.inl hpub)

/-- The key share and the session id are there to see. -/
theorem mem_of_buildClientHello {sni : Option String} {pub random : List.Vector σ 32}
    {sid record : List σ} (h : buildClientHello sni pub random sid = .ok record) {x : σ}
    (hx : x ∈ pub.toList ∨ x ∈ sid) : x ∈ record := by
  obtain ⟨-, paddingLen, -, -, rfl⟩ := buildClientHello_eq_ok h
  rw [helloRecord_eq]
  refine List.mem_append_right _ ?_
  rcases hx with hpub | hsid
  · refine List.mem_append_right _ (List.mem_append_right _ ?_)
    refine List.mem_flatMap.2 ⟨(EXT_KEY_SHARE, keyShareBody pub), ?_, ?_⟩
    · simp [helloExtensions]
    · exact List.mem_append_right _ (List.mem_append_right _ (List.mem_append_right _ hpub))
  · exact List.mem_append_left _ hsid

/-- The record length field bounds what the parser takes. -/
theorem length_lt_of_parseClientHello {wire : List σ} {hello : ParsedClientHello σ}
    (h : parseClientHello wire = .ok hello) : wire.length < 5 + 65536 := by
  rw [parseClientHello] at h
  obtain ⟨body, hhead, -⟩ := Cursor.bind_eq_ok.1 h
  rw [readHelloHeaders] at hhead
  obtain ⟨⟨contentType, r₁⟩, h₁, hhead⟩ := Cursor.bind_eq_ok.1 hhead
  dsimp only at hhead
  split_ifs at hhead
  obtain ⟨⟨version, r₂⟩, h₂, hhead⟩ := Cursor.bind_eq_ok.1 hhead
  dsimp only at hhead
  split_ifs at hhead
  obtain ⟨⟨recordLen, r₃⟩, h₃, hhead⟩ := Cursor.bind_eq_ok.1 hhead
  dsimp only at hhead
  split_ifs at hhead with hlen
  have hwire := (Cursor.number_eq_ok h₁).1
  obtain ⟨hr₁, hversion⟩ := Cursor.take_eq_ok h₂
  obtain ⟨hr₂, hrecord⟩ := Cursor.number_eq_ok h₃
  rw [hr₁, List.length_append, hversion, hr₂] at hwire
  omega

end ShadeVpn.Tls
