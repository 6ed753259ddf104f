import ShadeVpn.Tls.Exact
import ShadeVpn.Tls13.ServerFlight

/-!
# What a ServerHello is read as

`process_server_hello` of `native/src/tls13.rs`.  A `ServerHello` holds the parts of the
message as the parser finds them, with every length it does not compare kept apart from
what it is the length of.  The parser reads the encodings of these and nothing else
(`exists_of_readServerHello`, `readServerHello_encode`), and a message is the encoding
of one only (`ServerHello.encode_inj`).

* `unchanged_iff`: a refused hello leaves the client as it was, with no keys to derive for
  it, unless it is refused for want of a key share: that test comes behind the writes.
* `acceptsExact_iff`: an accepted hello has its lengths right, unless one of the four lengths
  that nothing compares is wrong.
-/

namespace ShadeVpn.Tls13

open Octets Checked Reader Fallible
open Tls (Extension pushExtension lengthPrefixed)

/-! ## The parts of a ServerHello -/

/-- The number of a suite. -/
def CipherSuite.code : CipherSuite → ℕ
  | aes128GcmSha256 => 0x1301
  | aes256GcmSha384 => 0x1302
  | chaCha20Poly1305Sha256 => 0x1303

theorem CipherSuite.fromU16_eq_some {v : ℕ} {suite : CipherSuite} :
    fromU16 v = some suite ↔ v = suite.code := by
  cases suite <;> simp only [fromU16, code] <;> split_ifs <;> simp_all

theorem CipherSuite.code_lt (suite : CipherSuite) : suite.code < 256 ^ 2 := by
  cases suite <;> decide

/-- The extensions that a loop for `extTotal` bytes reads behind the first `read`: it
stops behind the first one that reaches the total. -/
def StopsAt (extTotal : ℕ) : ℕ → List (Extension UInt8) → Prop
  | read, [] => extTotal ≤ read
  | read, e :: es => read < extTotal ∧ StopsAt extTotal (read + (4 + e.2.length)) es

/-- A ServerHello as it is read: `declared` is the length in the handshake header,
`extTotal` that of the extension block, and `rest` stands behind the last extension. -/
structure ServerHello where
  declared : List.Vector UInt8 3
  legacyVersion : List.Vector UInt8 2
  random : List.Vector UInt8 32
  sessionId : Bytes
  suite : CipherSuite
  compression : List.Vector UInt8 1
  extTotal : ℕ
  extensions : List (Extension UInt8)
  rest : Bytes

namespace ServerHello

/-- The message behind its header. -/
def body (h : ServerHello) : Bytes :=
  h.legacyVersion.toList ++ (h.random.toList ++ (lengthPrefixed 1 h.sessionId
    ++ (toBE 2 h.suite.code ++ (h.compression.toList ++ (toBE 2 h.extTotal
      ++ (h.extensions.flatMap pushExtension ++ h.rest))))))

/-- The bytes of the record. -/
def encode (h : ServerHello) : Bytes := HS_SERVER_HELLO :: (h.declared.toList ++ h.body)

/-- A key_share body: one entry, and what stands behind it. -/
def Shares (data : Bytes) : Prop :=
  ∃ (share : Extension UInt8) (more : Bytes), share.Fits ∧ data = pushExtension share ++ more

/-- The parts are such as the parser can read. -/
structure Reads (h : ServerHello) : Prop where
  sessionId : h.sessionId.length < 256 ^ 1
  extTotal : h.extTotal < 256 ^ 2
  extensions : ∀ e ∈ h.extensions, e.Fits
  stops : StopsAt h.extTotal 0 h.extensions
  shares : ∀ e ∈ h.extensions, e.1 = EXT_KEY_SHARE → Shares e.2

/-- A key_share extension that begins with an x25519 entry. -/
def IsShare (e : Extension UInt8) : Prop :=
  e.1 = EXT_KEY_SHARE ∧ ∃ key more : Bytes, key.length = 32 ∧
    e.2 = pushExtension (GROUP_X25519, key) ++ more

/-- An x25519 share is offered. -/
def Offers (h : ServerHello) : Prop := ∃ e ∈ h.extensions, IsShare e

/-- Every length is the length of what it stands for. -/
structure Exact (h : ServerHello) : Prop where
  message : ofBE h.declared.toList = h.body.length
  block : h.extTotal = (h.extensions.flatMap pushExtension).length
  shares : ∀ e ∈ h.extensions, e.1 = EXT_KEY_SHARE →
    ∃ share : Extension UInt8, share.Fits ∧ e.2 = pushExtension share
  record : h.rest = []

/-- Such a hello is a handshake message. -/
theorem Exact.encode_eq {h : ServerHello} (hexact : h.Exact) :
    h.encode = (Message.mk HS_SERVER_HELLO h.body).encode := by
  have hbytes : toBE 3 (ofBE h.declared.toList) = h.declared.toList := by
    have := toBE_ofBE h.declared.toList
    rwa [h.declared.toList_length] at this
  rw [encode, Message.encode, ← hexact.message, hbytes]

/-! ## One reading -/

theorem pushExtension_append (e : Extension UInt8) (tail : Bytes) :
    pushExtension e ++ tail = toBE 2 e.1 ++ (lengthPrefixed 2 e.2 ++ tail) := by
  simp [pushExtension, lengthPrefixed]

/-- An extension says where it ends. -/
theorem pushExtension_append_inj {e f : Extension UInt8} {x y : Bytes} (he : e.Fits) (hf : f.Fits)
    (h : pushExtension e ++ x = pushExtension f ++ y) : e = f ∧ x = y := by
  rw [pushExtension_append, pushExtension_append] at h
  obtain ⟨htype, hrest⟩ := List.append_inj h (by simp)
  obtain ⟨hbody, htail⟩ := Tls.lengthPrefixed_append_inj he.2 hf.2 hrest
  exact ⟨Prod.ext (toBE_injOn (k := 2) he.1 hf.1 htype) hbody, htail⟩

/-- The extensions that the loop reads are determined by the bytes. -/
theorem flatMap_append_inj {extTotal read : ℕ} {es fs : List (Extension UInt8)} {x y : Bytes}
    (hes : ∀ e ∈ es, e.Fits) (hfs : ∀ f ∈ fs, f.Fits) (hstop : StopsAt extTotal read es)
    (hstop' : StopsAt extTotal read fs)
    (h : es.flatMap pushExtension ++ x = fs.flatMap pushExtension ++ y) : es = fs ∧ x = y := by
  induction es generalizing fs read with
  | nil =>
    cases fs with
    | nil => exact ⟨rfl, h⟩
    | cons f fs => exact absurd hstop'.1 (not_lt.2 hstop)
  | cons e es ih =>
    cases fs with
    | nil => exact absurd hstop.1 (not_lt.2 hstop')
    | cons f fs =>
      rw [List.forall_mem_cons] at hes hfs
      rw [List.flatMap_cons, List.flatMap_cons, List.append_assoc, List.append_assoc] at h
      obtain ⟨rfl, htail⟩ := pushExtension_append_inj hes.1 hfs.1 h
      obtain ⟨rfl, hrest⟩ := ih hes.2 hfs.2 hstop.2 hstop'.2 htail
      exact ⟨rfl, hrest⟩

/-- **A message has one reading.** -/
theorem encode_inj {h h' : ServerHello} (hr : h.Reads) (hr' : h'.Reads)
    (heq : h.encode = h'.encode) : h = h' := by
  obtain ⟨hdeclared, heq⟩ := List.append_inj (List.cons.inj heq).2 (by simp)
  obtain ⟨hlegacy, heq⟩ := List.append_inj heq (by simp)
  obtain ⟨hrandom, heq⟩ := List.append_inj heq (by simp)
  obtain ⟨hsid, heq⟩ := Tls.lengthPrefixed_append_inj hr.sessionId hr'.sessionId heq
  obtain ⟨hsuite, heq⟩ := List.append_inj heq (by simp)
  obtain ⟨hcompression, heq⟩ := List.append_inj heq (by simp)
  obtain ⟨htotal, heq⟩ := List.append_inj heq (by simp)
  have hcode := toBE_injOn h.suite.code_lt h'.suite.code_lt hsuite
  have hsuite' : h.suite = h'.suite :=
    Option.some.inj ((CipherSuite.fromU16_eq_some.2 rfl).symm.trans
      (CipherSuite.fromU16_eq_some.2 hcode))
  have htotal' := toBE_injOn hr.extTotal hr'.extTotal htotal
  obtain ⟨hexts, hrest⟩ := flatMap_append_inj hr.extensions hr'.extensions hr.stops
    (htotal' ▸ hr'.stops) heq
  cases h
  cases h'
  simp only [ServerHello.mk.injEq]
  exact ⟨List.Vector.toList_injective hdeclared, List.Vector.toList_injective hlegacy,
    List.Vector.toList_injective hrandom, hsid, hsuite',
    List.Vector.toList_injective hcompression, htotal', hexts, hrest⟩

/-! ## What the parser reads -/

/-- A length in front and what it counts are read one after the other. -/
theorem number_lengthPrefixed {k : ℕ} {bs : Bytes} (h : bs.length < 256 ^ k) (rest : Bytes) :
    (Cursor.number (.err .truncated) k (lengthPrefixed k bs ++ rest) :
      Except (Stop Tls13Error) _) = .ok (bs.length, bs ++ rest) := by
  rw [lengthPrefixed, List.append_assoc]
  exact Cursor.number_toBE_append h _

theorem isShare_iff {share : Extension UInt8} {more : Bytes} (hshare : share.Fits) :
    IsShare (EXT_KEY_SHARE, pushExtension share ++ more) ↔
      share.1 = GROUP_X25519 ∧ share.2.length = 32 := by
  constructor
  · rintro ⟨-, key, more', hkey, heq⟩
    have hgroup : GROUP_X25519 < 65536 := by decide
    have hfits : Extension.Fits (GROUP_X25519, key) := ⟨hgroup, by dsimp only; omega⟩
    obtain ⟨rfl, -⟩ := pushExtension_append_inj hshare hfits heq
    exact ⟨rfl, hkey⟩
  · rintro ⟨hgroup, hkey⟩
    exact ⟨rfl, share.2, more, hkey, by rw [← hgroup]⟩

variable {share share' : Option (List.Vector UInt8 32)} {data : Bytes}

/-- A key_share body that is read begins with an entry. -/
theorem shares_of_readShareEntry (h : readShareEntry share data = .ok share') : Shares data := by
  simp only [readShareEntry, Cursor.bind_eq_ok, Prod.exists] at h
  obtain ⟨group, r₁, hgroup, klen, r₂, hklen, key, more, hkey, -⟩ := h
  have hdata := Cursor.number_eq_ok_toBE hgroup
  have hgroup' := (Cursor.number_eq_ok hgroup).2
  obtain ⟨rfl, hlen⟩ := Tls.lengthPrefixed_of_take hklen hkey
  refine ⟨(group, key), more, ⟨hgroup', hlen⟩, ?_⟩
  rw [pushExtension_append]
  exact hdata

/-- And one that begins with an entry is read. -/
theorem readShareEntry_of_shares (share : Option (List.Vector UInt8 32)) (h : Shares data) :
    ∃ share', readShareEntry share data = .ok share' ∧
      (share'.isSome ↔ share.isSome ∨ IsShare (EXT_KEY_SHARE, data)) := by
  obtain ⟨⟨group, key⟩, more, hfits, rfl⟩ := h
  have hgroup : u16 (toBE 2 group ++ (lengthPrefixed 2 key ++ more)) =
      .ok (group, lengthPrefixed 2 key ++ more) := Cursor.number_toBE_append hfits.1 _
  have hklen : u16 (lengthPrefixed 2 key ++ more) = .ok (key.length, key ++ more) :=
    number_lengthPrefixed hfits.2 _
  have hkey : take key.length (key ++ more) = .ok (key, more) := Cursor.take_append rfl _
  rw [isShare_iff hfits, readShareEntry, pushExtension_append]
  simp only [hgroup, hklen, hkey, bind, Except.bind]
  by_cases hx : group = GROUP_X25519 ∧ key.length = 32
  · rw [if_pos hx, tryInto, dif_pos hx.2]
    exact ⟨_, rfl, iff_of_true rfl (Or.inr hx)⟩
  · rw [if_neg hx]
    exact ⟨share, rfl, by simp [hx]⟩

/-- What one extension makes of the share. -/
def readShare (share : Option (List.Vector UInt8 32)) (e : Extension UInt8) :
    Except (Stop Tls13Error) (Option (List.Vector UInt8 32)) :=
  if e.1 = EXT_KEY_SHARE then readShareEntry share e.2 else .ok share

/-- One turn of the loop. -/
theorem readShareExtensions_more {extTotal read : ℕ} (hmore : read < extTotal)
    (share : Option (List.Vector UInt8 32)) (sh : Bytes) :
    readShareExtensions extTotal read share sh = (do
      let (t, sh) ← u16 sh
      let (l, sh) ← u16 sh
      let (data, sh) ← take l sh
      let share ← readShare share (t, data)
      readShareExtensions extTotal (read + (4 + l)) share sh) := by
  rw [readShareExtensions, if_pos hmore]
  refine bind_congr fun ⟨t, r₁⟩ => bind_congr fun ⟨l, r₂⟩ => bind_congr fun ⟨data, r₃⟩ => ?_
  dsimp only
  rw [readShare]
  split_ifs <;> rfl

/-- **What the extension loop has read** is whole extensions, the last of which reaches the
declared total. -/
theorem exists_of_readShareExtensions {extTotal read : ℕ}
    {share share' : Option (List.Vector UInt8 32)} {sh : Bytes}
    (h : readShareExtensions extTotal read share sh = .ok share') :
    ∃ (es : List (Extension UInt8)) (rest : Bytes), (∀ e ∈ es, e.Fits) ∧
      sh = es.flatMap pushExtension ++ rest ∧ StopsAt extTotal read es ∧
      ∀ e ∈ es, e.1 = EXT_KEY_SHARE → Shares e.2 := by
  by_cases hmore : read < extTotal
  · rw [readShareExtensions_more hmore] at h
    simp only [Cursor.bind_eq_ok, Prod.exists] at h
    obtain ⟨t, r₁, htype, l, r₂, hlen, data, r₃, hdata, share₁, hshare, h⟩ := h
    obtain ⟨es, rest, hes, rfl, hstop, hshares⟩ := exists_of_readShareExtensions h
    have hsh := Cursor.number_eq_ok_toBE htype
    have htype' := (Cursor.number_eq_ok htype).2
    obtain ⟨-, hl⟩ := Cursor.take_eq_ok hdata
    obtain ⟨rfl, hdata'⟩ := Tls.lengthPrefixed_of_take hlen hdata
    refine ⟨(t, data) :: es, rest, List.forall_mem_cons.2 ⟨⟨htype', hdata'⟩, hes⟩, ?_, ?_, ?_⟩
    · rw [List.flatMap_cons, List.append_assoc, pushExtension_append]
      exact hsh
    · exact ⟨hmore, hl ▸ hstop⟩
    · refine List.forall_mem_cons.2 ⟨fun hkey => ?_, hshares⟩
      rw [readShare, if_pos hkey] at hshare
      exact shares_of_readShareEntry hshare
  · exact ⟨[], sh, by simp, rfl, not_lt.1 hmore, by simp⟩
termination_by extTotal - read

/-- **The extension loop is a fold** over the extensions it reads. -/
theorem readShareExtensions_fold {extTotal read : ℕ} {es : List (Extension UInt8)} (rest : Bytes)
    (hes : ∀ e ∈ es, e.Fits) (hstop : StopsAt extTotal read es)
    (share : Option (List.Vector UInt8 32)) :
    readShareExtensions extTotal read share (es.flatMap pushExtension ++ rest) =
      es.foldlM readShare share := by
  induction es generalizing read share with
  | nil =>
    rw [readShareExtensions, if_neg (not_lt.2 hstop)]
    rfl
  | cons e es ih =>
    obtain ⟨t, data⟩ := e
    rw [List.forall_mem_cons] at hes
    have htype : u16 (toBE 2 t ++ (lengthPrefixed 2 data
        ++ (es.flatMap pushExtension ++ rest))) = .ok (t, _) :=
      Cursor.number_toBE_append hes.1.1 _
    have hlen : u16 (lengthPrefixed 2 data ++ (es.flatMap pushExtension ++ rest)) =
        .ok (data.length, _) := number_lengthPrefixed hes.1.2 _
    have hdata : take data.length (data ++ (es.flatMap pushExtension ++ rest)) =
        .ok (data, _) := Cursor.take_append rfl _
    rw [readShareExtensions_more hstop.1, List.flatMap_cons, List.append_assoc,
      pushExtension_append, List.foldlM_cons]
    simp only [htype, hlen, hdata, bind, Except.bind]
    rcases readShare share (t, data) with e | share₁
    · rfl
    · exact ih hes.2 hstop.2 share₁

/-- Extensions whose shares can be read come to a share, if there is one. -/
theorem foldlM_readShare_isSome {es : List (Extension UInt8)}
    (hshares : ∀ e ∈ es, e.1 = EXT_KEY_SHARE → Shares e.2)
    (share : Option (List.Vector UInt8 32)) :
    ∃ share', es.foldlM readShare share = .ok share' ∧
      (share'.isSome ↔ share.isSome ∨ ∃ e ∈ es, IsShare e) := by
  induction es generalizing share with
  | nil => exact ⟨share, rfl, by simp⟩
  | cons e es ih =>
    obtain ⟨t, data⟩ := e
    rw [List.forall_mem_cons] at hshares
    -- the share behind this extension
    obtain ⟨share₁, hentry, hsome⟩ : ∃ share₁, readShare share (t, data) = .ok share₁ ∧
        (share₁.isSome ↔ share.isSome ∨ IsShare (t, data)) := by
      by_cases hkey : t = EXT_KEY_SHARE
      · subst hkey
        exact readShareEntry_of_shares share (hshares.1 rfl)
      · rw [readShare, if_neg hkey]
        exact ⟨share, rfl, by simp [IsShare, hkey]⟩
    obtain ⟨share', hrest, hsome'⟩ := ih hshares.2 share₁
    refine ⟨share', ?_, ?_⟩
    · rw [List.foldlM_cons, hentry]
      exact hrest
    · rw [hsome', hsome, List.exists_mem_cons_iff, or_assoc]

/-- **The parser reads encodings only.** -/
theorem exists_of_readServerHello {body : Bytes} {suite : CipherSuite}
    (hhead : body.head? = some HS_SERVER_HELLO) (h : readServerHello body = .ok (suite, share)) :
    ∃ hello : ServerHello, hello.Reads ∧ hello.encode = body := by
  simp only [readServerHello, Cursor.bind_eq_ok, Prod.exists] at h
  obtain ⟨r₀, hslice, legacy, r₁, hlegacy, random, r₂, hrandom, sidLen, r₃, hsidLen, sid, r₄, hsid,
    code, r₅, hcode, suite', hsuite, compression, r₆, hcompression, extTotal, r₇, htotal, share',
    hloop, hend⟩ := h
  obtain ⟨es, rest, hes, rfl, hstop, hshares⟩ := exists_of_readShareExtensions hloop
  have htotalEq := Cursor.number_eq_ok_toBE htotal
  have hcompressionEq := Cursor.number_eq_ok_toBE hcompression
  have hcodeEq := Cursor.number_eq_ok_toBE hcode
  rw [CipherSuite.fromU16_eq_some.1 (okOr_eq_ok.1 hsuite)] at hcodeEq
  obtain ⟨hsidEq, hsidLt⟩ := Tls.lengthPrefixed_of_take hsidLen hsid
  obtain ⟨hrandomEq, hrandomLen⟩ := Cursor.take_eq_ok hrandom
  obtain ⟨hlegacyEq, hlegacyLen⟩ := Cursor.take_eq_ok hlegacy
  -- the header: the type and three bytes that the parser steps over
  rw [slice] at hslice
  split_ifs at hslice with hlong
  rw [List.take_length, Except.ok.injEq] at hslice
  match body, hhead, hlong, hslice with
  | [type, a, b, c], hhead, _, hslice | type :: a :: b :: c :: _ :: _, hhead, _, hslice =>
    obtain rfl : type = HS_SERVER_HELLO := Option.some.inj hhead
    refine ⟨⟨⟨[a, b, c], rfl⟩, ⟨legacy, hlegacyLen⟩, ⟨random, hrandomLen⟩, sid, suite',
      ⟨toBE 1 compression, length_toBE 1 _⟩, extTotal, es, rest⟩,
      ⟨hsidLt, (Cursor.number_eq_ok htotal).2, hes, hstop, hshares⟩, ?_⟩
    show HS_SERVER_HELLO :: a :: b :: c :: (legacy ++ (random ++ (lengthPrefixed 1 sid
      ++ (toBE 2 suite'.code ++ (toBE 1 compression ++ (toBE 2 extTotal
        ++ (es.flatMap pushExtension ++ rest))))))) = _
    rw [← htotalEq, ← hcompressionEq, ← hcodeEq, ← hsidEq, ← hrandomEq, ← hlegacyEq, ← hslice]
    rfl

/-- What the parser makes of an encoding, by its extensions. -/
theorem readServerHello_eq {h : ServerHello} (hr : h.Reads) :
    readServerHello h.encode = (h.extensions.foldlM readShare none).map (h.suite, ·) := by
  have hslice : (slice h.encode 4 h.encode.length : Except (Stop Tls13Error) Bytes) =
      .ok h.body := by
    have hlen : h.encode.length = 4 + h.body.length := by
      simp [encode]
      omega
    rw [slice_eq_ok (by omega) le_rfl, List.take_length]
    exact congrArg _ (List.drop_left' (by simp))
  have hloop := readShareExtensions_fold h.rest hr.extensions hr.stops none
  have hlegacy (r : Bytes) : take 2 (h.legacyVersion.toList ++ r) = .ok (_, r) :=
    Cursor.take_append h.legacyVersion.toList_length r
  have hrandom (r : Bytes) : take 32 (h.random.toList ++ r) = .ok (_, r) :=
    Cursor.take_append h.random.toList_length r
  have hsidLen (r : Bytes) :
      u8 (lengthPrefixed 1 h.sessionId ++ r) = .ok (_, h.sessionId ++ r) :=
    number_lengthPrefixed hr.sessionId r
  have hsid (r : Bytes) : take h.sessionId.length (h.sessionId ++ r) = .ok (_, r) :=
    Cursor.take_append rfl r
  have hcode (r : Bytes) : u16 (toBE 2 h.suite.code ++ r) = .ok (_, r) :=
    Cursor.number_toBE_append h.suite.code_lt r
  have hcompression (r : Bytes) : u8 (h.compression.toList ++ r) =
      .ok (ofBE h.compression.toList, r) := by
    simpa using Cursor.number_append h.compression.toList_length r
  have htotal (r : Bytes) : u16 (toBE 2 h.extTotal ++ r) = .ok (_, r) :=
    Cursor.number_toBE_append hr.extTotal r
  have hsuite : (okOr .badCipherSuite (CipherSuite.fromU16 h.suite.code) :
      Except (Stop Tls13Error) CipherSuite) = .ok h.suite :=
    okOr_eq_ok.2 (CipherSuite.fromU16_eq_some.2 rfl)
  simp only [readServerHello, hslice, body, hlegacy, hrandom, hsidLen, hsid, hcode, hsuite,
    hcompression, htotal, hloop, bind, Except.bind]
  rcases h.extensions.foldlM readShare none with e | share <;> rfl

/-- **The parser reads every encoding.** -/
theorem readServerHello_encode {h : ServerHello} (hr : h.Reads) :
    ∃ share, readServerHello h.encode = .ok (h.suite, share) ∧ (share.isSome ↔ h.Offers) := by
  obtain ⟨share, hfold, hsome⟩ := foldlM_readShare_isSome hr.shares none
  refine ⟨share, ?_, by simpa [Offers] using hsome⟩
  rw [readServerHello_eq hr, hfold]
  rfl

end ServerHello

/-! ## What the method makes of it -/

variable (k : Crates)

/-- What a ServerHello that was read makes of the client. -/
def Tls13Client.greeted (c : Tls13Client) (suite : CipherSuite) (helloHs body : Bytes) :
    Tls13Client :=
  { c with
    transcript := some (((Transcript.new suite).update helloHs).update body)
    suite := some suite
    earlySecret := some (hkdfExtract k suite.hash (List.replicate suite.hash.len 0)
      (List.replicate suite.hash.len 0)) }

/-- A client that has sent its hello is given a record that reads as `h`. -/
structure Greets (c : Tls13Client) (wire : Bytes) (h : ServerHello) (helloHs : Bytes) : Prop where
  reads : h.Reads
  record : recordBody CONTENT_HANDSHAKE .badRecord wire = .ok h.encode
  sent : ∃ hello, c.clientHello = some hello ∧ 5 ≤ hello.length ∧ hello.drop 5 = helloHs

variable {k} {c c' : Tls13Client} {wire helloHs : Bytes} {h : ServerHello}

theorem exec_processServerHello (hgreets : Greets c wire h helloHs) :
    ∃ share, exec (processServerHello k wire) c =
        (okOr .noKeyShare share, c.greeted k h.suite helloHs h.encode) ∧
      (share.isSome ↔ h.Offers) := by
  obtain ⟨share, hread, hsome⟩ := ServerHello.readServerHello_encode hgreets.reads
  obtain ⟨hello, hsent, hlong, rfl⟩ := hgreets.sent
  refine ⟨share, ?_, hsome⟩
  have hhead : h.encode.head? = some HS_SERVER_HELLO := rfl
  simp only [processServerHello, exec_bind, exec_lift, hgreets.record, hhead, ne_eq,
    not_true_eq_false, if_false, hread, exec_get, orFail, okOr, hsent, if_pos hlong, exec_modify,
    Tls13Client.greeted]

/-- A record that does not read as a ServerHello, or comes before the client's hello, is
refused before anything is written. -/
theorem exec_processServerHello_refused (h : ∀ hello helloHs, ¬ Greets c wire hello helloHs) :
    ∃ e, exec (processServerHello k wire) c = (.error e, c) := by
  rw [processServerHello, exec_bind, exec_lift]
  rcases hbody : recordBody CONTENT_HANDSHAKE .badRecord wire with e | body
  · exact ⟨e, rfl⟩
  dsimp only
  split_ifs with hhead
  · exact ⟨_, rfl⟩
  rw [exec_bind, exec_lift]
  rcases hread : readServerHello body with e | ⟨suite, share⟩
  · exact ⟨e, rfl⟩
  obtain ⟨hello, hreads, rfl⟩ := ServerHello.exists_of_readServerHello (not_not.1 hhead) hread
  -- the record reads, so that the client has not sent its hello
  simp only [exec_bind, exec_get, orFail, exec_lift]
  rcases hsent : c.clientHello with _ | sent
  · exact ⟨_, rfl⟩
  have hshort : ¬ 5 ≤ sent.length :=
    fun hlong => h hello _ ⟨hreads, hbody, sent, hsent, hlong, rfl⟩
  simp only [okOr, if_neg hshort]
  exact ⟨_, rfl⟩

/-! ## A refused hello -/

/-- What the client is to keep over a refusal: the three fields, and with them whatever
`derive_handshake_keys` makes of a shared secret. -/
structure Untouched (k : Crates) (c c' : Tls13Client) : Prop where
  suite : c'.suite = c.suite
  transcript : c'.transcript = c.transcript
  earlySecret : c'.earlySecret = c.earlySecret
  derives : ∀ sharedSecret,
    exec (deriveHandshakeKeys k sharedSecret) c' = exec (deriveHandshakeKeys k sharedSecret) c

/-- `derive_handshake_keys` installs handshake keys for the ServerHello in `wire`: on its
suite, and on the transcript that ends with it. -/
def KeysFor (k : Crates) (c : Tls13Client) (wire : Bytes) : Prop :=
  ∃ h helloHs, Greets c wire h helloHs ∧ c.suite = some h.suite ∧
    c.transcript = some (((Transcript.new h.suite).update helloHs).update h.encode) ∧
    ∃ sharedSecret c', exec (deriveHandshakeKeys k sharedSecret) c = (.ok (), c') ∧
      c'.hsRead.isSome ∧ c'.hsWrite.isSome

/-- A refused hello leaves the client as it was, and no handshake keys are installed for it. -/
def Unchanged (k : Crates) (c : Tls13Client) (wire : Bytes) : Prop :=
  ∀ e c', exec (processServerHello k wire) c = (.error (.err e), c') →
    Untouched k c c' ∧ ¬ KeysFor k c' wire

/-- A record that reads as a ServerHello without an x25519 share, given to a client that
has sent its hello. -/
def Shareless (c : Tls13Client) (wire : Bytes) : Prop :=
  ∃ h helloHs, Greets c wire h helloHs ∧ ¬ h.Offers

/-- Handshake keys are derived from any suite, transcript and early secret. -/
theorem deriveHandshakeKeys_installs {suite : CipherSuite} {tr : Transcript} {early : Bytes}
    (hsuite : c.suite = some suite) (htr : c.transcript = some tr)
    (hearly : c.earlySecret = some early) (sharedSecret : Bytes) :
    ∃ c', exec (deriveHandshakeKeys k sharedSecret) c = (.ok (), c') ∧
      c'.hsRead.isSome ∧ c'.hsWrite.isSome := by
  let derived := deriveSecret k suite.hash early "derived" (emptyHash k suite.hash)
  let hs := hkdfExtract k suite.hash derived sharedSecret
  obtain ⟨read, hread, -⟩ := protectionOf_eq_ok k suite
    (deriveSecret k suite.hash hs "s hs traffic" (tr.hashOf k))
  obtain ⟨write, hwrite, -⟩ := protectionOf_eq_ok k suite
    (deriveSecret k suite.hash hs "c hs traffic" (tr.hashOf k))
  simp only [deriveHandshakeKeys, exec_bind, exec_get, orFail, orPanic, exec_lift, exec_modify,
    hsuite, htr, hearly, okOr, unwrap, derived, hs] at hread hwrite ⊢
  rw [hread]
  dsimp only
  rw [hwrite]
  exact ⟨_, rfl, rfl, rfl⟩

/-- A hello that was read has its keys derived, whether it was accepted or not. -/
theorem keysFor_greeted (hgreets : Greets c wire h helloHs) :
    KeysFor k (c.greeted k h.suite helloHs h.encode) wire := by
  refine ⟨h, helloHs, ⟨hgreets.reads, hgreets.record, hgreets.sent⟩, rfl, rfl, [], ?_⟩
  exact deriveHandshakeKeys_installs rfl rfl rfl []

/-- A hello without a share is refused behind the writes. -/
theorem exec_processServerHello_shareless (hgreets : Greets c wire h helloHs)
    (hnone : ¬ h.Offers) : exec (processServerHello k wire) c =
      (.error (.err .noKeyShare), c.greeted k h.suite helloHs h.encode) := by
  obtain ⟨share, hrun, hsome⟩ := exec_processServerHello (k := k) hgreets
  obtain rfl : share = none := by
    cases share with
    | none => rfl
    | some key => exact absurd (hsome.1 rfl) hnone
  exact hrun

theorem not_unchanged_of_shareless (h : Shareless c wire) : ¬ Unchanged k c wire := by
  obtain ⟨hello, helloHs, hgreets, hnone⟩ := h
  intro hkept
  exact (hkept _ _ (exec_processServerHello_shareless hgreets hnone)).2 (keysFor_greeted hgreets)

/-- A refused hello that has a share, or none to look for, is refused in front of the writes. -/
theorem refused_of_not_shareless (h : ¬ Shareless c wire) {e : Tls13Error}
    (hrun : exec (processServerHello k wire) c = (.error (.err e), c')) :
    c' = c ∧ ∀ hello helloHs, ¬ Greets c wire hello helloHs := by
  have hgreets : ∀ hello helloHs, ¬ Greets c wire hello helloHs := by
    intro hello helloHs hgreets
    obtain ⟨share, hexec, hsome⟩ := exec_processServerHello (k := k) hgreets
    rw [hexec] at hrun
    cases share with
    | some key => cases hrun
    | none => exact h ⟨hello, helloHs, hgreets, fun hoffers => by simpa using hsome.2 hoffers⟩
  obtain ⟨e', hexec⟩ := exec_processServerHello_refused (k := k) hgreets
  rw [hexec] at hrun
  exact ⟨(Prod.mk.inj hrun).2.symm, hgreets⟩

/-- **A refused hello leaves the client as it was, unless it lacks a key share.** -/
theorem unchanged_iff (k : Crates) (c : Tls13Client) (wire : Bytes) :
    Unchanged k c wire ↔ ¬ Shareless c wire := by
  constructor
  · exact fun hkept h => not_unchanged_of_shareless h hkept
  · intro hshares e c' hrun
    obtain ⟨rfl, hgreets⟩ := refused_of_not_shareless hshares hrun
    refine ⟨⟨rfl, rfl, rfl, fun _ => rfl⟩, ?_⟩
    rintro ⟨h, helloHs, hread, -⟩
    exact hgreets h helloHs hread

/-- A client that has sent a hello. -/
def greetingClient : Tls13Client :=
  { Tls13Client.new with clientHello := some [CONTENT_HANDSHAKE, 3, 1, 0, 1, 1] }

/-- A ServerHello without extensions. -/
def bareHello : ServerHello :=
  ⟨⟨[0, 0, 40], rfl⟩, .replicate 2 3, .replicate 32 1, [], .aes128GcmSha256, .replicate 1 0, 0,
    [], []⟩

theorem greets_bareHello :
    Greets greetingClient ([CONTENT_HANDSHAKE, 3, 3, 0, 44] ++ bareHello.encode) bareHello [1] where
  reads := ⟨by decide, by decide, by simp [bareHello], le_rfl, by simp [bareHello]⟩
  record := by decide +kernel
  sent := ⟨_, rfl, by decide, rfl⟩

/-- The hello without extensions is refused, and the handshake keys can be derived from it. -/
theorem not_unchanged : ∃ c c' wire,
    exec (processServerHello sampleCrates wire) c = (.error (.err .noKeyShare), c') ∧
      ¬ Unchanged sampleCrates c wire ∧
      (exec (deriveHandshakeKeys sampleCrates [7]) c').2.hsRead.isSome := by
  have hnone : ¬ bareHello.Offers := by simp [ServerHello.Offers, bareHello]
  exact ⟨_, _, _, exec_processServerHello_shareless greets_bareHello hnone,
    not_unchanged_of_shareless ⟨bareHello, [1], greets_bareHello, hnone⟩, by decide +kernel⟩

/-! ## The lengths of an accepted hello -/

/-- An accepted record is a ServerHello whose lengths are all right, and the transcript
takes in that message behind the client's. -/
def AcceptsExact (k : Crates) (c : Tls13Client) (wire : Bytes) : Prop :=
  ∀ share c', exec (processServerHello k wire) c = (.ok share, c') →
    ∃ h helloHs, Greets c wire h helloHs ∧ h.Exact ∧
      c'.transcript = some (((Transcript.new h.suite).update helloHs).update
        (Message.mk HS_SERVER_HELLO h.body).encode)

/-- A record that reads as a ServerHello with an x25519 share, given to a client that has
sent its hello, in which a length is wrong: that of the message, that of the block (its
last extension reaches past it), that of a key_share entry or that of the record. -/
def Slack (c : Tls13Client) (wire : Bytes) : Prop :=
  ∃ h helloHs, Greets c wire h helloHs ∧ h.Offers ∧ ¬ h.Exact

theorem not_acceptsExact_of_slack (hslack : Slack c wire) : ¬ AcceptsExact k c wire := by
  obtain ⟨h, helloHs, hgreets, hoffers, hwrong⟩ := hslack
  obtain ⟨share, hrun, hsome⟩ := exec_processServerHello (k := k) hgreets
  obtain ⟨key, rfl⟩ := Option.isSome_iff_exists.1 (hsome.2 hoffers)
  intro hexact
  obtain ⟨h', _, hgreets', hexact', -⟩ := hexact key _ hrun
  have hsame : h.encode = h'.encode := Except.ok.inj (hgreets.record.symm.trans hgreets'.record)
  exact hwrong (ServerHello.encode_inj hgreets.reads hgreets'.reads hsame ▸ hexact')

/-- **An accepted hello has its lengths right, unless one of the four is wrong** that the
parser does not compare. -/
theorem acceptsExact_iff (k : Crates) (c : Tls13Client) (wire : Bytes) :
    AcceptsExact k c wire ↔ ¬ Slack c wire := by
  refine ⟨fun hexact hslack => not_acceptsExact_of_slack hslack hexact,
    fun htight share c' hrun => ?_⟩
  by_cases hgreets : ∃ h helloHs, Greets c wire h helloHs
  · obtain ⟨h, helloHs, hgreets⟩ := hgreets
    obtain ⟨share', hexec, hsome⟩ := exec_processServerHello (k := k) hgreets
    rw [hexec] at hrun
    cases share' with
    | none => cases hrun
    | some key =>
      obtain ⟨-, rfl⟩ := Prod.mk.inj hrun
      have hexact : h.Exact := by
        by_contra hwrong
        exact htight ⟨h, helloHs, hgreets, hsome.1 rfl, hwrong⟩
      refine ⟨h, helloHs, hgreets, hexact, ?_⟩
      rw [← hexact.encode_eq]
      rfl
  · push Not at hgreets
    obtain ⟨e, hexec⟩ := exec_processServerHello_refused (k := k) hgreets
    rw [hexec] at hrun
    cases hrun

/-- A hello in which all four lengths are wrong: the message is said to be empty and the
block to have one byte, and a byte follows the share and another one the block. -/
def slackHello : ServerHello :=
  ⟨⟨[0, 0, 0], rfl⟩, .replicate 2 3, .replicate 32 1, [], .aes128GcmSha256, .replicate 1 0, 1,
    [(EXT_KEY_SHARE, pushExtension (GROUP_X25519, List.replicate 32 9) ++ [0])], [7]⟩

theorem greets_slackHello :
    Greets greetingClient ([CONTENT_HANDSHAKE, 3, 3, 0, 86] ++ slackHello.encode) slackHello
      [1] where
  reads := by
    have hshare : Extension.Fits (GROUP_X25519, List.replicate 32 (9 : UInt8)) :=
      ⟨by decide, by decide⟩
    have hstop : slackHello.extTotal ≤ 0 + (4 + 37) := by decide
    refine ⟨by decide, by decide, ?_, ⟨by decide, hstop⟩, ?_⟩
    · exact List.forall_mem_singleton.2 ⟨by decide, by decide⟩
    · exact List.forall_mem_singleton.2 fun _ => ⟨_, _, hshare, rfl⟩
  record := by decide +kernel
  sent := ⟨_, rfl, by decide, rfl⟩

theorem not_acceptsExact : ¬ ∀ c wire, AcceptsExact sampleCrates c wire := by
  intro hall
  refine not_acceptsExact_of_slack ⟨slackHello, [1], greets_slackHello, ?_, ?_⟩ (hall _ _)
  · exact ⟨_, List.mem_singleton_self _, rfl, _, _, List.length_replicate, rfl⟩
  · exact fun hexact => absurd hexact.record (by decide)

end ShadeVpn.Tls13
