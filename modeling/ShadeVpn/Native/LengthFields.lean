import ShadeVpn.Lib.Layout
import ShadeVpn.Tls.HelloLength
import ShadeVpn.Tls13.AppKeys
import ShadeVpn.Vless.Header

/-!
# Length fields

`build_request_header`, `build_client_hello` and `seal_app_record` narrow every length with
`as u8` or `as u16`.  Each is written here as a layout, which says what its fields cover;
the encoder writes the layout out, and `declares_iff` says for which inputs every field
tells the truth.
-/

namespace ShadeVpn.Native

open Octets Checked Layout Vless Tls Tls13

/-! ## Request headers -/

/-- What a varint stands for: seven bits a byte, low group first. -/
def varintValue (bs : Bytes) : ℕ := Nat.ofDigits 128 (bs.map fun b => b.toNat % 128)

/-- A length as a varint. -/
def varintField : LengthField := ⟨encodeVarint, varintValue⟩

theorem varintValue_encodeVarint (n : ℕ) : varintValue (encodeVarint n) = n := by
  induction n using Nat.strong_induction_on with
  | _ n ih =>
    rcases lt_or_ge n 128 with hlt | hge
    · rw [encodeVarint_of_lt hlt, varintValue]
      simp
      omega
    · have hrec := ih (n / 128) (by omega)
      rw [varintValue] at hrec
      rw [encodeVarint_of_le hge, varintValue, List.map_cons, Nat.ofDigits_cons, hrec,
        UInt8.toNat_ofNat']
      omega

theorem exact_varint (x : Layout) : (sized varintField x).Exact ↔ x.Exact :=
  and_iff_right (varintValue_encodeVarint _)

/-- The layout of the addons. -/
def addonsLayout : Option String → Layout
  | none => raw [0x0a] ++ sized varintField (raw [0x00])
  | some name =>
    if name = "" then raw [0x0a] ++ sized varintField (raw [0x00])
    else raw [0x0a] ++ sized varintField (raw [0x01] ++ sized (.big 1) (raw (utf8 name)))

def addressLayout : Address → Layout
  | .ipv4 octets => raw (ATYP_IPV4 :: octets.toList)
  | .ipv6 octets => raw (ATYP_IPV6 :: octets.toList)
  | .domain name => raw [ATYP_DOMAIN] ++ sized (.big 1) (raw (utf8 name))

/-- The layout of a request header. -/
def requestLayout (uuid : Uuid) (flow : Option String) (command : UInt8) (address : Address)
    (port : UInt16) : Layout :=
  raw (VERSION :: uuid.toList) ++ addonsLayout flow ++
    (raw [command] ++
      if command ≠ CMD_MUX then raw (toBE 2 port.toNat) ++ addressLayout address else raw [])

theorem toBE_one (n : ℕ) : toBE 1 n = [UInt8.ofNat n] := by simp [toBE]

theorem bytes_addonsLayout (flow : Option String) :
    (addonsLayout flow).bytes = requestAddons flow := by
  have hempty : encodeVarint 1 = [0x01] := encodeVarint_of_lt (by decide)
  cases flow with
  | none => simp [addonsLayout, requestAddons, varintField, hempty]
  | some name =>
    by_cases hname : name = ""
    · simp [addonsLayout, requestAddons, varintField, hempty, hname]
    · simp [addonsLayout, requestAddons, varintField, hname, toBE_one]

theorem bytes_requestLayout (uuid : Uuid) (flow : Option String) (command : UInt8)
    (address : Address) (port : UInt16) :
    (requestLayout uuid flow command address port).bytes =
      requestHeader uuid flow command address port := by
  have haddress : (addressLayout address).bytes = address.pushTo := by
    cases address <;> simp [addressLayout, Address.pushTo, toBE_one]
  rw [requestHeader, requestDestination, requestLayout]
  split_ifs <;> simp [bytes_addonsLayout, haddress]

/-- The lengths that fit the header's fields. -/
def RequestFits (flow : Option String) (command : UInt8) (address : Address) : Prop :=
  (∀ name ∈ flow, (utf8 name).length ≤ 255) ∧
    (command = CMD_MUX ∨ ∀ name, address = .domain name → (utf8 name).length ≤ 255)

theorem exact_requestLayout (uuid : Uuid) (flow : Option String) (command : UInt8)
    (address : Address) (port : UInt16) :
    (requestLayout uuid flow command address port).Exact ↔ RequestFits flow command address := by
  have hflow : (addonsLayout flow).Exact ↔ ∀ name ∈ flow, (utf8 name).length ≤ 255 := by
    cases flow with
    | none => simp [addonsLayout, exact_varint]
    | some name =>
      by_cases hname : name = ""
      · subst hname
        simp [addonsLayout, exact_varint, utf8]
      · simp [addonsLayout, exact_varint, hname]
        omega
  have haddress : (addressLayout address).Exact ↔
      ∀ name, address = .domain name → (utf8 name).length ≤ 255 := by
    cases address with
    | ipv4 octets | ipv6 octets => simp [addressLayout]
    | domain name =>
      simp [addressLayout]
      omega
  rw [requestLayout, RequestFits, exact_append, exact_append, hflow]
  by_cases hmux : command = CMD_MUX <;> simp [hmux, haddress]

/-! ## ClientHellos -/

/-- The layout of an extension. -/
def extensionLayout (e : ℕ × Layout) : Layout := raw (toBE 2 e.1) ++ sized (.big 2) e.2

/-- The layouts of the extensions whose bodies are constants. -/
def fixedLayouts : List (ℕ × Layout) :=
  let algorithms := [0x04, 0x03, 0x08, 0x04, 0x04, 0x01, 0x05, 0x03, 0x08, 0x05, 0x05, 0x01,
    0x08, 0x06, 0x06, 0x01]
  [ (EXT_EMS, raw []),
    (EXT_RENEGOTIATION_INFO, sized (.big 1) (raw [])),
    (EXT_SUPPORTED_GROUPS, sized (.big 2) (raw (toBE 2 GROUP_GREASE ++ toBE 2 Tls.GROUP_X25519
      ++ toBE 2 GROUP_SECP256R1 ++ toBE 2 GROUP_SECP384R1))),
    (EXT_ALPN, sized (.big 2) (sized (.big 1) (raw (utf8 "h2"))
      ++ sized (.big 1) (raw (utf8 "http/1.1")))),
    (EXT_SIGNATURE_ALGORITHMS, sized (.big 2) (raw algorithms)),
    (EXT_STATUS_REQUEST, raw [0x01] ++ sized (.big 2) (raw []) ++ sized (.big 2) (raw [])),
    (EXT_COMPRESS_CERT, sized (.big 1) (raw (toBE 2 CERT_COMPRESSION_BROTLI))),
    (EXT_SCT, raw []),
    (EXT_PSK_MODES, sized (.big 1) (raw [0x01])),
    (EXT_SIGNATURE_ALGORITHMS_CERT, sized (.big 2) (raw algorithms)),
    (EXT_DELEGATED_CREDENTIALS, sized (.big 2) (raw algorithms)),
    (EXT_ALPS, sized (.big 2) (raw [])),
    (EXT_ALPS_V2, sized (.big 2) (raw [])),
    (EXT_SESSION_TICKET, raw []),
    (EXT_ETM, raw []),
    (EXT_SUPPORTED_VERSIONS,
      sized (.big 1) (raw (toBE 2 GREASE_VERSION ++ [0x03, 0x04] ++ [0x03, 0x03]))) ]

/-- The layout of the server_name extension. -/
def serverNameLayout : Option String → List (ℕ × Layout)
  | none => []
  | some host =>
    [(EXT_SERVER_NAME, sized (.big 2) (raw [0x00] ++ sized (.big 2) (raw (utf8 host))))]

/-- The layouts of the extensions, the padding last. -/
def extensionLayouts (sni : Option String) (pub : List.Vector UInt8 32) (paddingLen : ℕ) :
    List (ℕ × Layout) :=
  (GREASE_EXT, raw []) :: (serverNameLayout sni ++ fixedLayouts
    ++ [(Tls.EXT_KEY_SHARE, sized (.big 2) (raw (toBE 2 Tls.GROUP_X25519)
      ++ sized (.big 2) (raw pub.toList)))]
    ++ if paddingLen > 0 then [(EXT_PADDING, raw (List.replicate paddingLen 0))] else [])

/-- The layout of the hello body. -/
def bodyLayout (random : List.Vector UInt8 32) (sid : Bytes) (exts : Layout) : Layout :=
  raw ([0x03, 0x03] ++ random.toList) ++ sized (.big 1) (raw sid)
    ++ sized (.big 2) (raw cipherSuites) ++ sized (.big 1) (raw [0x00]) ++ sized (.big 2) exts

/-- The layout of the record around it. -/
def helloLayout (sni : Option String) (pub random : List.Vector UInt8 32) (sid : Bytes)
    (paddingLen : ℕ) : Layout :=
  raw (toBE 1 Tls.CONTENT_HANDSHAKE ++ [0x03, 0x01]) ++ sized (.big 2)
    (raw (toBE 1 HS_CLIENT_HELLO) ++ sized (.big 3) (bodyLayout random sid
      (sequence ((extensionLayouts sni pub paddingLen).map extensionLayout))))

theorem bytes_fixedLayouts : fixedLayouts.map (fun e => (e.1, e.2.bytes)) = fixedExtensions := by
  decide +kernel

/-- The extensions of a layout are those of the builder. -/
theorem bytes_extensionLayouts (sni : Option String) (pub : List.Vector UInt8 32)
    (paddingLen : ℕ) :
    (extensionLayouts sni pub paddingLen).map (fun e => (e.1, e.2.bytes)) =
      helloExtensions sni pub ++ paddingExtensions paddingLen := by
  have hname : (serverNameLayout sni).map (fun e => (e.1, e.2.bytes)) =
      serverNameExtensions sni := by
    cases sni with
    | none => rfl
    | some host => simp [serverNameLayout, serverNameExtensions, serverNameBody]
  have hpadding : (if paddingLen > 0 then [(EXT_PADDING, raw (List.replicate paddingLen 0))]
      else []).map (fun e => (e.1, e.2.bytes)) = paddingExtensions paddingLen := by
    rw [paddingExtensions]
    split_ifs <;> simp
  rw [extensionLayouts, List.map_cons, List.map_append, List.map_append, List.map_append, hname,
    bytes_fixedLayouts, hpadding, helloExtensions]
  simp [keyShareBody, X25519_PK_LEN]

theorem bytes_extensionBlock (sni : Option String) (pub : List.Vector UInt8 32)
    (paddingLen : ℕ) :
    (sequence ((extensionLayouts sni pub paddingLen).map extensionLayout)).bytes =
      helloExtensionsBlock sni pub paddingLen := by
  have hone : ∀ e : ℕ × Layout, (extensionLayout e).bytes = pushExtension (e.1, e.2.bytes) := by
    intro e
    simp [extensionLayout, pushExtension]
  rw [bytes_sequence, List.flatMap_map, helloExtensionsBlock, ← bytes_extensionLayouts,
    List.flatMap_map]
  simp only [hone]

theorem bytes_bodyLayout (random : List.Vector UInt8 32) (sid : Bytes) (exts : Layout) :
    (bodyLayout random sid exts).bytes = helloBody random sid exts.bytes := by
  simp [bodyLayout, helloBody, helloTail, toBE_one]

/-- **The builder writes the layout out.** -/
theorem bytes_helloLayout (sni : Option String) (pub random : List.Vector UInt8 32) (sid : Bytes)
    (paddingLen : ℕ) :
    (helloLayout sni pub random sid paddingLen).bytes =
      helloRecord (helloBody random sid (helloExtensionsBlock sni pub paddingLen)) := by
  simp only [helloLayout, bytes_append, bytes_sized, bytes_raw, LengthField.write_big,
    bytes_bodyLayout, bytes_extensionBlock, helloRecord, lits_uint8, List.append_assoc]

theorem exact_fixedLayouts : ∀ e ∈ fixedLayouts, e.2.Exact := by
  decide +kernel

/-- An extension of a block that fits its own field is exact. -/
theorem exact_extensionLayouts {sni : Option String} {pub : List.Vector UInt8 32}
    {paddingLen : ℕ} (h : (helloExtensionsBlock sni pub paddingLen).length < 65536) :
    ∀ e ∈ extensionLayouts sni pub paddingLen, (extensionLayout e).Exact := by
  have hshort : ∀ e ∈ extensionLayouts sni pub paddingLen, e.2.bytes.length < 65536 := by
    intro e he
    have hmem : (e.1, e.2.bytes) ∈ helloExtensions sni pub ++ paddingExtensions paddingLen := by
      rw [← bytes_extensionLayouts]
      exact List.mem_map_of_mem he
    exact lt_of_le_of_lt (length_le_flatMap hmem) h
  have hbody : ∀ e ∈ extensionLayouts sni pub paddingLen, e.2.Exact := by
    intro e he
    have hlen := hshort e he
    simp only [extensionLayouts, List.mem_cons, List.mem_append, List.not_mem_nil, or_false] at he
    rcases he with rfl | ((hname | hfixed) | rfl) | hpadding
    · trivial
    · cases sni with
      | none => cases hname
      | some host =>
        obtain rfl := List.mem_singleton.1 hname
        simp at hlen ⊢
        omega
    · exact exact_fixedLayouts e hfixed
    · simp
    · split_ifs at hpadding
      · obtain rfl := List.mem_singleton.1 hpadding
        trivial
      · cases hpadding
  intro e he
  exact ⟨trivial, (exact_sized _ 2).2 ⟨hshort e he, hbody e he⟩⟩

theorem exact_bodyLayout (random : List.Vector UInt8 32) (sid : Bytes) (exts : Layout) :
    (bodyLayout random sid exts).Exact ↔
      sid.length < 256 ∧ exts.bytes.length < 65536 ∧ exts.Exact := by
  have hsuites : cipherSuites.length < 256 ^ 2 := by decide
  simp only [bodyLayout, exact_append, exact_sized, exact_raw, bytes_raw, hsuites, true_and,
    and_true]
  constructor
  · rintro ⟨⟨hsid, -⟩, hexts⟩
    exact ⟨by omega, by omega, hexts.2⟩
  · rintro ⟨hsid, hexts, hexact⟩
    exact ⟨⟨by omega, by decide⟩, by omega, hexact⟩

/-- **A hello is exact** when its handshake message fits the record. -/
theorem exact_helloLayout {sni : Option String} {pub random : List.Vector UInt8 32} {sid : Bytes}
    (hsid : sid.length ≤ 32) (paddingLen : ℕ) :
    (helloLayout sni pub random sid paddingLen).Exact ↔
      4 + (helloBody random sid (helloExtensionsBlock sni pub paddingLen)).length < 65536 := by
  have hlen := length_helloBody random sid (helloExtensionsBlock sni pub paddingLen)
  rw [helloLayout, exact_append, exact_sized, exact_append, exact_sized, exact_bodyLayout]
  simp only [exact_raw, bytes_append, bytes_sized, bytes_raw, LengthField.write_big, true_and,
    bytes_bodyLayout, bytes_extensionBlock, List.length_append, length_toBE]
  constructor
  · intro h
    omega
  · intro h
    have hexts : (helloExtensionsBlock sni pub paddingLen).length < 65536 := by omega
    refine ⟨by omega, by omega, by omega, hexts, (exact_sequence _).2 fun x hx => ?_⟩
    obtain ⟨e, he, rfl⟩ := List.mem_map.1 hx
    exact exact_extensionLayouts hexts e he

/-! ## Records -/

/-- What `seal_app_record` relies on in the AEAD of a suite: the ciphertext is as long as
the plaintext and the tag, and plaintexts over the limit are refused. -/
structure SealDocumented (k : Crates) (limit : CipherSuite → ℕ) : Prop where
  overhead : ∀ {suite key nonce msg aad sealed}, k.encrypt suite key nonce msg aad = some sealed →
    sealed.length = msg.length + TAG_LEN
  refuses : ∀ {suite key nonce msg aad}, aad.length = 5 →
    (k.encrypt suite key nonce msg aad = none ↔ limit suite < msg.length)

/-- The layout of a record of application data. -/
def recordLayout (sealed : Bytes) : Layout :=
  raw [CONTENT_APPDATA, 0x03, 0x03] ++ sized (.big 2) (raw sealed)

/-- The header of a record that will hold `data`. -/
def recordHeader (data : Bytes) : Bytes :=
  CONTENT_APPDATA :: 0x03 :: 0x03 :: toBE 2 (data.length + 1 + TAG_LEN)

theorem exec_sealAppRecord_none {k : Crates} {c : Tls13Client} (h : c.appWrite = none)
    (data : Bytes) :
    (Fallible.exec (sealAppRecord k data) c).1 = .error (.err .unexpectedRecord) := by
  rw [sealAppRecord, exec_sealWith_refused h]

theorem exec_sealAppRecord_some {k : Crates} {c : Tls13Client} {p : Protection}
    (h : c.appWrite = some p) (hlen : p.iv.length = IV_LEN) (data : Bytes) :
    ∃ nonce, (Fallible.exec (sealAppRecord k data) c).1 =
      (okOr .decryptFailed (k.encrypt p.cipher.suite p.cipher.key nonce
        (data ++ [CONTENT_APPDATA]) (recordHeader data))).map (recordHeader data ++ ·) := by
  obtain ⟨nonce, hnonce, hiv⟩ := recordNonce_eq_ok hlen p.seq
  refine ⟨nonce, ?_⟩
  rw [sealAppRecord, exec_sealWith h hnonce, p.cipher.seal_of_length k hiv]
  rfl

/-- The payloads that a record says the truth about. -/
def RecordFits (limit : CipherSuite → ℕ) (c : Tls13Client) (data : Bytes) : Prop :=
  ∀ p ∈ c.appWrite, data.length ≤ 65518 ∨ limit p.cipher.suite < data.length + 1

/-! ## All three -/

/-- An encoder returns an error, or bytes of the format in which every length field says
how many bytes it covers. -/
inductive Declares {ε : Type} (format : Layout → Prop) : Except (Stop ε) Bytes → Prop
  | error (e : ε) : Declares format (.error (.err e))
  | ok {layout : Layout} (hformat : format layout) (hexact : layout.Exact) :
    Declares format (.ok layout.bytes)

section Declares

variable {ε : Type} {format : Layout → Prop}

theorem declares_ok {bs : Bytes} : Declares format (.ok bs : Except (Stop ε) Bytes) ↔
    ∃ layout, format layout ∧ layout.bytes = bs ∧ layout.Exact := by
  constructor
  · rintro ⟨⟩
    next layout hformat hexact => exact ⟨layout, hformat, rfl, hexact⟩
  · rintro ⟨layout, hformat, rfl, hexact⟩
    exact .ok hformat hexact

theorem declares_error {e : Stop ε} : Declares format (.error e) ↔ ∃ v, e = .err v := by
  constructor
  · rintro ⟨⟩
    exact ⟨_, rfl⟩
  · rintro ⟨v, rfl⟩
    exact .error v

end Declares

theorem declares_buildRequestHeader (uuid : Uuid) (flow : Option String) (command : UInt8)
    (address : Address) (port : UInt16) :
    Declares (· = requestLayout uuid flow command address port)
        ((buildRequestHeader uuid flow command address port).mapError .err) ↔
      RequestFits flow command address := by
  rw [← exact_requestLayout uuid flow command address port, buildRequestHeader, Except.mapError,
    declares_ok]
  constructor
  · rintro ⟨layout, rfl, -, hexact⟩
    exact hexact
  · exact fun hexact => ⟨_, rfl, bytes_requestLayout _ _ _ _ _, hexact⟩

/-- The hosts and session ids with which a hello says the truth. -/
def HelloFits (sni : Option String) (sidLen : ℕ) : Prop :=
  MAX_SESSION_ID_LEN < sidLen ∨
    ∀ host ∈ sni, (utf8 host).length ≠ 141 ∧ sidLen + (utf8 host).length ≤ 65239

/-- The layouts of a hello: the padding length is the one the builder works out. -/
def HelloFormat (sni : Option String) (pub random : List.Vector UInt8 32) (sid : Bytes)
    (layout : Layout) : Prop :=
  ∃ paddingLen, helloPaddingLen sni ((helloExtensions sni pub).flatMap pushExtension).length =
    .ok paddingLen ∧ layout = helloLayout sni pub random sid paddingLen

theorem helloFits_iff (sni : Option String) (sidLen : ℕ) :
    HelloFits sni sidLen ↔ MAX_SESSION_ID_LEN < sidLen ∨
      (sniOverhead sni ≠ 150 ∧ bodyLen (sniOverhead sni) sidLen ≤ 65531) := by
  rw [HelloFits]
  refine or_congr_right' fun hsid => ?_
  rw [MAX_SESSION_ID_LEN] at hsid
  cases sni with
  | none =>
    refine iff_of_true (by simp) ⟨by decide, ?_⟩
    rw [bodyLen, sniOverhead_none, if_pos (by decide)]
    omega
  | some host =>
    have hbody : bodyLen (sniOverhead (some host)) sidLen ≤ 65531 ↔
        sidLen + (utf8 host).length ≤ 65239 := by
      rw [bodyLen, sniOverhead_some]
      split_ifs <;> omega
    rw [hbody, sniOverhead_some]
    simp only [Option.mem_some_iff, forall_eq']
    omega

theorem declares_buildClientHello (sni : Option String) (pub random : List.Vector UInt8 32)
    (sid : Bytes) :
    Declares (HelloFormat sni pub random sid) (buildClientHello sni pub random sid) ↔
      HelloFits sni sid.length := by
  rw [helloFits_iff, buildClientHello_eq]
  by_cases hsid : MAX_SESSION_ID_LEN < sid.length
  · rw [if_pos hsid]
    exact iff_of_true (.error _) (Or.inl hsid)
  rw [if_neg hsid]
  by_cases hfault : sniOverhead sni = 150
  · rw [if_pos hfault, declares_error]
    exact iff_of_false (by rintro ⟨v, hv⟩; cases hv) (by omega)
  have hpad := helloPaddingLen_eq sni
  rw [if_neg hfault] at hpad
  have hformat : HelloFormat sni pub random sid
      (helloLayout sni pub random sid (508 - (210 + 2 * sniOverhead sni))) :=
    ⟨_, by rw [length_unpadded, hpad], rfl⟩
  have hexact := @exact_helloLayout sni pub random sid (not_lt.1 hsid)
    (508 - (210 + 2 * sniOverhead sni))
  rw [length_helloBody_padded] at hexact
  rw [if_neg hfault]
  split_ifs with hlong
  · rw [declares_error]
    exact iff_of_false (by rintro ⟨v, hv⟩; cases hv) (by omega)
  · rw [declares_ok]
    constructor
    · rintro ⟨layout, ⟨paddingLen, hn, rfl⟩, -, hlayout⟩
      rw [length_unpadded, hpad] at hn
      cases hn
      have := hexact.1 hlayout
      omega
    · intro hfits
      exact ⟨_, hformat, bytes_helloLayout .., hexact.2 (by omega)⟩

theorem declares_sealAppRecord {k : Crates} {limit : CipherSuite → ℕ}
    (hk : SealDocumented k limit) {c : Tls13Client} (hc : c.Inv) (data : Bytes) :
    Declares (fun layout => ∃ sealed, layout = recordLayout sealed)
        (Fallible.exec (sealAppRecord k data) c).1 ↔
      RecordFits limit c data := by
  rw [RecordFits]
  cases hp : c.appWrite with
  | none =>
    rw [exec_sealAppRecord_none hp]
    exact iff_of_true (.error _) (by simp)
  | some p =>
    obtain ⟨nonce, hrun⟩ := exec_sealAppRecord_some (k := k) hp (hc.appWrite p hp) data
    have hlimit : k.encrypt p.cipher.suite p.cipher.key nonce (data ++ [CONTENT_APPDATA])
        (recordHeader data) = none ↔ limit p.cipher.suite < data.length + 1 := by
      rw [hk.refuses (by simp [recordHeader]), List.length_append, List.length_singleton]
    simp only [Option.mem_some_iff, forall_eq', ← hlimit]
    rw [hrun]
    cases hseal : k.encrypt p.cipher.suite p.cipher.key nonce (data ++ [CONTENT_APPDATA])
        (recordHeader data) with
    | none => exact iff_of_true (.error _) (Or.inr rfl)
    | some sealed =>
      have hlen : sealed.length = data.length + 17 := by
        rw [hk.overhead hseal, List.length_append, List.length_singleton, TAG_LEN]
      have hbytes : (recordLayout sealed).bytes = recordHeader data ++ sealed := by
        simp [recordLayout, recordHeader, hlen, TAG_LEN]
      have hexact : (recordLayout sealed).Exact ↔ data.length ≤ 65518 := by
        simp [recordLayout, hlen]
        omega
      rw [okOr, Except.map, declares_ok]
      constructor
      · rintro ⟨layout, ⟨sealed', rfl⟩, heq, hlayout⟩
        have hsame : sealed'.length = sealed.length := by
          have hboth := congrArg List.length heq
          simp [recordLayout, recordHeader] at hboth
          exact hboth
        refine Or.inl ?_
        simp [recordLayout] at hlayout
        omega
      · rintro (hshort | hnone)
        · exact ⟨_, ⟨sealed, rfl⟩, hbytes, hexact.2 hshort⟩
        · cases hnone

/-- **When no length is truncated.**  Each encoder returns an error or bytes whose length
fields are right just when flow, domain, host name and payload fit the fields. -/
theorem declares_iff {k : Crates} {limit : CipherSuite → ℕ} (hk : SealDocumented k limit) :
    (∀ uuid flow command address port,
      Declares (· = requestLayout uuid flow command address port)
          ((buildRequestHeader uuid flow command address port).mapError .err) ↔
        RequestFits flow command address) ∧
    (∀ sni pub random sid,
      Declares (HelloFormat sni pub random sid) (buildClientHello sni pub random sid) ↔
        HelloFits sni sid.length) ∧
    ∀ c : Tls13Client, c.Inv → ∀ data,
      Declares (fun layout => ∃ sealed, layout = recordLayout sealed)
          (Fallible.exec (sealAppRecord k data) c).1 ↔
        RecordFits limit c data :=
  ⟨declares_buildRequestHeader, declares_buildClientHello,
    fun _ hc data => declares_sealAppRecord hk hc data⟩

/-- The sample crates with the limit of AES-GCM on plaintexts. -/
def limitedCrates : Crates :=
  { sampleCrates with
    encrypt := fun suite key nonce msg aad =>
      if 2 ^ 36 < msg.length then none else sampleCrates.encrypt suite key nonce msg aad }

/-- That limit. -/
def gcmLimit (_ : CipherSuite) : ℕ := 2 ^ 36

theorem limitedCrates_documented : SealDocumented limitedCrates gcmLimit where
  overhead {suite key nonce msg aad sealed} h := by
    simp only [limitedCrates] at h
    split_ifs at h
    cases h
    rw [List.length_append, sampleTag, List.length_replicate]
  refuses {suite key nonce msg aad} _ := by
    simp only [limitedCrates]
    split_ifs with hlong
    · exact iff_of_true rfl hlong
    · exact iff_of_false (by simp [sampleCrates]) hlong

/-- A client that can send. -/
def sendingClient : Tls13Client :=
  { Tls13Client.new with
    appWrite := some ⟨⟨.aes128GcmSha256, List.replicate 16 0⟩, List.replicate 12 0, 0⟩ }

theorem sendingClient_inv : sendingClient.Inv :=
  { Tls13Client.inv_new with appWrite := by simp [sendingClient, NonceLength, IV_LEN] }

theorem declares_example :
    Declares (· = requestLayout (List.Vector.replicate 16 0) (some "xtls-rprx-vision") CMD_TCP
        (.domain "example.com") 443)
      ((buildRequestHeader (List.Vector.replicate 16 0) (some "xtls-rprx-vision") CMD_TCP
        (.domain "example.com") 443).mapError .err) ∧
    Declares (HelloFormat (some "example.com") zeros zeros zeros.toList)
      (buildClientHello (some "example.com") zeros zeros zeros.toList) ∧
    Declares (fun layout => ∃ sealed, layout = recordLayout sealed)
      (Fallible.exec (sealAppRecord limitedCrates [1, 2, 3]) sendingClient).1 := by
  have hname : (utf8 "example.com").length = 11 := by decide +kernel
  have hflow : (utf8 "xtls-rprx-vision").length = 16 := by decide +kernel
  have h := declares_iff limitedCrates_documented
  have hhello := h.2.1 (some "example.com") zeros zeros zeros.toList
  have hrecord := h.2.2 sendingClient sendingClient_inv [1, 2, 3]
  refine ⟨(h.1 _ _ _ _ _).2 ?_, hhello.2 ?_, hrecord.2 ?_⟩
  · simp [RequestFits, hname, hflow]
  · simp [HelloFits, hname]
  · simp [RecordFits]

/-- A domain of 256 bytes. -/
def longDomain : String := String.ofList (List.replicate 256 'a')

/-- It goes behind a length of zero. -/
theorem not_declares : ¬ ∀ (uuid : Uuid) (flow : Option String) (command : UInt8)
    (address : Address) (port : UInt16),
    Declares (· = requestLayout uuid flow command address port)
      ((buildRequestHeader uuid flow command address port).mapError .err) := by
  intro hall
  have hlen : (utf8 longDomain).length = 256 := by decide +kernel
  have hfits := (declares_buildRequestHeader (List.Vector.replicate 16 0) none CMD_TCP
    (.domain longDomain) 443).1 (hall _ _ _ _ _)
  rcases hfits.2 with hmux | hdomain
  · exact absurd hmux (by decide)
  · have := hdomain _ rfl
    omega

end ShadeVpn.Native
