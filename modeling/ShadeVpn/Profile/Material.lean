import ShadeVpn.Lib.BaseText
import ShadeVpn.Profile.Secrets
import ShadeVpn.Service.Stages

/-!
# Handshake material

What `run_connect` of `native/src/lib.rs` makes of a payload before it dials:
`into_params` of `native/src/handshake.rs` and `parse_uuid` of `native/src/vless.rs`.
The `base64` and `hex` crates are a parameter.

* `intoParams_eq_ok_iff`, `parseUuid_eq_some_iff` — which texts pass, and for which bytes.
* `connectParams_iff` — which links come as far as the dial, and with what.
-/

namespace ShadeVpn.Profile

open Octets BaseText Handshake Vless Service

/-! ## The native side -/

/-- `URL_SAFE_NO_PAD` and `STANDARD` of the `base64` crate, and `hex::decode`. -/
structure Codecs where
  urlSafeNoPad : String → Option Bytes
  standard : String → Option Bytes
  hex : String → Option Bytes

/-- `HandshakeMaterial`. -/
structure HandshakeMaterial where
  serverAddress : String
  serverPort : UInt16
  sni : String
  serverPublicKeyB64 : String
  shortIdHex : String

/-- What `run_connect` dials with; address and port come as they are. -/
structure ConnectParams where
  serverAddress : String
  serverPort : UInt16
  params : HandshakeParams UInt8
  uuid : Uuid

variable (codecs : Codecs)

/-- `HandshakeMaterial::into_params`. -/
def HandshakeMaterial.intoParams (m : HandshakeMaterial) :
    Except HandshakeError (HandshakeParams UInt8) :=
  match (codecs.urlSafeNoPad m.serverPublicKeyB64).or (codecs.standard m.serverPublicKeyB64) with
  | none => .error .badServerKey
  | some pkBytes =>
    if pkBytes.length ≠ 32 then .error .badServerKey
    else
      match codecs.hex m.shortIdHex with
      | none => .error .badShortId
      | some [] => .error .badShortId
      | some shortId => .ok ⟨m.sni, copyFrom 32 pkBytes, shortId⟩

/-- `parse_uuid`; `decode_to_slice` fills all sixteen bytes or none. -/
def parseUuid (raw : String) : Option Uuid :=
  let hex := String.ofList (raw.toList.filter (· ≠ '-'))
  if (utf8 hex).length ≠ 32 then none
  else
    match codecs.hex hex with
    | none => none
    | some bytes => if bytes.length = 16 then some (copyFrom 16 bytes) else none

/-- `run_connect` up to the dial. -/
def connectParams (payload : Option String) : Except String ConnectParams :=
  match readProfilePayload payload with
  | .error reason => .error reason
  | .ok profile =>
    if !profile.publicKeyPresent || !profile.shortIdPresent then
      .error "publicKey and shortId are required"
    else
      let material : HandshakeMaterial := {
        serverAddress := profile.serverAddress
        serverPort := profile.serverPort
        sni := profile.sni.getD ""
        serverPublicKeyB64 := profile.publicKey.getD ""
        shortIdHex := profile.shortId.getD "" }
      match material.intoParams codecs with
      | .error e => .error e.reason
      | .ok params =>
        match profile.uuid.filter (· ≠ "") with
        | none => .error "profile UUID is required"
        | some uuidRaw =>
          match parseUuid codecs uuidRaw with
          | none => .error "profile UUID is malformed"
          | some uuid => .ok ⟨material.serverAddress, material.serverPort, params, uuid⟩

/-! ## Texts -/

/-- What the crates document: base 64 by RFC 4648 with no padding or with all of it and no
bit to spare, base 16 in either case. -/
structure Codecs.Documented : Prop where
  urlSafeNoPad : ∀ {text bytes}, codecs.urlSafeNoPad text = some bytes ↔
    text.toList = urlSafe.encode64 false bytes
  standard : ∀ {text bytes}, codecs.standard text = some bytes ↔
    text.toList = BaseText.standard.encode64 true bytes
  hex : ∀ {text bytes}, codecs.hex text = some bytes ↔
    text.toList.map Char.toLower = lowerHex.encode16 bytes

/-- A text of a key: unpadded for URLs, or padded in the standard alphabet. -/
def SpellsKey (text : String) (key : Bytes) : Prop :=
  text.toList = urlSafe.encode64 false key ∨ text.toList = BaseText.standard.encode64 true key

/-- Hexadecimal digits in either case. -/
def SpellsHex (text : List Char) (bytes : Bytes) : Prop :=
  text.map Char.toLower = lowerHex.encode16 bytes

instance (text : List Char) (bytes : Bytes) : Decidable (SpellsHex text bytes) :=
  inferInstanceAs (Decidable (_ = _))

/-- A letter in lower case is an ASCII character just when the letter is. -/
theorem ascii_of_toLower {c : Char} (h : c.toLower.val ≤ 127) : c.val ≤ 127 := by
  unfold Char.toLower at h
  split at h
  · next hupper =>
    have hle : c.val.toNat ≤ 90 := UInt32.le_iff_toNat_le.1 hupper.2
    exact UInt32.le_iff_toNat_le.2 (hle.trans (by decide))
  · exact h

/-- Hexadecimal digits are two octets a byte. -/
theorem length_utf8_of_spellsHex {text : List Char} {bytes : Bytes} (h : SpellsHex text bytes) :
    (utf8 (String.ofList text)).length = 2 * bytes.length := by
  have hascii : ∀ c ∈ lowerHex.chars, c.val ≤ 127 := by simp [lowerHex]
  have hsize : ∀ c ∈ text, c.utf8Size = 1 := by
    intro c hc
    have hlower : c.toLower ∈ lowerHex.encode16 bytes := h ▸ List.mem_map_of_mem hc
    exact Char.utf8Size_eq_one_iff.2 (ascii_of_toLower (hascii _ (lowerHex.mem_encode16 hlower)))
  have hlength : (utf8 (String.ofList text)).length = text.length := by
    rw [length_utf8]
    clear h
    induction text with
    | nil => rfl
    | cons c text ih =>
      rw [String.ofList_cons, String.utf8ByteSize_append, String.utf8ByteSize_singleton,
        hsize c List.mem_cons_self, ih fun d hd => hsize d (List.mem_cons_of_mem c hd),
        List.length_cons, Nat.add_comm]
  rw [hlength, ← lowerHex.length_encode16, ← h, List.length_map]

variable {codecs} (hcodecs : codecs.Documented)

include hcodecs

/-- **A key passes** in one of its two texts, and stands for itself. -/
theorem decodeKey_iff {text : String} {key : Bytes} (h : key.length = 32) :
    (codecs.urlSafeNoPad text).or (codecs.standard text) = some key ↔ SpellsKey text key := by
  rw [Option.or_eq_some_iff, hcodecs.urlSafeNoPad, hcodecs.standard]
  constructor
  · rintro (hurl | ⟨-, hstandard⟩)
    · exact .inl hurl
    · exact .inr hstandard
  · rintro (hurl | hstandard)
    · exact .inl hurl
    · -- 32 bytes leave two over, so the text is padded, and no URL text is
      refine .inr ⟨?_, hstandard⟩
      rw [Option.eq_none_iff_forall_ne_some]
      intro bytes hbytes
      have hpadded : '=' ∈ text.toList := by
        rw [hstandard]
        exact BaseText.standard.padding_mem (by omega)
      rw [hcodecs.urlSafeNoPad.1 hbytes] at hpadded
      exact urlSafe.padding_not_mem bytes hpadded

/-- **`into_params`** passes a key of 32 bytes and a short id that is not empty. -/
theorem intoParams_eq_ok_iff {m : HandshakeMaterial} {params : HandshakeParams UInt8} :
    m.intoParams codecs = .ok params ↔
      params.sni = m.sni ∧ SpellsKey m.serverPublicKeyB64 params.serverPublicKey.toList ∧
        SpellsHex m.shortIdHex.toList params.shortId ∧ params.shortId ≠ [] := by
  unfold HandshakeMaterial.intoParams
  constructor
  · intro h
    split at h
    · cases h
    · next pkBytes hkey =>
      split_ifs at h with hlen
      split at h
      · cases h
      · cases h
      · next shortId hne hid =>
        cases h
        push Not at hlen
        have hcopy : (copyFrom 32 pkBytes : List.Vector UInt8 32).toList = pkBytes := by
          rw [toList_copyFrom hlen.ge, List.take_of_length_le hlen.le]
        refine ⟨rfl, ?_, hcodecs.hex.1 hid, fun hnil => hne hnil⟩
        rw [hcopy]
        exact (decodeKey_iff hcodecs hlen).1 hkey
  · rintro ⟨hsni, hkey, hid, hne⟩
    obtain ⟨sni, key, shortId⟩ := params
    have hdecode := (decodeKey_iff hcodecs (key.toList_length)).2 hkey
    have hlen : ¬ key.toList.length ≠ 32 := not_not.2 key.toList_length
    have hhex := hcodecs.hex.2 hid
    dsimp only at hsni hne hhex
    subst hsni
    rw [hdecode]
    dsimp only
    rw [if_neg hlen, hhex, copyFrom_toList]
    cases shortId with
    | nil => exact absurd rfl hne
    | cons b rest => rfl

/-- **`parse_uuid`** passes 32 digits, with hyphens anywhere. -/
theorem parseUuid_eq_some_iff {raw : String} {uuid : Uuid} :
    parseUuid codecs raw = some uuid ↔ SpellsHex (raw.toList.filter (· ≠ '-')) uuid.toList := by
  unfold parseUuid
  dsimp only
  constructor
  · intro h
    split_ifs at h with hlen
    split at h
    · cases h
    · next bytes hhex =>
      split_ifs at h with hbytes
      cases h
      have hspells := hcodecs.hex.1 hhex
      rw [String.toList_ofList] at hspells
      rwa [toList_copyFrom hbytes.ge, List.take_of_length_le hbytes.le]
  · intro h
    have hlen : (utf8 (String.ofList (raw.toList.filter (· ≠ '-')))).length = 32 := by
      rw [length_utf8_of_spellsHex h, uuid.toList_length]
    have hhex : codecs.hex (String.ofList (raw.toList.filter (· ≠ '-'))) = some uuid.toList := by
      rw [hcodecs.hex, String.toList_ofList]
      exact h
    rw [if_neg (not_not.2 hlen), hhex]
    dsimp only
    rw [if_pos uuid.toList_length, copyFrom_toList]

/-! ## Links -/

/-- A profile has the texts of what a connect dials with. -/
structure Spells (p : VlessProfile) (connect : ConnectParams) : Prop where
  serverAddress : connect.serverAddress = p.serverAddress
  serverPort : (connect.serverPort.toNat : ℤ) = p.serverPort.toInt
  sni : connect.params.sni = p.sni.getD ""
  publicKey : ∃ text ∈ p.publicKey, SpellsKey text connect.params.serverPublicKey.toList
  shortId : ∃ text ∈ p.shortId, SpellsHex text.toList connect.params.shortId
  someShortId : connect.params.shortId ≠ []
  uuid : SpellsHex (p.uuid.toList.filter (· ≠ '-')) connect.uuid.toList

/-- What `run_connect` makes of a profile it has read. -/
theorem connectParams_of_read {p : VlessProfile} {payload : Option String}
    (hread : readProfilePayload payload = .ok (handshakeProfile p)) {connect : ConnectParams} :
    connectParams codecs payload = .ok connect ↔
      (connect.serverAddress = p.serverAddress ∧
        connect.serverPort = UInt16.ofNat p.serverPort.toInt.toNat) ∧
      (∃ key ∈ p.publicKey, ∃ id ∈ p.shortId, HandshakeMaterial.intoParams codecs
        ⟨p.serverAddress, UInt16.ofNat p.serverPort.toInt.toNat, p.sni.getD "", key, id⟩
          = .ok connect.params) ∧
      parseUuid codecs p.uuid = some connect.uuid := by
  have hempty : parseUuid codecs "" = none := by
    rw [Option.eq_none_iff_forall_ne_some]
    intro uuid huuid
    have hspells := (parseUuid_eq_some_iff hcodecs).1 huuid
    have hlength := congrArg List.length hspells
    rw [lowerHex.length_encode16, uuid.toList_length] at hlength
    cases hlength
  unfold connectParams
  rw [hread]
  simp only [handshakeProfile, sanitizedProfile]
  obtain ⟨name, serverAddress, serverPort, uuidRaw, flow, security, network, host, path, sni,
    publicKey, shortId, fingerprint⟩ := p
  dsimp only
  cases publicKey with
  | none => simp
  | some key =>
    cases shortId with
    | none => simp
    | some id =>
      simp only [Option.isSome_some, Bool.not_true, Bool.or_self, Bool.false_eq_true, if_false,
        Option.getD_some, Option.mem_def, Option.some.injEq, exists_eq_left']
      cases hparams : HandshakeMaterial.intoParams codecs
          ⟨serverAddress, UInt16.ofNat serverPort.toInt.toNat, sni.getD "", key, id⟩ with
      | error e => simp
      | ok params =>
        by_cases huuid : uuidRaw = ""
        · have hfilter : Option.filter (fun u => decide (u ≠ "")) (some uuidRaw) = none := by
            simp [huuid]
          rw [hfilter]
          simp [huuid, hempty]
        · have hfilter : Option.filter (fun u => decide (u ≠ "")) (some uuidRaw)
              = some uuidRaw := by
            simp [huuid]
          rw [hfilter]
          dsimp only
          cases hparse : parseUuid codecs uuidRaw with
          | none => simp
          | some uuid =>
            obtain ⟨address, port, params', uuid'⟩ := connect
            simp only [Except.ok.injEq, ConnectParams.mk.injEq, Option.some.injEq]
            constructor
            · rintro ⟨rfl, rfl, rfl, rfl⟩
              exact ⟨⟨rfl, rfl⟩, rfl, rfl⟩
            · rintro ⟨⟨rfl, rfl⟩, rfl, rfl⟩
              exact ⟨rfl, rfl, rfl, rfl⟩

/-- **A payload that crosses** comes as far as the dial just with the texts of its profile. -/
theorem connectParams_of_crosses {p : VlessProfile} (hpos : 0 < p.serverPort.toInt)
    (hfits : p.serverPort.toInt ≤ 65535) (htexts : ∀ t ∈ handshakeTexts p, Printable t)
    {connect : ConnectParams} :
    connectParams codecs (some (toHandshakeJson p)) = .ok connect ↔ Spells p connect := by
  have hpayload : readProfilePayload (some (toHandshakeJson p)) = .ok (handshakeProfile p) := by
    rw [readProfilePayload, readProfile_handshake hpos, if_pos ⟨hfits, htexts⟩]
    rfl
  have hlt : p.serverPort.toInt.toNat < 2 ^ 16 := by omega
  have hport : connect.serverPort = UInt16.ofNat p.serverPort.toInt.toNat ↔
      (connect.serverPort.toNat : ℤ) = p.serverPort.toInt := by
    rw [← UInt16.toNat_inj, UInt16.toNat_ofNat', Nat.mod_eq_of_lt hlt]
    omega
  rw [connectParams_of_read hcodecs hpayload, hport, parseUuid_eq_some_iff hcodecs]
  simp only [intoParams_eq_ok_iff hcodecs]
  constructor
  · rintro ⟨⟨haddress, hport⟩, ⟨key, hkey, id, hid, hsni, hspells, hhex, hne⟩, huuid⟩
    exact ⟨haddress, hport, hsni, ⟨key, hkey, hspells⟩, ⟨id, hid, hhex⟩, hne, huuid⟩
  · rintro ⟨haddress, hport, hsni, ⟨key, hkey, hspells⟩, ⟨id, hid, hhex⟩, hne, huuid⟩
    exact ⟨⟨haddress, hport⟩, ⟨key, hkey, id, hid, hsni, hspells, hhex, hne⟩, huuid⟩

/-- **From a link to the dial.**  `run_connect` comes as far as the dial with the payload of
an accepted link just when the port is a port, no text has a control character, the key is 32
bytes in base 64 (unpadded for URLs, or padded), the short id is some bytes in base 16 and
the UUID is 16 bytes in base 16 but for its hyphens; and it dials with exactly these. -/
theorem connectParams_iff {java : JavaNet} {link : String} {p : VlessProfile}
    (hparse : parse java link = .ok p) (connect : ConnectParams) :
    connectParams codecs (some (toHandshakeJson p)) = .ok connect ↔
      p.serverPort.toInt ≤ 65535 ∧ (∀ t ∈ handshakeTexts p, Printable t) ∧ Spells p connect := by
  have hpos := parse_port_pos hparse
  by_cases hcrosses : p.serverPort.toInt ≤ 65535 ∧ ∀ t ∈ handshakeTexts p, Printable t
  · obtain ⟨hfits, htexts⟩ := hcrosses
    rw [connectParams_of_crosses hcodecs hpos hfits htexts]
    exact ⟨fun h => ⟨hfits, htexts, h⟩, fun h => h.2.2⟩
  · have hpayload : readProfilePayload (some (toHandshakeJson p))
        = .error "invalid sanitized profile JSON" := by
      rw [readProfilePayload, readProfile_handshake hpos, if_neg hcrosses]
      rfl
    constructor
    · intro h
      rw [connectParams, hpayload] at h
      cases h
    · rintro ⟨hfits, htexts, -⟩
      exact absurd ⟨hfits, htexts⟩ hcrosses

omit hcodecs in
/-- What `run_connect` says when it does not dial never depends on what the payload says. -/
theorem connectParams_error {payload : Option String} {reason : String}
    (h : connectParams codecs payload = .error reason) :
    reason ∈ ["unable to read profile payload", "invalid sanitized profile JSON",
      "publicKey and shortId are required", HandshakeError.badServerKey.reason,
      HandshakeError.badShortId.reason, "profile UUID is required",
      "profile UUID is malformed"] := by
  unfold connectParams at h
  split at h
  · next message hread =>
    cases h
    unfold readProfilePayload at hread
    split at hread
    · cases hread
      simp
    · rw [(orError_eq_error hread).2]
      simp
  · next profile hread =>
    split at h
    · cases h
      simp
    · dsimp only at h
      split at h
      · next e hmaterial =>
        cases h
        unfold HandshakeMaterial.intoParams at hmaterial
        split at hmaterial
        · cases hmaterial
          simp
        · split_ifs at hmaterial
          · cases hmaterial
            simp
          · split at hmaterial
            · cases hmaterial
              simp
            · cases hmaterial
              simp
            · cases hmaterial
      · split at h
        · cases h
          simp
        · split at h
          · cases h
            simp
          · cases h

/-- The crates as the RFC has them. -/
def rfcCodecs : Codecs where
  urlSafeNoPad text := urlSafe.decode64 false text.toList
  standard text := BaseText.standard.decode64 true text.toList
  hex text := lowerHex.decode16 (text.toList.map Char.toLower)

omit hcodecs in
theorem rfcCodecs_documented : rfcCodecs.Documented where
  urlSafeNoPad := urlSafe.decode64_eq_some_iff
  standard := BaseText.standard.decode64_eq_some_iff
  hex := lowerHex.decode16_eq_some_iff

/-- A platform that knows the pieces of a link with a key. -/
def keyedNet : JavaNet where
  uri raw := .ok ⟨some "00000000-0000-0000-0000-0000000000ff", some "h.example", 443,
    some ("sni=a.example&sid=aB&pbk=" ++ raw.drop 8), none⟩
  decode text := .ok text

/-- The text of 32 zero bytes. -/
def zeroKey : String := "AAAAAAAAAAAAAAAAAAAAAAAAAAAAAAAAAAAAAAAAAAA"

def keyedProfile : VlessProfile where
  name := "ShadeVPN Reality"
  serverAddress := "h.example"
  serverPort := 443
  uuid := "00000000-0000-0000-0000-0000000000ff"
  flow := none
  security := "reality"
  network := "tcp"
  host := none
  path := none
  sni := some "a.example"
  publicKey := some zeroKey
  shortId := some "aB"
  fingerprint := none

/-- What it dials with. -/
def keyedParams : ConnectParams where
  serverAddress := "h.example"
  serverPort := 443
  params := ⟨"a.example", List.Vector.replicate 32 0, [0xab]⟩
  uuid := copyFrom 16 (List.replicate 15 0 ++ [0xff])

omit hcodecs in
theorem connectParams_iff_keyed :
    connectParams rfcCodecs (some (toHandshakeJson keyedProfile)) = .ok keyedParams := by
  have hparse : parse keyedNet ("vless://" ++ zeroKey) = .ok keyedProfile := by decide +kernel
  refine (connectParams_iff rfcCodecs_documented hparse keyedParams).2 ⟨by decide, ?_, ?_⟩
  · decide +kernel
  · refine ⟨rfl, by decide, rfl, ⟨zeroKey, rfl, .inl ?_⟩, ⟨"aB", rfl, ?_⟩, by decide, ?_⟩
    · decide +kernel
    · decide +kernel
    · decide +kernel

end ShadeVpn.Profile
