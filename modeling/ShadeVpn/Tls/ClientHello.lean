import ShadeVpn.Lib.Cursor
import ShadeVpn.Lib.Checked

/-!
# The TLS 1.3 ClientHello record

`build_client_hello` and `parse_client_hello` of `native/src/tls.rs`.  Both work
over any alphabet: the literal bytes of a hello are symbols of every alphabet,
and the key share, the random and the session id are copied symbol by symbol.
At the alphabet of bytes this is the code.

The builder can fault: the padding length is `512 - 4 - total` whenever
`total < 512`, which goes below zero for three values of `total`.
-/

namespace ShadeVpn.Tls

open Octets Checked

/-! ## Constants -/

def CONTENT_HANDSHAKE : ℕ := 0x16
def HS_CLIENT_HELLO : ℕ := 0x01
def EXT_SERVER_NAME : ℕ := 0x0000
def EXT_PADDING : ℕ := 0x0015
def EXT_SUPPORTED_GROUPS : ℕ := 0x000a
def EXT_SIGNATURE_ALGORITHMS : ℕ := 0x000d
def EXT_KEY_SHARE : ℕ := 0x0033
def EXT_SUPPORTED_VERSIONS : ℕ := 0x002b
def EXT_PSK_MODES : ℕ := 0x002d
def EXT_EMS : ℕ := 0x0017
def EXT_RENEGOTIATION_INFO : ℕ := 0xff01
def EXT_ALPN : ℕ := 0x0010
def EXT_STATUS_REQUEST : ℕ := 0x0005
def EXT_SIGNATURE_ALGORITHMS_CERT : ℕ := 0x0032
def EXT_SCT : ℕ := 0x0012
def EXT_COMPRESS_CERT : ℕ := 0x001b
def EXT_ALPS : ℕ := 0x4469
def EXT_ALPS_V2 : ℕ := 0x44cd
def EXT_DELEGATED_CREDENTIALS : ℕ := 0x001f
def EXT_SESSION_TICKET : ℕ := 0x0023
def EXT_ETM : ℕ := 0x0016
def CERT_COMPRESSION_BROTLI : ℕ := 0x0002
def GROUP_X25519 : ℕ := 0x001d
def GROUP_SECP256R1 : ℕ := 0x0017
def GROUP_SECP384R1 : ℕ := 0x0018
def GROUP_GREASE : ℕ := 0x0a0a
def GREASE_CIPHER : ℕ := 0x0a0a
def GREASE_EXT : ℕ := 0x1a1a
def GREASE_VERSION : ℕ := 0x0a0a
def MAX_SESSION_ID_LEN : ℕ := 32
def X25519_PK_LEN : ℕ := 32

/-- `SESSION_ID_OFFSET`: where the session id bytes start in the record. -/
def SESSION_ID_OFFSET : ℕ := 5 + 4 + 2 + 32 + 1

/-- `TlsError`. -/
inductive TlsError where
  | truncated
  | badRecordType
  | badRecordVersion
  | lengthMismatch
  | trailingBytes
  | badServerName
  | shortIdTooLong
  | noX25519KeyShare
  deriving DecidableEq, Repr

variable {σ : Type} [Alphabet σ]

/-! ## The builder -/

/-- An extension: its type and its body. -/
abbrev Extension (σ : Type) := ℕ × List σ

/-- `push_extension`, the symbols it appends. -/
def pushExtension (e : Extension σ) : List σ :=
  lits (toBE 2 e.1 ++ toBE 2 e.2.length) ++ e.2

/-- The body of the server_name extension. -/
def serverNameBody (host : String) : Bytes :=
  let list := 0 :: (toBE 2 (utf8 host).length ++ utf8 host)
  toBE 2 list.length ++ list

/-- The signature algorithm list the hello carries three times. -/
def signatureAlgorithms : Bytes :=
  [0x00, 0x10, 0x04, 0x03, 0x08, 0x04, 0x04, 0x01, 0x05, 0x03, 0x08, 0x05, 0x05, 0x01, 0x08, 0x06,
    0x06, 0x01]

/-- The body of the ALPN extension: `h2` and `http/1.1`. -/
def alpnBody : Bytes :=
  let h2 := utf8 "h2"
  let http11 := utf8 "http/1.1"
  toBE 2 (1 + h2.length + 1 + http11.length)
    ++ UInt8.ofNat h2.length :: h2 ++ UInt8.ofNat http11.length :: http11

/-- The body of the key_share extension: one x25519 share. -/
def keyShareBody (ephemeralPublic : List.Vector σ 32) : List σ :=
  let shares := lits (toBE 2 GROUP_X25519 ++ toBE 2 X25519_PK_LEN) ++ ephemeralPublic.toList
  lits (toBE 2 shares.length) ++ shares

/-- The extensions before the key share, behind the server name, in their order
on the wire. -/
def fixedExtensions : List (Extension UInt8) :=
  [ (EXT_EMS, []),
    (EXT_RENEGOTIATION_INFO, [0x00]),
    (EXT_SUPPORTED_GROUPS, toBE 2 8 ++ toBE 2 GROUP_GREASE ++ toBE 2 GROUP_X25519
      ++ toBE 2 GROUP_SECP256R1 ++ toBE 2 GROUP_SECP384R1),
    (EXT_ALPN, alpnBody),
    (EXT_SIGNATURE_ALGORITHMS, signatureAlgorithms),
    (EXT_STATUS_REQUEST, [0x01, 0x00, 0x00, 0x00, 0x00]),
    (EXT_COMPRESS_CERT, 0x02 :: toBE 2 CERT_COMPRESSION_BROTLI),
    (EXT_SCT, []),
    (EXT_PSK_MODES, [0x01, 0x01]),
    (EXT_SIGNATURE_ALGORITHMS_CERT, signatureAlgorithms),
    (EXT_DELEGATED_CREDENTIALS, signatureAlgorithms),
    (EXT_ALPS, [0x00, 0x00]),
    (EXT_ALPS_V2, [0x00, 0x00]),
    (EXT_SESSION_TICKET, []),
    (EXT_ETM, []),
    (EXT_SUPPORTED_VERSIONS, 0x06 :: (toBE 2 GREASE_VERSION ++ [0x03, 0x04] ++ [0x03, 0x03])) ]

/-- The server_name extension, if a host is offered. -/
def serverNameExtensions : Option String → List (Extension σ)
  | none => []
  | some host => [(EXT_SERVER_NAME, lits (serverNameBody host))]

/-- The extensions of a hello without the padding, in their order on the wire. -/
def helloExtensions (sni : Option String) (ephemeralPublic : List.Vector σ 32) :
    List (Extension σ) :=
  (GREASE_EXT, []) :: (serverNameExtensions sni ++ fixedExtensions.map (fun e => (e.1, lits e.2))
    ++ [(EXT_KEY_SHARE, keyShareBody ephemeralPublic)])

/-- The padding extension, if there is any padding. -/
def paddingExtensions (paddingLen : ℕ) : List (Extension σ) :=
  if paddingLen > 0 then [(EXT_PADDING, lits (List.replicate paddingLen 0))] else []

/-- `sni_len`. -/
def sniLen (sni : Option String) : ℕ := (sni.map fun host => (utf8 host).length).getD 0

/-- The length of the padding body, for the length of the extensions so far. -/
def helloPaddingLen (sni : Option String) (extsLen : ℕ) : Except (Stop TlsError) ℕ :=
  let total := extsLen + if sni.isSome then 9 + sniLen sni else 0
  if total < 512 then sub (512 - 4) total else .ok 0

/-- The extensions block. -/
def helloExtensionsBlock (sni : Option String) (ephemeralPublic : List.Vector σ 32)
    (paddingLen : ℕ) : List σ :=
  (helloExtensions sni ephemeralPublic ++ paddingExtensions paddingLen).flatMap pushExtension

/-- Chrome's cipher list, GREASE first. -/
def cipherSuites : Bytes :=
  toBE 2 GREASE_CIPHER ++
  [0x13, 0x01, 0x13, 0x02, 0x13, 0x03, 0xc0, 0x2b, 0xc0, 0x2f, 0xc0, 0x2c, 0xc0, 0x30, 0xc0, 0x32,
    0xc0, 0x2d, 0xc0, 0x27, 0xc0, 0x13, 0x00, 0x9c, 0x00, 0x9d, 0x00, 0x2f, 0x00, 0x35]

/-- What follows the session id in the hello body. -/
def helloTail (exts : List σ) : List σ :=
  lits (toBE 2 cipherSuites.length ++ cipherSuites ++ [0x01, 0x00] ++ toBE 2 exts.length) ++ exts

/-- The ClientHello body. -/
def helloBody (random : List.Vector σ 32) (sessionId exts : List σ) : List σ :=
  lits [0x03, 0x03] ++ random.toList ++ lits [UInt8.ofNat sessionId.length] ++ sessionId
    ++ helloTail exts

/-- The record around a hello body. -/
def helloRecord (body : List σ) : List σ :=
  let handshake := lits (toBE 1 HS_CLIENT_HELLO ++ toBE 3 body.length) ++ body
  lits (toBE 1 CONTENT_HANDSHAKE ++ [0x03, 0x01] ++ toBE 2 handshake.length) ++ handshake

/-- `build_client_hello`. -/
def buildClientHello (sni : Option String) (ephemeralPublic random : List.Vector σ 32)
    (sessionId : List σ) : Except (Stop TlsError) (List σ) :=
  if sessionId.length > MAX_SESSION_ID_LEN then .error (.err .shortIdTooLong)
  else do
    let paddingLen ←
      helloPaddingLen sni ((helloExtensions sni ephemeralPublic).flatMap pushExtension).length
    let body := helloBody random sessionId (helloExtensionsBlock sni ephemeralPublic paddingLen)
    -- the assertion of `push_u24`
    if body.length > 0xFFFFFF then .error .panic else .ok (helloRecord body)

/-- `record[SESSION_ID_OFFSET..]` with a session id copied over its front. -/
def patchSessionId (record sid : List σ) : List σ :=
  record.take SESSION_ID_OFFSET ++ sid ++ record.drop (SESSION_ID_OFFSET + sid.length)

/-! ## The parser -/

namespace Reader

/-- `Reader::take`, on the symbols that are left. -/
abbrev take (n : ℕ) (r : List σ) : Except TlsError (List σ × List σ) :=
  Cursor.take .truncated n r

/-- `Reader::u8`. -/
abbrev u8 (r : List σ) : Except TlsError (ℕ × List σ) := Cursor.number .truncated 1 r

/-- `Reader::u16`. -/
abbrev u16 (r : List σ) : Except TlsError (ℕ × List σ) := Cursor.number .truncated 2 r

/-- `Reader::u24`. -/
abbrev u24 (r : List σ) : Except TlsError (ℕ × List σ) := Cursor.number .truncated 3 r

end Reader

open Reader

/-- What the extension loop has read so far. -/
structure HelloFields (σ : Type) where
  sni : Option String
  ephemeralPublic : Option (List.Vector σ 32)
  tls13Negotiable : Bool

/-- `ParsedClientHello`. -/
structure ParsedClientHello (σ : Type) where
  sni : Option String
  random : List.Vector σ 32
  sessionId : List σ
  ephemeralPublic : List.Vector σ 32
  tls13Negotiable : Bool

/-- The server_name arm of the extension loop. -/
def readServerName (er : List σ) : Except TlsError String := do
  let (listLen, er) ← u16 er
  let (nameType, er) ← u8 er
  let (nameLen, er) ← u16 er
  if nameType ≠ 0 ∨ listLen ≠ 1 + 2 + nameLen then .error .badServerName
  else
    let (name, er) ← take nameLen er
    if er ≠ [] then .error .badServerName
    else
      match ofUtf8? (values name) with
      | none => .error .badServerName
      | some host => .ok host

/-- The loop over the shares of a key_share body: the first x25519 share is kept. -/
def readShares (sharesLen shareRead : ℕ) (found : Option (List.Vector σ 32)) (er : List σ) :
    Except TlsError (Option (List.Vector σ 32) × List σ) :=
  if shareRead < sharesLen then do
    let (group, er) ← u16 er
    let (klen, er) ← u16 er
    let (key, er) ← take klen er
    readShares sharesLen (shareRead + (4 + klen))
      (if group = GROUP_X25519 ∧ klen = X25519_PK_LEN ∧ found = none then some (copyFrom 32 key)
        else found) er
  else .ok (found, er)
termination_by sharesLen - shareRead

/-- The key_share arm of the extension loop. -/
def readKeyShare (found : Option (List.Vector σ 32)) (er : List σ) :
    Except TlsError (Option (List.Vector σ 32)) := do
  let (sharesLen, er) ← u16 er
  let (found, er) ← readShares sharesLen 0 found er
  if er ≠ [] then .error .lengthMismatch else .ok found

/-- The loop over the `n` versions of a supported_versions body. -/
def readVersions : ℕ → Bool → List σ → Except TlsError (Bool × List σ)
  | 0, seen, er => .ok (seen, er)
  | n + 1, seen, er => do
    let (version, er) ← u16 er
    readVersions n (seen || version == 0x0304) er

/-- The supported_versions arm of the extension loop. -/
def readSupportedVersions (seen : Bool) (er : List σ) : Except TlsError Bool := do
  let (listBytes, er) ← u8 er
  if listBytes % 2 ≠ 0 then .error .lengthMismatch
  else
    let (seen, er) ← readVersions (listBytes / 2) seen er
    if er ≠ [] then .error .lengthMismatch else .ok seen

/-- The match on the extension type: other extensions are skipped. -/
def readExtension (f : HelloFields σ) (e : Extension σ) : Except TlsError (HelloFields σ) :=
  if e.1 = EXT_SERVER_NAME then do
    let host ← readServerName e.2
    .ok { f with sni := some host }
  else if e.1 = EXT_KEY_SHARE then do
    let ephemeralPublic ← readKeyShare f.ephemeralPublic e.2
    .ok { f with ephemeralPublic }
  else if e.1 = EXT_SUPPORTED_VERSIONS then do
    let tls13Negotiable ← readSupportedVersions f.tls13Negotiable e.2
    .ok { f with tls13Negotiable }
  else .ok f

/-- The extension loop. -/
def readExtensions (extTotal extRead : ℕ) (f : HelloFields σ) (r : List σ) :
    Except TlsError (HelloFields σ × List σ) :=
  if extRead < extTotal then do
    let (extType, r) ← u16 r
    let (extLen, r) ← u16 r
    if extRead + 4 + extLen > extTotal then .error .lengthMismatch
    else
      let (body, r) ← take extLen r
      let f ← readExtension f (extType, body)
      readExtensions extTotal (extRead + (4 + extLen)) f r
  else .ok (f, r)
termination_by extTotal - extRead

/-- The part of `parse_client_hello` up to the hello body: the record and
handshake headers. -/
def readHelloHeaders (wire : List σ) : Except TlsError (List σ) := do
  let (contentType, r) ← u8 wire
  if contentType ≠ CONTENT_HANDSHAKE then .error .badRecordType
  else
    let (version, r) ← take 2 r
    if (values version).getD 0 0 ≠ 0x03 ∨ (values version).getD 1 0 > 0x03 then
      .error .badRecordVersion
    else
      let (recordLen, r) ← u16 r
      if r.length ≠ recordLen then .error .lengthMismatch
      else
        let (messageType, r) ← u8 r
        if messageType ≠ HS_CLIENT_HELLO then .error .badRecordType
        else
          let (bodyLen, r) ← u24 r
          if r.length ≠ bodyLen then .error .lengthMismatch else .ok r

/-- `parse_client_hello`. -/
def parseClientHello (wire : List σ) : Except TlsError (ParsedClientHello σ) := do
  let r ← readHelloHeaders wire
  let (_, r) ← take 2 r
  let (random, r) ← take 32 r
  let (sidLen, r) ← u8 r
  if sidLen > MAX_SESSION_ID_LEN then .error .shortIdTooLong
  else
    let (sessionId, r) ← take sidLen r
    let (cipherLen, r) ← u16 r
    if cipherLen % 2 ≠ 0 then .error .lengthMismatch
    else
      let (_, r) ← take cipherLen r
      let (compLen, r) ← u8 r
      let (_, r) ← take compLen r
      let (extTotal, r) ← u16 r
      let (f, r) ← readExtensions extTotal 0 ⟨none, none, false⟩ r
      if r ≠ [] then .error .trailingBytes
      else
        match f.ephemeralPublic with
        | none => .error .noX25519KeyShare
        | some ephemeralPublic =>
          .ok { sni := f.sni, random := copyFrom 32 random, sessionId, ephemeralPublic,
                tls13Negotiable := f.tls13Negotiable }

end ShadeVpn.Tls
