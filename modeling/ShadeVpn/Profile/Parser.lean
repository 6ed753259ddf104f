import ShadeVpn.Service.Snapshot

/-!
# Share links

`parser/VlessProfileParser.kt`: a share link to a profile, and a profile to the two
JSON payloads for the native side.  The classes `java.net.URI` and
`java.net.URLDecoder` are the parameter `JavaNet`.
-/

namespace ShadeVpn.Profile

open Service

/-! ## The platform -/

/-- What the parser asks a `java.net.URI`. -/
structure Uri where
  userInfo : Option String
  host : Option String
  port : Int32
  rawQuery : Option String
  fragment : Option String
  deriving DecidableEq

/-- The constructor of `java.net.URI`, and `URLDecoder.decode` for UTF-8.  An exception
is its message. -/
structure JavaNet where
  uri : String → Except String Uri
  decode : String → Except String String

variable (java : JavaNet)

/-- `takeIf { it.isNotBlank() }` and `ifBlank { null }`. -/
def unlessBlank (s : Option String) : Option String := s.filter fun s => !isBlank s

/-- A character as `equals(ignoreCase = true)` compares it with an ASCII letter: beside
the ASCII capitals, four characters have an ASCII letter as one of their cases. -/
def foldCase (c : Char) : Char :=
  if c = '\u0130' ∨ c = '\u0131' then 'i'
  else if c = '\u017f' then 's'
  else if c = '\u212a' then 'k'
  else c.toLower

/-- `equals(ascii, ignoreCase = true)`. -/
def equalsIgnoreCase (s ascii : String) : Bool :=
  s.toList.map foldCase = ascii.toList.map foldCase

/-- `lowercase()`, up to characters that have no ASCII lower case. -/
def lowercase (s : String) : String :=
  String.ofList (s.toList.map fun c => if c = '\u212a' then 'k' else c.toLower)

/-! ## Parsing -/

/-- `require`. -/
def require (condition : Bool) (message : String) : Except String Unit :=
  if condition then .ok () else .error message

/-- `?: error(message)`. -/
def orError {α : Type} (message : String) : Option α → Except String α
  | some a => .ok a
  | none => .error message

/-- One `key=value` of a query. -/
def parsePair (pair : List Char) : Except String (String × String) :=
  if '=' ∈ pair then do
    let key ← java.decode (String.ofList (pair.takeWhile (· ≠ '=')))
    let value ← java.decode (String.ofList ((pair.dropWhile (· ≠ '=')).drop 1))
    .ok (key, value)
  else do
    let key ← java.decode (String.ofList pair)
    .ok (key, "")

/-- The pairs of a query that are not blank. -/
def queryPairs (rawQuery : List Char) : List (List Char) :=
  (rawQuery.splitOn '&').filter fun pair => !pair.all isWhitespace

/-- `parseQuery`. -/
def parseQuery (rawQuery : Option String) : Except String (List (String × String)) :=
  match unlessBlank rawQuery with
  | none => .ok []
  | some rawQuery => (queryPairs rawQuery.toList).mapM (parsePair java)

/-- `params[key]`: of two pairs with one key the later one counts. -/
def param (params : List (String × String)) (key : String) : Option String :=
  params.reverse.lookup key

/-- The checks on security and network type, which return the two. -/
def checkParams (params : List (String × String)) : Except String (String × String) := do
  let security := (unlessBlank (param params "security")).getD "reality"
  require (equalsIgnoreCase security "reality") "Only Reality is supported"
  let network := (unlessBlank (param params "type")).getD "tcp"
  require (lowercase network ∈ ["tcp", "ws", "xhttp"]) ("Unsupported network type: " ++ network)
  .ok (security, network)

/-- The test on the scheme. -/
def isVless (uri : String) : Bool := "vless://".toList.isPrefixOf uri.toList

/-- `VlessProfileParser.parse`. -/
def parse (uri : String) : Except String VlessProfile := do
  require (isVless uri) "Only vless:// profiles are supported"
  let parsed ← java.uri uri
  let uuid ← orError "Missing UUID" (unlessBlank parsed.userInfo)
  let host ← orError "Missing host" (unlessBlank parsed.host)
  let port := if 0 < parsed.port then parsed.port else 443
  let params ← parseQuery java parsed.rawQuery
  let (security, network) ← checkParams params
  .ok {
    name := parsed.fragment.getD "ShadeVPN Reality"
    serverAddress := host
    serverPort := port
    uuid := uuid
    flow := unlessBlank (param params "flow")
    security := security
    network := network
    host := unlessBlank (param params "host")
    path := unlessBlank (param params "path")
    sni := unlessBlank ((param params "sni").or (param params "serverName"))
    publicKey := unlessBlank ((param params "pbk").or (param params "publicKey"))
    shortId := unlessBlank ((param params "sid").or (param params "shortId"))
    fingerprint := unlessBlank ((param params "fp").or (param params "fingerprint")) }

/-! ## The payloads -/

/-- `replace` of a text of one character. -/
def replace (old : Char) (new value : String) : String :=
  String.ofList (value.toList.flatMap fun c => if c = old then new.toList else [c])

/-- `escape`. -/
def escape (value : String) : String := replace '"' "\\\"" (replace '\\' "\\\\" value)

/-- A text in quotes. -/
def quote (value : String) : String := "\"" ++ escape value ++ "\""

/-- `nullable`. -/
def nullable : Option String → String
  | some value => quote value
  | none => "null"

/-- What is appended for one member: `"name":` and the text of its value. -/
def member (name text : String) : String := "\"" ++ name ++ "\":" ++ text

/-- `toSanitizedJson`. -/
def toSanitizedJson (profile : VlessProfile) : String :=
  "\x7b"
  ++ member "name" (quote profile.name) ++ ","
  ++ member "serverAddress" (quote profile.serverAddress) ++ ","
  ++ member "serverPort" (toString profile.serverPort.toInt) ++ ","
  ++ member "network" (quote profile.network) ++ ","
  ++ member "security" (quote profile.security) ++ ","
  ++ member "sni" (nullable profile.sni) ++ ","
  ++ member "host" (nullable profile.host) ++ ","
  ++ member "path" (nullable profile.path) ++ ","
  ++ member "flow" (nullable profile.flow) ++ ","
  ++ member "publicKeyPresent" (toString profile.publicKey.isSome) ++ ","
  ++ member "shortIdPresent" (toString profile.shortId.isSome) ++ ","
  ++ member "fingerprint" (nullable profile.fingerprint)
  ++ "\x7d"

/-- `toHandshakeJson`. -/
def toHandshakeJson (profile : VlessProfile) : String :=
  "\x7b"
  ++ member "serverAddress" (quote profile.serverAddress) ++ ","
  ++ member "uuid" (quote profile.uuid) ++ ","
  ++ member "serverPort" (toString profile.serverPort.toInt) ++ ","
  ++ member "network" (quote profile.network) ++ ","
  ++ member "security" (quote profile.security) ++ ","
  ++ member "sni" (nullable profile.sni) ++ ","
  ++ member "publicKeyPresent" (toString profile.publicKey.isSome) ++ ","
  ++ member "shortIdPresent" (toString profile.shortId.isSome) ++ ","
  ++ member "publicKey" (nullable profile.publicKey) ++ ","
  ++ member "shortId" (nullable profile.shortId)
  ++ "\x7d"

end ShadeVpn.Profile
