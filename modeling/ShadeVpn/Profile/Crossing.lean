import ShadeVpn.Lib.Cursor
import ShadeVpn.Lib.Json
import ShadeVpn.Profile.Parser

/-!
# Profiles across the bridge

What `read_profile` of `native/src/lib.rs` makes of the two payloads.  `escape` takes
care of quotes and backslashes, so a text comes back as it was unless it has a
control character (`readString_escape`); and the port of a profile is an `Int` on one
side and a `u16` on the other.  Nothing else is lost: `crosses_iff`.
-/

namespace ShadeVpn.Profile

open Service Json

/-! ## The native side -/

/-- `RealityProfile`. -/
structure RealityProfile where
  serverAddress : String
  serverPort : UInt16
  security : String
  network : String
  sni : Option String
  publicKeyPresent : Bool
  shortIdPresent : Bool
  publicKey : Option String
  shortId : Option String
  uuid : Option String
  deriving DecidableEq

def asString : Value → Option String
  | .string s => some s
  | _ => none

def asBool : Value → Option Bool
  | .bool b => some b
  | _ => none

/-- A `u16`: an integer in range, with no fraction and no exponent. -/
def asU16 : Value → Option UInt16
  | .number ⟨false, n, none, none⟩ => if n < 2 ^ 16 then some (UInt16.ofNat n) else none
  | _ => none

/-- An `Option` field: `null` is `None`. -/
def asOption {α : Type} (read : Value → Option α) : Value → Option (Option α)
  | .null => some none
  | v => (read v).map some

/-- The field of a name among the members: absent, or given once. -/
def field (name : String) (ms : List (String × Value)) : Option (Option Value) :=
  match ms.filter (·.1 = name) with
  | [] => some none
  | [(_, v)] => some (some v)
  | _ => none

/-- A field that has to be there. -/
def required {α : Type} (read : Value → Option α) (name : String) (ms : List (String × Value)) :
    Option α := do
  let v ← field name ms
  let v ← v
  read v

/-- An `Option` field that need not be there. -/
def optional {α : Type} (read : Value → Option α) (name : String) (ms : List (String × Value)) :
    Option (Option α) := do
  match ← field name ms with
  | none => some none
  | some v => asOption read v

/-- `Deserialize` for `RealityProfile`: other fields are ignored. -/
def RealityProfile.ofValue : Value → Option RealityProfile
  | .object ms => do
    some {
      serverAddress := ← required asString "serverAddress" ms
      serverPort := ← required asU16 "serverPort" ms
      security := ← required asString "security" ms
      network := ← required asString "network" ms
      sni := ← optional asString "sni" ms
      publicKeyPresent := ← required asBool "publicKeyPresent" ms
      shortIdPresent := ← required asBool "shortIdPresent" ms
      publicKey := ← optional asString "publicKey" ms
      shortId := ← optional asString "shortId" ms
      uuid := ← optional asString "uuid" ms }
  | _ => none

/-- `read_profile`, on the texts the other side writes.  `serde_json` also takes an array
of the fields in their order, and an escape of a lone surrogate in a member it ignores;
both are refused here. -/
def readProfile (raw : String) : Option RealityProfile := do
  let v ← Json.parse raw.toList
  RealityProfile.ofValue v

/-! ## Texts -/

/-- A text without a control character. -/
def Printable (s : String) : Prop := ∀ c ∈ s.toList, ' ' ≤ c

instance : DecidablePred Printable := fun s => List.decidableBAll (' ' ≤ ·) s.toList

/-- What `escape` writes for a character. -/
def escapeChar (c : Char) : List Char :=
  if c = '\\' then ['\\', '\\'] else if c = '"' then ['\\', '"'] else [c]

theorem toList_escape (s : String) : (escape s).toList = s.toList.flatMap escapeChar := by
  simp only [escape, replace, String.toList_ofList, List.flatMap_assoc]
  congr 1
  funext c
  rw [escapeChar]
  split_ifs with hslash hquote <;> simp_all

theorem readString_escapeChar {c : Char} (h : ' ' ≤ c) (rest : List Char) :
    readString (escapeChar c ++ rest) = consChar c (readString rest) := by
  rw [escapeChar]
  split_ifs with hslash hquote
  · subst hslash
    rfl
  · subst hquote
    rfl
  · exact readString_cons ⟨h, hquote, hslash⟩ rest

theorem readString_control {c : Char} (h : ¬ ' ' ≤ c) (rest : List Char) :
    readString (escapeChar c ++ rest) = none := by
  have hslash : c ≠ '\\' := by rintro rfl; exact h (by decide)
  have hquote : c ≠ '"' := by rintro rfl; exact h (by decide)
  rw [escapeChar, if_neg hslash, if_neg hquote, List.singleton_append]
  exact readString_of_control (not_le.1 h) rest

/-- **An escaped text reads back** if it has no control character. -/
theorem readString_escape {s : List Char} (h : ∀ c ∈ s, ' ' ≤ c) (rest : List Char) :
    readString (s.flatMap escapeChar ++ '"' :: rest) = some (s, rest) := by
  induction s with
  | nil => simp [readString]
  | cons c s ih =>
    rw [List.forall_mem_cons] at h
    rw [List.flatMap_cons, List.append_assoc, readString_escapeChar h.1, ih h.2]
    rfl

/-- And not if it has one. -/
theorem readString_escape_control {s : List Char} (h : ¬ ∀ c ∈ s, ' ' ≤ c) (rest : List Char) :
    readString (s.flatMap escapeChar ++ '"' :: rest) = none := by
  induction s with
  | nil => simp at h
  | cons c s ih =>
    rw [List.forall_mem_cons] at h
    rw [List.flatMap_cons, List.append_assoc]
    by_cases hc : ' ' ≤ c
    · rw [readString_escapeChar hc, ih fun hs => h ⟨hc, hs⟩]
      rfl
    · exact readString_control hc _

theorem reads_escape (s : String) : Reads (quoted (escape s).toList)
    (if Printable s then some (.string s) else none) := by
  rw [toList_escape]
  split_ifs with h
  · have hread := reads_quoted fun rest => readString_escape h rest
    rwa [String.ofList_toList] at hread
  · exact reads_quoted_none fun rest => readString_escape_control h rest

/-- What a `nullable` text reads as. -/
def nullableAtom : Option String → Option Atom
  | some s => if Printable s then some (.string s) else none
  | none => some .null

theorem reads_nullable (s : Option String) : Reads (nullable s).toList (nullableAtom s) := by
  cases s with
  | none => exact reads_null
  | some s =>
    have hquoted : (nullable (some s)).toList = quoted (escape s).toList := by
      simp [nullable, quote, quoted]
    rw [hquoted]
    exact reads_escape s

theorem reads_bool (b : Bool) : Reads (toString b).toList (some (.bool b)) := by
  cases b
  · exact reads_false
  · exact reads_true

theorem reads_port {port : Int32} (h : 0 < port.toInt) : Reads (toString port.toInt).toList
    (some (.number ⟨false, port.toInt.toNat, none, none⟩)) := by
  have hdigits : (toString port.toInt).toList = Nat.toDigits 10 port.toInt.toNat := by
    obtain ⟨n, hn⟩ := Int.eq_ofNat_of_zero_le h.le
    rw [hn]
    exact Nat.toList_repr
  rw [hdigits]
  exact reads_number (by omega)

/-! ## Payloads -/

/-- A member of a payload: its name, the text of its value and what that reads as. -/
structure Member where
  name : String
  text : String
  atom : Option Atom

/-- The form in which the reader takes it. -/
def Member.entry (m : Member) : List Char × List Char × Option Atom :=
  (m.name.toList, m.text.toList, m.atom)

def textMember (name value : String) : Member := ⟨name, quote value, nullableAtom (some value)⟩

def nullableMember (name : String) (value : Option String) : Member :=
  ⟨name, nullable value, nullableAtom value⟩

def portMember (name : String) (port : Int32) : Member :=
  ⟨name, toString port.toInt, some (.number ⟨false, port.toInt.toNat, none, none⟩)⟩

def boolMember (name : String) (b : Bool) : Member := ⟨name, toString b, some (.bool b)⟩

def sanitizedMembers (p : VlessProfile) : List Member :=
  [textMember "name" p.name, textMember "serverAddress" p.serverAddress,
    portMember "serverPort" p.serverPort, textMember "network" p.network,
    textMember "security" p.security, nullableMember "sni" p.sni, nullableMember "host" p.host,
    nullableMember "path" p.path, nullableMember "flow" p.flow,
    boolMember "publicKeyPresent" p.publicKey.isSome,
    boolMember "shortIdPresent" p.shortId.isSome, nullableMember "fingerprint" p.fingerprint]

def handshakeMembers (p : VlessProfile) : List Member :=
  [textMember "serverAddress" p.serverAddress, textMember "uuid" p.uuid,
    portMember "serverPort" p.serverPort, textMember "network" p.network,
    textMember "security" p.security, nullableMember "sni" p.sni,
    boolMember "publicKeyPresent" p.publicKey.isSome,
    boolMember "shortIdPresent" p.shortId.isSome, nullableMember "publicKey" p.publicKey,
    nullableMember "shortId" p.shortId]

/-- What is appended behind the first member. -/
def membersTail : List Member → String
  | [] => "\x7d"
  | m :: ms => "," ++ (member m.name m.text ++ membersTail ms)

theorem toList_member (name text : String) (rest : List Char) :
    (member name text).toList ++ rest = quoted name.toList ++ ':' :: (text.toList ++ rest) := by
  have hopen : "\"".toList = ['"'] := rfl
  have hclose : "\":".toList = ['"', ':'] := rfl
  simp only [member, String.toList_append, hopen, hclose, quoted, List.append_assoc,
    List.cons_append, List.nil_append]

theorem toList_membersTail (ms : List Member) : (membersTail ms).toList =
    tailText ((ms.map Member.entry).map fun m => (m.1, m.2.1)) := by
  induction ms with
  | nil => rfl
  | cons m ms ih =>
    rw [membersTail, String.toList_append, String.toList_append, toList_member, ih]
    rfl

/-- The payload of some members. -/
def payload : List Member → String
  | [] => "\x7b\x7d"
  | m :: ms => "\x7b" ++ (member m.name m.text ++ membersTail ms)

theorem toList_payload (ms : List Member) : (payload ms).toList =
    objectText ((ms.map Member.entry).map fun m => (m.1, m.2.1)) := by
  cases ms with
  | nil => rfl
  | cons m ms =>
    rw [payload, String.toList_append, String.toList_append, toList_member, toList_membersTail]
    rfl

theorem toSanitizedJson_eq (p : VlessProfile) :
    toSanitizedJson p = payload (sanitizedMembers p) := by
  unfold toSanitizedJson sanitizedMembers payload
  simp only [membersTail]
  simp only [textMember, nullableMember, portMember, boolMember]
  simp only [String.append_assoc]

theorem toHandshakeJson_eq (p : VlessProfile) :
    toHandshakeJson p = payload (handshakeMembers p) := by
  unfold toHandshakeJson handshakeMembers payload
  simp only [membersTail]
  simp only [textMember, nullableMember, portMember, boolMember]
  simp only [String.append_assoc]

/-! ## Reading them back -/

/-- A member whose name needs no escape and whose text reads as the atom it says. -/
def Member.Good (m : Member) : Prop :=
  PlainText m.name.toList ∧ Reads m.text.toList m.atom

/-- The members a reader sees, if all of them read. -/
def seen : List Member → Option (List (String × Value))
  | [] => some []
  | m :: ms => m.atom.bind fun a => (seen ms).map ((m.name, a.value) :: ·)

theorem members_readMembers (ms : List Member) :
    (readMembers (ms.map Member.entry)).map members = seen ms := by
  induction ms with
  | nil => rfl
  | cons m ms ih =>
    rw [seen, ← ih, List.map_cons, Member.entry, readMembers]
    rcases m.atom with _ | a
    · rfl
    rcases readMembers (ms.map Member.entry) with _ | as
    · rfl
    · simp [members]

theorem seen_eq_none {ms : List Member} {m : Member} (hm : m ∈ ms) (h : m.atom = none) :
    seen ms = none := by
  induction hm with
  | head => simp [seen, h]
  | tail m' _ ih => simp [seen, ih]

theorem parse_payload {ms : List Member} (h : ∀ m ∈ ms, m.Good) (hne : ms ≠ []) :
    Json.parse (payload ms).toList = (seen ms).map .object := by
  have hentries : ∀ e ∈ ms.map Member.entry, PlainText e.1 ∧ Reads e.2.1 e.2.2 := by
    intro e he
    obtain ⟨m, hm, rfl⟩ := List.mem_map.1 he
    exact h m hm
  rw [toList_payload, parse_objectText hentries (by simpa using hne), ← members_readMembers,
    Option.map_map]
  rfl

theorem good_textMember {name : String} (h : PlainText name.toList) (value : String) :
    (textMember name value).Good := ⟨h, reads_nullable (some value)⟩

theorem good_nullableMember {name : String} (h : PlainText name.toList)
    (value : Option String) : (nullableMember name value).Good := ⟨h, reads_nullable value⟩

theorem good_boolMember {name : String} (h : PlainText name.toList) (b : Bool) :
    (boolMember name b).Good := ⟨h, reads_bool b⟩

theorem good_portMember {name : String} (h : PlainText name.toList) {port : Int32}
    (hport : 0 < port.toInt) : (portMember name port).Good := ⟨h, reads_port hport⟩

theorem good_sanitizedMembers {p : VlessProfile} (hport : 0 < p.serverPort.toInt) :
    ∀ m ∈ sanitizedMembers p, m.Good := by
  simp only [sanitizedMembers, List.forall_mem_cons, List.not_mem_nil, false_imp_iff,
    implies_true, and_true]
  exact ⟨good_textMember (by decide) _, good_textMember (by decide) _,
    good_portMember (by decide) hport, good_textMember (by decide) _,
    good_textMember (by decide) _, good_nullableMember (by decide) _,
    good_nullableMember (by decide) _, good_nullableMember (by decide) _,
    good_nullableMember (by decide) _, good_boolMember (by decide) _,
    good_boolMember (by decide) _, good_nullableMember (by decide) _⟩

theorem good_handshakeMembers {p : VlessProfile} (hport : 0 < p.serverPort.toInt) :
    ∀ m ∈ handshakeMembers p, m.Good := by
  simp only [handshakeMembers, List.forall_mem_cons, List.not_mem_nil, false_imp_iff,
    implies_true, and_true]
  exact ⟨good_textMember (by decide) _, good_textMember (by decide) _,
    good_portMember (by decide) hport, good_textMember (by decide) _,
    good_textMember (by decide) _, good_nullableMember (by decide) _,
    good_boolMember (by decide) _, good_boolMember (by decide) _,
    good_nullableMember (by decide) _, good_nullableMember (by decide) _⟩

/-! ## Profiles read back -/

/-- The optional value as a reader sees it. -/
def nullableValue : Option String → Value
  | some s => .string s
  | none => .null

/-- The texts that `toSanitizedJson` writes. -/
def sanitizedTexts (p : VlessProfile) : List String :=
  [p.name, p.serverAddress, p.network, p.security] ++ p.sni.toList ++ p.host.toList ++
    p.path.toList ++ p.flow.toList ++ p.fingerprint.toList

/-- The texts that `toHandshakeJson` writes. -/
def handshakeTexts (p : VlessProfile) : List String :=
  [p.serverAddress, p.uuid, p.network, p.security] ++ p.sni.toList ++ p.publicKey.toList ++
    p.shortId.toList

/-- What the native side makes of the sanitized payload. -/
def sanitizedProfile (p : VlessProfile) : RealityProfile where
  serverAddress := p.serverAddress
  serverPort := UInt16.ofNat p.serverPort.toInt.toNat
  security := p.security
  network := p.network
  sni := p.sni
  publicKeyPresent := p.publicKey.isSome
  shortIdPresent := p.shortId.isSome
  publicKey := none
  shortId := none
  uuid := none

/-- What it makes of the payload for the handshake. -/
def handshakeProfile (p : VlessProfile) : RealityProfile :=
  { sanitizedProfile p with
    publicKey := p.publicKey
    shortId := p.shortId
    uuid := some p.uuid }

theorem nullableAtom_eq {s : Option String} (h : ∀ t ∈ s.toList, Printable t) :
    (nullableAtom s).map Atom.value = some (nullableValue s) := by
  cases s with
  | none => rfl
  | some s => simp [nullableAtom, h s (by simp), nullableValue, Atom.value]

theorem nullableAtom_eq_none {s : Option String} {t : String} (ht : t ∈ s.toList)
    (h : ¬ Printable t) : nullableAtom s = none := by
  cases s with
  | none => cases ht
  | some s =>
    obtain rfl : t = s := by simpa using ht
    simp [nullableAtom, h]

theorem asOption_nullableValue (s : Option String) :
    asOption asString (nullableValue s) = some s := by
  cases s <;> rfl

theorem seen_cons (m : Member) (ms : List Member) :
    seen (m :: ms) =
      (m.atom.map Atom.value).bind fun v => (seen ms).map ((m.name, v) :: ·) := by
  rw [seen]
  cases m.atom <;> rfl

theorem nullableAtom_some {s : String} (h : Printable s) :
    (nullableAtom (some s)).map Atom.value = some (.string s) := by
  simp [nullableAtom, h, Atom.value]

/-- The members of `toSanitizedJson` as a reader sees them. -/
def sanitizedValues (p : VlessProfile) : List (String × Value) :=
  [("name", .string p.name), ("serverAddress", .string p.serverAddress),
    ("serverPort", .number ⟨false, p.serverPort.toInt.toNat, none, none⟩),
    ("network", .string p.network), ("security", .string p.security),
    ("sni", nullableValue p.sni), ("host", nullableValue p.host),
    ("path", nullableValue p.path), ("flow", nullableValue p.flow),
    ("publicKeyPresent", .bool p.publicKey.isSome),
    ("shortIdPresent", .bool p.shortId.isSome),
    ("fingerprint", nullableValue p.fingerprint)]

/-- The members of `toHandshakeJson` as a reader sees them. -/
def handshakeValues (p : VlessProfile) : List (String × Value) :=
  [("serverAddress", .string p.serverAddress), ("uuid", .string p.uuid),
    ("serverPort", .number ⟨false, p.serverPort.toInt.toNat, none, none⟩),
    ("network", .string p.network), ("security", .string p.security),
    ("sni", nullableValue p.sni), ("publicKeyPresent", .bool p.publicKey.isSome),
    ("shortIdPresent", .bool p.shortId.isSome), ("publicKey", nullableValue p.publicKey),
    ("shortId", nullableValue p.shortId)]

theorem seen_sanitizedMembers {p : VlessProfile} (h : ∀ t ∈ sanitizedTexts p, Printable t) :
    seen (sanitizedMembers p) = some (sanitizedValues p) := by
  simp only [sanitizedTexts, List.forall_mem_append, List.forall_mem_cons] at h
  obtain ⟨⟨⟨⟨⟨⟨hname, haddress, hnetwork, hsecurity, -⟩, hsni⟩, hhost⟩, hpath⟩, hflow⟩, hfp⟩ := h
  simp only [sanitizedMembers, seen_cons, textMember, nullableMember, portMember, boolMember,
    nullableAtom_some hname, nullableAtom_some haddress, nullableAtom_some hnetwork,
    nullableAtom_some hsecurity, nullableAtom_eq hsni, nullableAtom_eq hhost,
    nullableAtom_eq hpath, nullableAtom_eq hflow, nullableAtom_eq hfp]
  rfl

theorem seen_handshakeMembers {p : VlessProfile} (h : ∀ t ∈ handshakeTexts p, Printable t) :
    seen (handshakeMembers p) = some (handshakeValues p) := by
  simp only [handshakeTexts, List.forall_mem_append, List.forall_mem_cons] at h
  obtain ⟨⟨⟨⟨haddress, huuid, hnetwork, hsecurity, -⟩, hsni⟩, hkey⟩, hid⟩ := h
  simp only [handshakeMembers, seen_cons, textMember, nullableMember, portMember, boolMember,
    nullableAtom_some haddress, nullableAtom_some huuid, nullableAtom_some hnetwork,
    nullableAtom_some hsecurity, nullableAtom_eq hsni, nullableAtom_eq hkey, nullableAtom_eq hid]
  rfl

theorem asU16_port {port : Int32} (h : 0 < port.toInt) :
    asU16 (.number ⟨false, port.toInt.toNat, none, none⟩) =
      if port.toInt ≤ 65535 then some (UInt16.ofNat port.toInt.toNat) else none := by
  have hiff : port.toInt.toNat < 2 ^ 16 ↔ port.toInt ≤ 65535 := by omega
  rw [asU16]
  simp only [hiff]

theorem asOption_string (s : String) : asOption asString (.string s) = some (some s) := rfl

theorem ofValue_sanitized {p : VlessProfile} (h : 0 < p.serverPort.toInt) :
    RealityProfile.ofValue (.object (sanitizedValues p)) =
      if p.serverPort.toInt ≤ 65535 then some (sanitizedProfile p) else none := by
  have hport := asU16_port h
  split_ifs at hport ⊢ with hle <;>
    simp [RealityProfile.ofValue, sanitizedValues, required, optional, field, asString, asBool,
      asOption_nullableValue, -Int32.toNat_toInt, hport, sanitizedProfile]

theorem ofValue_handshake {p : VlessProfile} (h : 0 < p.serverPort.toInt) :
    RealityProfile.ofValue (.object (handshakeValues p)) =
      if p.serverPort.toInt ≤ 65535 then some (handshakeProfile p) else none := by
  have hport := asU16_port h
  split_ifs at hport ⊢ with hle <;>
    simp [RealityProfile.ofValue, handshakeValues, required, optional, field, asString,
      asBool, asOption_nullableValue, asOption_string, -Int32.toNat_toInt, hport, handshakeProfile,
      sanitizedProfile]

theorem exists_unreadable_sanitized {p : VlessProfile} {t : String} (ht : t ∈ sanitizedTexts p)
    (h : ¬ Printable t) : ∃ m ∈ sanitizedMembers p, m.atom = none := by
  simp only [sanitizedTexts, List.mem_append, List.mem_cons, List.not_mem_nil, or_false] at ht
  simp only [sanitizedMembers, List.exists_mem_cons_iff, textMember, nullableMember]
  rcases ht with ((((ht | ht) | ht) | ht) | ht) | ht
  · rcases ht with rfl | rfl | rfl | rfl <;> simp [nullableAtom, h]
  all_goals simp [nullableAtom_eq_none ht h]

theorem exists_unreadable_handshake {p : VlessProfile} {t : String} (ht : t ∈ handshakeTexts p)
    (h : ¬ Printable t) : ∃ m ∈ handshakeMembers p, m.atom = none := by
  simp only [handshakeTexts, List.mem_append, List.mem_cons, List.not_mem_nil, or_false] at ht
  simp only [handshakeMembers, List.exists_mem_cons_iff, textMember, nullableMember]
  rcases ht with ((ht | ht) | ht) | ht
  · rcases ht with rfl | rfl | rfl | rfl <;> simp [nullableAtom, h]
  all_goals simp [nullableAtom_eq_none ht h]

theorem readProfile_payload {ms : List Member} (h : ∀ m ∈ ms, m.Good) (hne : ms ≠ []) :
    readProfile (payload ms) = (seen ms).bind fun vs => RealityProfile.ofValue (.object vs) := by
  rw [readProfile, parse_payload h hne]
  cases seen ms <;> rfl

/-- **The sanitized payload** is read, to the profile it was written from, just when the
port fits and every text in it is printable. -/
theorem readProfile_sanitized {p : VlessProfile} (h : 0 < p.serverPort.toInt) :
    readProfile (toSanitizedJson p) =
      if p.serverPort.toInt ≤ 65535 ∧ ∀ t ∈ sanitizedTexts p, Printable t
        then some (sanitizedProfile p) else none := by
  rw [toSanitizedJson_eq,
    readProfile_payload (good_sanitizedMembers h) (by simp [sanitizedMembers])]
  by_cases htexts : ∀ t ∈ sanitizedTexts p, Printable t
  · rw [seen_sanitizedMembers htexts, Option.bind_some, ofValue_sanitized h]
    simp only [and_iff_left htexts]
  · rw [if_neg fun hand => htexts hand.2]
    push Not at htexts
    obtain ⟨t, ht, hcontrol⟩ := htexts
    obtain ⟨m, hm, hnone⟩ := exists_unreadable_sanitized ht hcontrol
    rw [seen_eq_none hm hnone, Option.bind_none]

/-- **The payload for the handshake**, likewise. -/
theorem readProfile_handshake {p : VlessProfile} (h : 0 < p.serverPort.toInt) :
    readProfile (toHandshakeJson p) =
      if p.serverPort.toInt ≤ 65535 ∧ ∀ t ∈ handshakeTexts p, Printable t
        then some (handshakeProfile p) else none := by
  rw [toHandshakeJson_eq,
    readProfile_payload (good_handshakeMembers h) (by simp [handshakeMembers])]
  by_cases htexts : ∀ t ∈ handshakeTexts p, Printable t
  · rw [seen_handshakeMembers htexts, Option.bind_some, ofValue_handshake h]
    simp only [and_iff_left htexts]
  · rw [if_neg fun hand => htexts hand.2]
    push Not at htexts
    obtain ⟨t, ht, hcontrol⟩ := htexts
    obtain ⟨m, hm, hnone⟩ := exists_unreadable_handshake ht hcontrol
    rw [seen_eq_none hm hnone, Option.bind_none]

/-- What both payloads have to carry over. -/
def RealityProfile.Agrees (r : RealityProfile) (p : VlessProfile) : Prop :=
  r.serverAddress = p.serverAddress ∧ (r.serverPort.toNat : ℤ) = p.serverPort.toInt ∧
    r.network = p.network ∧ r.security = p.security ∧ r.sni = p.sni

/-- A profile is the same on the other side. -/
def Crosses (p : VlessProfile) : Prop :=
  (∃ r, readProfile (toSanitizedJson p) = some r ∧ r.Agrees p) ∧
    ∃ r, readProfile (toHandshakeJson p) = some r ∧ r.Agrees p ∧ r.uuid = some p.uuid ∧
      r.publicKey = p.publicKey ∧ r.shortId = p.shortId

theorem sanitizedProfile_agrees {p : VlessProfile} (h : 0 < p.serverPort.toInt)
    (hport : p.serverPort.toInt ≤ 65535) : (sanitizedProfile p).Agrees p := by
  refine ⟨rfl, ?_, rfl, rfl, rfl⟩
  have hlt : p.serverPort.toInt.toNat < 2 ^ 16 := by omega
  rw [sanitizedProfile, UInt16.toNat_ofNat', Nat.mod_eq_of_lt hlt]
  omega

theorem crosses_of_pos {p : VlessProfile} (h : 0 < p.serverPort.toInt) :
    Crosses p ↔ p.serverPort.toInt ≤ 65535 ∧
      ∀ t ∈ sanitizedTexts p ++ handshakeTexts p, Printable t := by
  rw [Crosses, readProfile_sanitized h, readProfile_handshake h, List.forall_mem_append]
  constructor
  · rintro ⟨⟨r, hr, -⟩, r', hr', -⟩
    split_ifs at hr hr' with hs hh
    exact ⟨hs.1, hs.2, hh.2⟩
  · rintro ⟨hport, hs, hh⟩
    have hagrees := sanitizedProfile_agrees h hport
    rw [if_pos ⟨hport, hs⟩, if_pos ⟨hport, hh⟩]
    exact ⟨⟨_, rfl, hagrees⟩, _, rfl, hagrees, rfl, rfl, rfl⟩

/-! ## Links -/

/-- The texts that a link puts into its profile beside those the parser chooses from a
fixed few. -/
def linkTexts (parsed : Uri) (params : List (String × String)) : List String :=
  parsed.fragment.toList ++ (unlessBlank parsed.userInfo).toList ++
    (unlessBlank parsed.host).toList ++ (unlessBlank (param params "flow")).toList ++
    (unlessBlank (param params "host")).toList ++ (unlessBlank (param params "path")).toList ++
    (unlessBlank ((param params "sni").or (param params "serverName"))).toList ++
    (unlessBlank ((param params "pbk").or (param params "publicKey"))).toList ++
    (unlessBlank ((param params "sid").or (param params "shortId"))).toList ++
    (unlessBlank ((param params "fp").or (param params "fingerprint"))).toList

/-- A link whose port is a port, and whose texts decode to printable ones. -/
def Portable (java : JavaNet) (link : String) : Prop :=
  ∃ parsed params, java.uri link = .ok parsed ∧ parseQuery java parsed.rawQuery = .ok params ∧
    parsed.port.toInt ≤ 65535 ∧ ∀ t ∈ linkTexts parsed params, Printable t

theorem printable_of_map {f : Char → Char} (hf : ∀ c, c < ' ' → f c = c) {s : String}
    {t : List Char} (h : s.toList.map f = t) (ht : t.all (' ' ≤ ·) = true) : Printable s := by
  intro c hc
  by_contra hlt
  rw [not_le] at hlt
  have hmem : f c ∈ t := h ▸ List.mem_map_of_mem hc
  rw [hf c hlt] at hmem
  exact absurd (of_decide_eq_true (List.all_eq_true.1 ht c hmem)) (not_le.2 hlt)

theorem toLower_control {c : Char} (h : c < ' ') : c.toLower = c := by
  rw [Char.toLower, dif_neg]
  rintro ⟨hA, -⟩
  have hle : 'A' ≤ c := hA
  exact absurd (lt_of_le_of_lt hle h) (by decide)

theorem foldCase_control {c : Char} (h : c < ' ') : foldCase c = c := by
  have hne : ∀ d, ' ' ≤ d → c ≠ d := fun d hd heq => absurd hd (not_le.2 (heq ▸ h))
  rw [foldCase, if_neg (not_or.2 ⟨hne _ (by decide), hne _ (by decide)⟩),
    if_neg (hne _ (by decide)), if_neg (hne _ (by decide)), toLower_control h]

/-- What the parser's checks leave of security and network has no control character. -/
theorem checkParams_eq_ok {params : List (String × String)} {security network : String}
    (h : checkParams params = .ok (security, network)) :
    Printable security ∧ Printable network := by
  simp only [checkParams, require, Cursor.bind_eq_ok] at h
  obtain ⟨⟨⟩, hsecurity, ⟨⟩, hnetwork, heq⟩ := h
  split_ifs at hsecurity hnetwork with hreality hknown
  cases heq
  constructor
  · exact printable_of_map (fun c => foldCase_control) (of_decide_eq_true hreality) (by decide)
  · simp only [List.mem_cons, List.not_mem_nil, or_false, decide_eq_true_eq, lowercase,
      ← String.toList_inj, String.toList_ofList] at hknown
    have hlower : ∀ c : Char, c < ' ' → (if c = '\u212a' then 'k' else c.toLower) = c := by
      intro c hc
      rw [if_neg, toLower_control hc]
      rintro rfl
      exact absurd hc (by decide)
    rcases hknown with heq | heq | heq <;> exact printable_of_map hlower heq (by decide)

theorem parse_eq_ok {java : JavaNet} {link : String} {p : VlessProfile}
    (h : parse java link = .ok p) :
    ∃ parsed params, java.uri link = .ok parsed ∧ parseQuery java parsed.rawQuery = .ok params ∧
      checkParams params = .ok (p.security, p.network) ∧
      unlessBlank parsed.userInfo = some p.uuid ∧ unlessBlank parsed.host = some p.serverAddress ∧
      p.serverPort = (if 0 < parsed.port then parsed.port else 443) ∧
      p.name = parsed.fragment.getD "ShadeVPN Reality" ∧ p.flow = unlessBlank (param params "flow") ∧
      p.host = unlessBlank (param params "host") ∧ p.path = unlessBlank (param params "path") ∧
      p.sni = unlessBlank ((param params "sni").or (param params "serverName")) ∧
      p.publicKey = unlessBlank ((param params "pbk").or (param params "publicKey")) ∧
      p.shortId = unlessBlank ((param params "sid").or (param params "shortId")) ∧
      p.fingerprint = unlessBlank ((param params "fp").or (param params "fingerprint")) := by
  simp only [parse, Cursor.bind_eq_ok] at h
  obtain ⟨-, -, parsed, huri, uuid, huuid, host, hhost, params, hparams, ⟨security, network⟩,
    hcheck, heq⟩ := h
  cases heq
  have hsome : ∀ {m : String} {o : Option String} {a}, orError m o = .ok a → o = some a := by
    rintro m (_ | o) a ha
    · cases ha
    · cases ha
      rfl
  exact ⟨parsed, params, huri, hparams, hcheck, hsome huuid, hsome hhost, rfl, rfl, rfl, rfl, rfl,
    rfl, rfl, rfl, rfl⟩

/-- An accepted link has a port above zero. -/
theorem parse_port_pos {java : JavaNet} {link : String} {p : VlessProfile}
    (h : parse java link = .ok p) : 0 < p.serverPort.toInt := by
  obtain ⟨parsed, -, -, -, -, -, -, hport, -⟩ := parse_eq_ok h
  rw [hport]
  split_ifs with hpos
  · exact Int32.lt_iff_toInt_lt.1 hpos
  · decide

theorem portable_iff {java : JavaNet} {link : String} {p : VlessProfile}
    (h : parse java link = .ok p) :
    Portable java link ↔ p.serverPort.toInt ≤ 65535 ∧
      ∀ t ∈ sanitizedTexts p ++ handshakeTexts p, Printable t := by
  obtain ⟨parsed, params, huri, hparams, hcheck, huuid, haddress, hport, hname, hflow, hhost,
    hpath, hsni, hkey, hid, hfp⟩ := parse_eq_ok h
  obtain ⟨hsecurity, hnetwork⟩ := checkParams_eq_ok hcheck
  have hfits : p.serverPort.toInt ≤ 65535 ↔ parsed.port.toInt ≤ 65535 := by
    rw [hport]
    split_ifs with hpos
    · rfl
    · have hle : parsed.port.toInt ≤ 0 := Int32.le_iff_toInt_le.1 (Int32.not_lt.1 hpos)
      exact iff_of_true (by decide) (by omega)
  have hfragment : Printable p.name ↔ ∀ t ∈ parsed.fragment.toList, Printable t := by
    rw [hname]
    cases parsed.fragment with
    | none => exact iff_of_true (by decide) (by simp)
    | some t => simp
  have htexts : (∀ t ∈ sanitizedTexts p ++ handshakeTexts p, Printable t) ↔
      ∀ t ∈ linkTexts parsed params, Printable t := by
    simp only [sanitizedTexts, handshakeTexts, linkTexts, List.forall_mem_append,
      List.forall_mem_cons, List.not_mem_nil, false_imp_iff, implies_true, and_true, huuid,
      haddress, ← hflow, ← hhost, ← hpath, ← hsni, ← hkey, ← hid, ← hfp, ← hfragment,
      Option.toList_some, hsecurity, hnetwork]
    tauto
  rw [hfits, htexts]
  constructor
  · rintro ⟨parsed', params', huri', hparams', hand⟩
    cases huri.symm.trans huri'
    cases hparams.symm.trans hparams'
    exact hand
  · exact fun hand => ⟨parsed, params, huri, hparams, hand⟩

/-- A platform that knows the pieces of two links. -/
def sampleNet : JavaNet where
  uri raw :=
    if raw = "vless://id@h.example:443?type=ws&path=a%22b#home" then
      .ok ⟨some "id", some "h.example", 443, some "type=ws&path=a%22b", some "home"⟩
    else if raw = "vless://id@h.example#line%0Abreak" then
      .ok ⟨some "id", some "h.example", -1, none, some "line\nbreak"⟩
    else .error ("Illegal character: " ++ raw)
  decode text :=
    if text = "a%22b" then .ok "a\"b"
    else if '%' ∈ text.toList ∨ '+' ∈ text.toList then .error "Illegal escape"
    else .ok text

/-- The profile of the first link. -/
def sampleProfile : VlessProfile where
  name := "home"
  serverAddress := "h.example"
  serverPort := 443
  uuid := "id"
  flow := none
  security := "reality"
  network := "ws"
  host := none
  path := some "a\"b"
  sni := none
  publicKey := none
  shortId := none
  fingerprint := none

/-- **A profile crosses the bridge** just when its link is portable: `escape` leaves control
characters as they are, and a port above 65535 is no `u16`. -/
theorem crosses_iff {java : JavaNet} {link : String} {p : VlessProfile}
    (h : parse java link = .ok p) : Crosses p ↔ Portable java link :=
  (crosses_of_pos (parse_port_pos h)).trans (portable_iff h).symm

theorem crosses_sampleProfile : Crosses sampleProfile := by
  have hparse : parse sampleNet "vless://id@h.example:443?type=ws&path=a%22b#home" =
      .ok sampleProfile := by decide +kernel
  refine (crosses_iff hparse).2 ⟨⟨some "id", some "h.example", 443,
    some "type=ws&path=a%22b", some "home"⟩, [("type", "ws"), ("path", "a\"b")], ?_⟩
  exact ⟨by decide +kernel, by decide +kernel, by decide, by decide +kernel⟩

theorem not_crosses : ¬ ∀ (java : JavaNet) (link : String) (p : VlessProfile),
    parse java link = .ok p → Crosses p := by
  intro hall
  have hparse : parse sampleNet "vless://id@h.example#line%0Abreak" =
      .ok { sampleProfile with name := "line\nbreak", network := "tcp", path := none } := by
    decide +kernel
  obtain ⟨⟨r, hr, -⟩, -⟩ := hall sampleNet _ _ hparse
  rw [readProfile_sanitized (by decide), if_neg (by decide +kernel)] at hr
  cases hr

end ShadeVpn.Profile
