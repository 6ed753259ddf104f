import ShadeVpn.Vless.Varint

/-!
# The VLESS request header

`build_request_header`, `parse_request_header`, `parse_address` and
`request_header_len` of `native/src/vless.rs`.  The header is

    [version][uuid 16][0x0a][varint n][n bytes of addons][command][port][address]

and a Mux command stops after the command byte.  The two readers are written
separately in the source and are kept separate here: the parser checks the
addons length with `checked_add`, the length reader adds without a check, and
both are translated with the bounds they really test.

The main result is `request_header_round_trip`: both readers invert the
builder, whatever bytes follow the header.
-/

namespace ShadeVpn.Vless

open Octets Checked

/-! ## Wire constants -/

/-- `VERSION`. -/
def VERSION : UInt8 := 0

/-- `CMD_TCP`. -/
def CMD_TCP : UInt8 := 0x01

/-- `CMD_MUX`. -/
def CMD_MUX : UInt8 := 0x0f

def ATYP_IPV4 : UInt8 := 0x01
def ATYP_DOMAIN : UInt8 := 0x02
def ATYP_IPV6 : UInt8 := 0x03

/-- A user id. -/
abbrev Uuid := List.Vector UInt8 16

/-- `Address`. -/
inductive Address where
  | ipv4 (octets : List.Vector UInt8 4)
  | ipv6 (octets : List.Vector UInt8 16)
  | domain (name : String)
  deriving DecidableEq

/-- `ParsedRequest`. -/
structure ParsedRequest where
  uuid : Uuid
  flow : Option String
  command : UInt8
  address : Address
  port : UInt16
  deriving DecidableEq

/-! ## The builder -/

/-- `Address::push_to`, the bytes it appends. -/
def Address.pushTo : Address → Bytes
  | .ipv4 octets => ATYP_IPV4 :: octets.toList
  | .ipv6 octets => ATYP_IPV6 :: octets.toList
  | .domain name => ATYP_DOMAIN :: UInt8.ofNat (utf8 name).length :: utf8 name

/-- The addons block of `build_request_header`. -/
def requestAddons (flow : Option String) : Bytes :=
  match flow with
  | none => [0x0a, 0x01, 0x00]
  | some name =>
    if name = "" then [0x0a, 0x01, 0x00]
    else
      let sub := 0x01 :: UInt8.ofNat (utf8 name).length :: utf8 name
      0x0a :: (encodeVarint sub.length ++ sub)

/-- What `build_request_header` writes after the addons. -/
def requestDestination (command : UInt8) (address : Address) (port : UInt16) : Bytes :=
  command :: if command ≠ CMD_MUX then toBE 2 port.toNat ++ address.pushTo else []

/-- The bytes of a request header. -/
def requestHeader (uuid : Uuid) (flow : Option String) (command : UInt8) (address : Address)
    (port : UInt16) : Bytes :=
  VERSION :: (uuid.toList ++ requestAddons flow ++ requestDestination command address port)

/-- `build_request_header`: its result type has an error, but no input reaches it. -/
def buildRequestHeader (uuid : Uuid) (flow : Option String) (command : UInt8)
    (address : Address) (port : UInt16) : Except VlessError Bytes :=
  .ok (requestHeader uuid flow command address port)

/-! ## The parser -/

/-- `parse_address`. -/
def parseAddress : Bytes → Except VlessError Address
  | [] => .error .layout
  | atyp :: rest =>
    if atyp = ATYP_IPV4 then
      if rest.length < 4 then .error .layout else .ok (.ipv4 (copyFrom 4 rest))
    else if atyp = ATYP_IPV6 then
      if rest.length < 16 then .error .layout else .ok (.ipv6 (copyFrom 16 rest))
    else if atyp = ATYP_DOMAIN then
      match rest with
      | [] => .error .layout
      | len :: body =>
        if body.length < len.toNat then .error .layout
        else
          match ofUtf8? (body.take len.toNat) with
          | none => .error .layout
          | some name => .ok (.domain name)
    else .error .layout

/-- The flow inside the addons: an optional `0x01 <len> <flow>` subfield. -/
def parseFlow : Bytes → Except VlessError (Option String)
  | [] => .ok none
  | tag :: rest =>
    if tag = 0x01 then
      match rest with
      | [] => .error .layout
      | len :: body =>
        if body.length < len.toNat then .error .layout
        else
          match ofUtf8? (body.take len.toNat) with
          | none => .error .layout
          | some flow => .ok (some flow)
    else .ok none

/-- What `parse_request_header` reads after the addons. -/
def parseDestination : Bytes → Except VlessError (UInt8 × Address × UInt16)
  | [] => .error .layout
  | command :: rest =>
    if command = CMD_MUX then .ok (command, .domain "v1.mux.cool", 0)
    else if rest.length < 2 then .error .layout
    else
      match parseAddress (rest.drop 2) with
      | .error e => .error e
      | .ok address => .ok (command, address, UInt16.ofNat (ofBE (rest.take 2)))

/-- `parse_request_header` in a build. -/
def Build.parseRequestHeader (b : Build) (t : Target) (wire : Bytes) :
    Except (Stop VlessError) ParsedRequest :=
  if wire.length < 1 + 16 + 3 + 1 then .error (.err .layout)
  else if wire.getD 0 0 ≠ VERSION then .error (.err .badResponse)
  else if wire.getD 17 0 ≠ 0x0a then .error (.err .layout)
  else
    match b.decodeVarint t (wire.drop 18) with
    | .error e => .error e
    | .ok (addonsLen, consumed) =>
      let pos := 18 + consumed
      -- `checked_add`, then the bound
      if 2 ^ t.bits ≤ pos + addonsLen ∨ wire.length < pos + addonsLen then .error (.err .layout)
      else
        match parseFlow ((wire.drop pos).take addonsLen) with
        | .error e => .error (.err e)
        | .ok flow =>
          match parseDestination (wire.drop (pos + addonsLen)) with
          | .error e => .error (.err e)
          | .ok (command, address, port) =>
            .ok { uuid := copyFrom 16 (wire.drop 1), flow, command, address, port }

/-- `parse_request_header`. -/
def parseRequestHeader (t : Target) (wire : Bytes) : Except (Stop VlessError) ParsedRequest :=
  Build.checked.parseRequestHeader t wire

/-! ## The length reader -/

/-- The length of the typed address at `pos`, as `request_header_len` adds it up. -/
def requestAddressLen (t : Target) (wire : Bytes) (pos : ℕ) :
    Except (Stop VlessError) ℕ :=
  match wire[pos]? with
  | none => .error (.err .layout)
  | some atyp =>
    if atyp = ATYP_IPV4 then .ok (1 + 4)
    else if atyp = ATYP_IPV6 then .ok (1 + 16)
    else if atyp = ATYP_DOMAIN then do
      let lenAt ← add t pos 1
      match wire[lenAt]? with
      | none => .error (.err .layout)
      | some len => add t 2 len.toNat
    else .error (.err .layout)

/-- `request_header_len` from the command byte at `pos` on. -/
def requestDestinationEnd (t : Target) (wire : Bytes) (pos : ℕ) :
    Except (Stop VlessError) ℕ :=
  if wire.length ≤ pos then .error (.err .layout)
  else do
    let afterCommand ← add t pos 1
    if wire.getD pos 0 = CMD_MUX then .ok afterCommand
    else do
      let afterPort ← add t afterCommand 2
      if wire.length < afterPort then .error (.err .layout)
      else do
        let addressLen ← requestAddressLen t wire afterPort
        add t afterPort addressLen

/-- `request_header_len` in a build.  Unlike the parser it adds the addons length without
a check and never compares the address with the end of the input.  An addition past the
word is reported in either build. -/
def Build.requestHeaderLen (b : Build) (t : Target) (wire : Bytes) :
    Except (Stop VlessError) ℕ :=
  if wire.length < 1 + 16 + 1 then .error (.err .layout)
  else if wire.getD 17 0 ≠ 0x0a then .error (.err .layout)
  else do
    let (addonsLen, consumed) ← b.decodeVarint t (wire.drop 18)
    let step ← add t consumed addonsLen
    let pos ← add t 18 step
    requestDestinationEnd t wire pos

/-- `request_header_len`. -/
def requestHeaderLen (t : Target) (wire : Bytes) : Except (Stop VlessError) ℕ :=
  Build.checked.requestHeaderLen t wire

/-! ## The two readers on a header cut into its parts -/

/-- The length of a typed address, read off its first bytes. -/
def addressSpan : Bytes → Option ℕ
  | [] => none
  | atyp :: rest =>
    if atyp = ATYP_IPV4 then some 5
    else if atyp = ATYP_IPV6 then some 17
    else if atyp = ATYP_DOMAIN then rest.head?.map (2 + ·.toNat)
    else none

/-- The length of command, port and address, read off their first bytes. -/
def destinationSpan : Bytes → Option ℕ
  | [] => none
  | command :: rest =>
    if command = CMD_MUX then some 1
    else if rest.length < 2 then none
    else (addressSpan (rest.drop 2)).map (3 + ·)

theorem addressSpan_le {addr : Bytes} {n : ℕ} (h : addressSpan addr = some n) : n ≤ 257 := by
  cases addr with
  | nil => cases h
  | cons atyp rest =>
    rw [addressSpan] at h
    split_ifs at h
    · cases h; omega
    · cases h; omega
    · cases rest with
      | nil => cases h
      | cons len body =>
        have := UInt8.toNat_lt len
        simp only [List.head?_cons, Option.map_some, Option.some.injEq] at h
        omega

/-- A position computed by a reader, or the `Layout` error. -/
def endAt (pos : ℕ) : Option ℕ → Except (Stop VlessError) ℕ
  | none => .error (.err .layout)
  | some n => .ok (pos + n)

theorem requestAddressLen_eq (t : Target) (pre addr : Bytes)
    (hfit : pre.length + 257 < 2 ^ t.bits) :
    requestAddressLen t (pre ++ addr) pre.length = endAt 0 (addressSpan addr) := by
  cases addr with
  | nil => simp [requestAddressLen, addressSpan, endAt]
  | cons atyp rest =>
    have hget : (pre ++ atyp :: rest)[pre.length]? = some atyp := by simp
    have hnext : (pre ++ atyp :: rest)[pre.length + 1]? = rest.head? := by
      rw [List.getElem?_append_right (by omega)]
      simp [List.head?_eq_getElem?]
    simp only [requestAddressLen, addressSpan, hget]
    split_ifs
    · rfl
    · rfl
    · rw [add_eq_ok (by omega)]
      simp only [bind, Except.bind, hnext]
      cases rest with
      | nil => rfl
      | cons len body =>
        have := UInt8.toNat_lt len
        have hadd : (add t 2 len.toNat : Except (Stop VlessError) ℕ) = .ok (2 + len.toNat) :=
          add_eq_ok (by omega)
        simp [hadd, endAt]
    · rfl

/-- The length reader walks command, port and address exactly as
`destinationSpan` counts them, and no addition on the way overflows. -/
theorem requestDestinationEnd_eq (t : Target) (pre tail : Bytes)
    (hfit : pre.length + 260 < 2 ^ t.bits) :
    requestDestinationEnd t (pre ++ tail) pre.length = endAt pre.length (destinationSpan tail) := by
  cases tail with
  | nil => simp [requestDestinationEnd, destinationSpan, endAt]
  | cons command rest =>
    have hlen : ¬ (pre ++ command :: rest).length ≤ pre.length := by simp
    have hget : (pre ++ command :: rest).getD pre.length 0 = command := by
      simp [List.getD_eq_getElem?_getD]
    rw [requestDestinationEnd, if_neg hlen, add_eq_ok (by omega)]
    simp only [bind, Except.bind, hget, destinationSpan]
    split_ifs with hmux hshort
    · rfl
    · rw [add_eq_ok (by omega)]
      have : (pre ++ command :: rest).length < pre.length + 1 + 2 := by
        simp only [List.length_append, List.length_cons]; omega
      simp only [this, if_true, endAt]
    · rw [add_eq_ok (by omega)]
      have hge : ¬ (pre ++ command :: rest).length < pre.length + 1 + 2 := by
        simp only [List.length_append, List.length_cons]; omega
      have hsplit : pre ++ command :: rest
          = (pre ++ command :: rest.take 2) ++ rest.drop 2 := by simp
      have hpre : (pre ++ command :: rest.take 2).length = pre.length + 1 + 2 := by
        simp only [List.length_append, List.length_cons, List.length_take]; omega
      have haddr := requestAddressLen_eq t (pre ++ command :: rest.take 2) (rest.drop 2)
        (by rw [hpre]; omega)
      rw [← hsplit, hpre] at haddr
      simp only [hge, if_false, haddr]
      cases hspan : addressSpan (rest.drop 2) with
      | none => rfl
      | some n =>
        have hn := addressSpan_le hspan
        simp only [endAt, Option.map_some, Nat.zero_add]
        rw [add_eq_ok (by omega)]
        congr 1
        omega

/-- A wire header up to the addons: version, uuid, tag, length prefix and addons. -/
def headerPrefix (v : UInt8) (uuid : Uuid) (used sub : Bytes) : Bytes :=
  v :: (uuid.toList ++ 0x0a :: (used ++ sub))

@[simp] theorem length_headerPrefix (v : UInt8) (uuid : Uuid) (used sub : Bytes) :
    (headerPrefix v uuid used sub).length = 18 + (used.length + sub.length) := by
  simp [headerPrefix]
  ring

section Shape

variable {b : Build} {t : Target} {v : UInt8} {uuid : Uuid} {used sub tail : Bytes}

theorem headerPrefix_getD_zero : (headerPrefix v uuid used sub ++ tail).getD 0 0 = v := rfl

theorem headerPrefix_getD_tag : (headerPrefix v uuid used sub ++ tail).getD 17 0 = 0x0a := by
  simp [headerPrefix, List.getD_eq_getElem?_getD]

theorem headerPrefix_drop_one :
    (headerPrefix v uuid used sub ++ tail).drop 1
      = uuid.toList ++ (0x0a :: (used ++ (sub ++ tail))) := by
  simp [headerPrefix]

theorem headerPrefix_drop_tag :
    (headerPrefix v uuid used sub ++ tail).drop 18 = used ++ (sub ++ tail) := by
  have h : headerPrefix v uuid used sub ++ tail
      = (v :: (uuid.toList ++ [0x0a])) ++ (used ++ (sub ++ tail)) := by simp [headerPrefix]
  rw [h]
  exact List.drop_left' (by simp)

/-- What the parser makes of the addons and of the bytes after them. -/
def readParts (uuid : Uuid) (sub tail : Bytes) : Except (Stop VlessError) ParsedRequest :=
  match parseFlow sub with
  | .error e => .error (.err e)
  | .ok flow =>
    match parseDestination tail with
    | .error e => .error (.err e)
    | .ok (command, address, port) => .ok { uuid, flow, command, address, port }

/-- The parser on a header cut into its parts. -/
theorem Build.parseRequestHeader_parts
    (hdec : ∀ r, b.decodeVarint t (used ++ r) = .ok (sub.length, used.length))
    (hfit : 18 + (used.length + sub.length) < 2 ^ t.bits)
    (hlen : 21 ≤ 18 + (used.length + sub.length) + tail.length) :
    b.parseRequestHeader t (headerPrefix VERSION uuid used sub ++ tail)
      = readParts uuid sub tail := by
  have hlen' : ¬ (headerPrefix VERSION uuid used sub ++ tail).length < 1 + 16 + 3 + 1 := by
    simp only [List.length_append, length_headerPrefix]; omega
  have hend : ¬ (2 ^ t.bits ≤ 18 + used.length + sub.length ∨
      (headerPrefix VERSION uuid used sub ++ tail).length < 18 + used.length + sub.length) := by
    simp only [List.length_append, length_headerPrefix]; omega
  have hsub : ((headerPrefix VERSION uuid used sub ++ tail).drop (18 + used.length)).take
      sub.length = sub := by
    rw [← List.drop_drop, headerPrefix_drop_tag, List.drop_left' rfl, List.take_left' rfl]
  have htail : (headerPrefix VERSION uuid used sub ++ tail).drop (18 + used.length + sub.length)
      = tail := List.drop_left' (by simp [length_headerPrefix]; ring)
  rw [Build.parseRequestHeader, if_neg hlen', headerPrefix_getD_zero, if_neg (by simp),
    headerPrefix_getD_tag, if_neg (by simp), headerPrefix_drop_tag, hdec]
  simp only [hend, if_false, hsub, htail, headerPrefix_drop_one, copyFrom_toList_append, readParts]

/-- The length reader on a header cut into its parts. -/
theorem Build.requestHeaderLen_parts
    (hdec : ∀ r, b.decodeVarint t (used ++ r) = .ok (sub.length, used.length))
    (hfit : 18 + (used.length + sub.length) + 260 < 2 ^ t.bits) :
    b.requestHeaderLen t (headerPrefix v uuid used sub ++ tail)
      = endAt (18 + (used.length + sub.length)) (destinationSpan tail) := by
  have hlen' : ¬ (headerPrefix v uuid used sub ++ tail).length < 1 + 16 + 1 := by
    simp only [List.length_append, length_headerPrefix]; omega
  rw [Build.requestHeaderLen, if_neg hlen', headerPrefix_getD_tag, if_neg (by simp),
    headerPrefix_drop_tag, hdec]
  simp only [bind, Except.bind]
  rw [add_eq_ok (by omega)]
  simp only
  rw [add_eq_ok (by omega)]
  have h := requestDestinationEnd_eq t (headerPrefix v uuid used sub) tail
    (by rw [length_headerPrefix]; omega)
  rwa [length_headerPrefix] at h

end Shape

/-! ## The readers on the builder's output -/

/-- The bytes inside the addons block. -/
def addonsBody (flow : Option String) : Bytes :=
  match flow with
  | none => [0x00]
  | some name =>
    if name = "" then [0x00]
    else 0x01 :: UInt8.ofNat (utf8 name).length :: utf8 name

/-- An empty flow is read back as no flow. -/
def readFlow : Option String → Option String
  | none => none
  | some name => if name = "" then none else some name

/-- A length byte that counts at most 255 bytes is read back unchanged. -/
theorem toNat_lengthByte {bs : Bytes} (h : bs.length ≤ 255) :
    (UInt8.ofNat bs.length).toNat = bs.length := by
  rw [UInt8.toNat_ofNat']
  omega

theorem requestAddons_eq (flow : Option String) :
    requestAddons flow
      = 0x0a :: (encodeVarint (addonsBody flow).length ++ addonsBody flow) := by
  have h1 : encodeVarint 1 = [0x01] := encodeVarint_of_lt (by decide)
  cases flow with
  | none => simp [requestAddons, addonsBody, h1]
  | some name =>
    by_cases hn : name = ""
    · simp [requestAddons, addonsBody, hn, h1]
    · simp [requestAddons, addonsBody, hn]

theorem length_addonsBody_pos (flow : Option String) : 0 < (addonsBody flow).length := by
  cases flow with
  | none => simp [addonsBody]
  | some name =>
    rw [addonsBody]
    split_ifs <;> simp

theorem length_addonsBody_le {flow : Option String}
    (hflow : ∀ f, flow = some f → (utf8 f).length ≤ 255) : (addonsBody flow).length ≤ 257 := by
  cases flow with
  | none => simp [addonsBody]
  | some name =>
    have := hflow name rfl
    rw [addonsBody]
    split_ifs
    · simp
    · simp only [List.length_cons]; omega

theorem parseFlow_addonsBody {flow : Option String}
    (hflow : ∀ f, flow = some f → (utf8 f).length ≤ 255) :
    parseFlow (addonsBody flow) = .ok (readFlow flow) := by
  cases flow with
  | none => rfl
  | some name =>
    have hlen := toNat_lengthByte (hflow name rfl)
    by_cases hn : name = ""
    · simp [addonsBody, parseFlow, readFlow, hn]
    · simp [addonsBody, parseFlow, readFlow, hn, hlen]

/-- An address whose length byte does not wrap. -/
def Address.Fits : Address → Prop
  | .domain name => (utf8 name).length ≤ 255
  | _ => True

theorem parseAddress_pushTo {address : Address} (h : address.Fits) (p : Bytes) :
    parseAddress (address.pushTo ++ p) = .ok address := by
  cases address with
  | ipv4 octets => simp [Address.pushTo, parseAddress]
  | ipv6 octets => simp [Address.pushTo, parseAddress, ATYP_IPV4, ATYP_IPV6]
  | domain name =>
    have hlen := toNat_lengthByte h
    simp [Address.pushTo, parseAddress, ATYP_IPV4, ATYP_IPV6, ATYP_DOMAIN, hlen]

theorem addressSpan_pushTo {address : Address} (h : address.Fits) (p : Bytes) :
    addressSpan (address.pushTo ++ p) = some address.pushTo.length := by
  cases address with
  | ipv4 octets => simp [Address.pushTo, addressSpan]
  | ipv6 octets => simp [Address.pushTo, addressSpan, ATYP_IPV4, ATYP_IPV6]
  | domain name =>
    have hlen := toNat_lengthByte h
    simp [Address.pushTo, addressSpan, ATYP_IPV4, ATYP_IPV6, ATYP_DOMAIN, hlen]
    omega

/-- The address and port a parsed header reports: a Mux header carries neither,
and is read back with the fixed Mux domain and port 0. -/
def readDestination (command : UInt8) (address : Address) (port : UInt16) : Address × UInt16 :=
  if command = CMD_MUX then (.domain "v1.mux.cool", 0) else (address, port)

theorem parseDestination_request (command : UInt8) {address : Address} (h : address.Fits)
    (port : UInt16) (p : Bytes) :
    parseDestination (requestDestination command address port ++ p)
      = .ok (command, readDestination command address port) := by
  by_cases hmux : command = CMD_MUX
  · simp [requestDestination, parseDestination, readDestination, hmux]
  · have hport : UInt16.ofNat (ofBE (toBE 2 port.toNat)) = port := by
      rw [ofBE_toBE_of_lt (by simpa using port.toNat_lt), UInt16.ofNat_toNat]
    have hlen : ¬ (toBE 2 port.toNat ++ (address.pushTo ++ p)).length < 2 := by
      simp only [List.length_append, length_toBE]; omega
    have htake : (toBE 2 port.toNat ++ (address.pushTo ++ p)).take 2 = toBE 2 port.toNat :=
      List.take_left' (by simp)
    have hdrop : (toBE 2 port.toNat ++ (address.pushTo ++ p)).drop 2 = address.pushTo ++ p :=
      List.drop_left' (by simp)
    rw [requestDestination, if_pos hmux, List.cons_append, List.append_assoc, parseDestination,
      if_neg hmux, if_neg hlen, hdrop, parseAddress_pushTo h, htake, readDestination, if_neg hmux,
      hport]

theorem destinationSpan_request (command : UInt8) {address : Address} (h : address.Fits)
    (port : UInt16) (p : Bytes) :
    destinationSpan (requestDestination command address port ++ p)
      = some (requestDestination command address port).length := by
  by_cases hmux : command = CMD_MUX
  · simp [requestDestination, destinationSpan, hmux]
  · have hdrop : (toBE 2 port.toNat ++ (address.pushTo ++ p)).drop 2 = address.pushTo ++ p :=
      List.drop_left' (by simp)
    simp [requestDestination, destinationSpan, hmux, hdrop, addressSpan_pushTo h]
    omega

/-! ## Round trip -/

/-- The built header, cut into the parts the readers see. -/
theorem requestHeader_parts (uuid : Uuid) (flow : Option String) (command : UInt8)
    (address : Address) (port : UInt16) (p : Bytes) :
    requestHeader uuid flow command address port ++ p
      = headerPrefix VERSION uuid (encodeVarint (addonsBody flow).length) (addonsBody flow)
        ++ (requestDestination command address port ++ p) := by
  simp [requestHeader, requestAddons_eq, headerPrefix]

section RoundTrip

variable (t : Target) (uuid : Uuid) {flow : Option String} (command : UInt8) {address : Address}
  (port : UInt16) (p : Bytes)

theorem length_encodeVarint_le {v : ℕ} (h : v < 128 * 128) : (encodeVarint v).length ≤ 2 := by
  by_cases h1 : v < 128
  · rw [encodeVarint_of_lt h1]
    simp
  · rw [encodeVarint_of_le (by omega), encodeVarint_of_lt (by omega)]
    simp

/-- A built header is short. -/
theorem length_requestHeader_le (hflow : ∀ f, flow = some f → (utf8 f).length ≤ 255)
    (haddr : address.Fits) : (requestHeader uuid flow command address port).length ≤ 537 := by
  have hsub := length_addonsBody_le hflow
  have henc := length_encodeVarint_le (v := (addonsBody flow).length) (by omega)
  have hpush : address.pushTo.length ≤ 257 := by
    cases address with
    | ipv4 octets => simp [Address.pushTo]
    | ipv6 octets => simp [Address.pushTo]
    | domain name =>
      have hname : (utf8 name).length ≤ 255 := haddr
      simp only [Address.pushTo, List.length_cons]
      omega
  have hdest : (requestDestination command address port).length ≤ 260 := by
    rw [requestDestination]
    split_ifs
    · simp only [List.length_cons, List.length_append, length_toBE]
      omega
    · simp
  have hlen := congrArg List.length (requestHeader_parts uuid flow command address port [])
  simp only [List.append_nil, List.length_append, length_headerPrefix] at hlen
  omega

/-- The request a header for these values is read back as. -/
def readBack (uuid : Uuid) (flow : Option String) (command : UInt8) (address : Address)
    (port : UInt16) : ParsedRequest where
  uuid := uuid
  flow := readFlow flow
  command := command
  address := (readDestination command address port).1
  port := (readDestination command address port).2

theorem decodeVarint_addons (hflow : ∀ f, flow = some f → (utf8 f).length ≤ 255) (r : Bytes) :
    Build.checked.decodeVarint t (encodeVarint (addonsBody flow).length ++ r)
      = .ok ((addonsBody flow).length, (encodeVarint (addonsBody flow).length).length) := by
  have hsub := length_addonsBody_le hflow
  exact decodeVarint_encodeVarint t (t.lt_of_lt_32 (by omega)) r

theorem requestHeaderLen_requestHeader (hflow : ∀ f, flow = some f → (utf8 f).length ≤ 255)
    (haddr : address.Fits) :
    requestHeaderLen t (requestHeader uuid flow command address port ++ p)
      = .ok (requestHeader uuid flow command address port).length := by
  have hsub := length_addonsBody_le hflow
  have hbits : 2 ^ 32 ≤ 2 ^ t.bits := Nat.pow_le_pow_right (by decide) t.le_bits
  have henc := length_encodeVarint_le (v := (addonsBody flow).length) (by omega)
  have hlen := congrArg List.length (requestHeader_parts uuid flow command address port [])
  rw [requestHeader_parts, requestHeaderLen, Build.requestHeaderLen_parts
    (decodeVarint_addons t hflow) (by omega),
    destinationSpan_request command haddr]
  simp only [List.append_nil, List.length_append, length_headerPrefix] at hlen
  rw [endAt, hlen]

theorem parseRequestHeader_requestHeader (hflow : ∀ f, flow = some f → (utf8 f).length ≤ 255)
    (haddr : address.Fits) :
    parseRequestHeader t (requestHeader uuid flow command address port ++ p)
      = .ok (readBack uuid flow command address port) := by
  have hsub := length_addonsBody_le hflow
  have hbits : 2 ^ 32 ≤ 2 ^ t.bits := Nat.pow_le_pow_right (by decide) t.le_bits
  have henc := length_encodeVarint_le (v := (addonsBody flow).length) (by omega)
  have hpos := encodeVarint_length_pos (addonsBody flow).length
  have hbody := length_addonsBody_pos flow
  have hdest : 0 < (requestDestination command address port).length := by
    simp [requestDestination]
  rw [requestHeader_parts, parseRequestHeader, Build.parseRequestHeader_parts
    (decodeVarint_addons t hflow) (by omega)
    (by simp only [List.length_append]; omega), readParts, parseFlow_addonsBody hflow,
    parseDestination_request command haddr]
  rfl

/-- **The request header round trip.**  For a flow and a domain whose length
bytes do not wrap, the length reader finds the end of the built header whatever
follows it, and the parser reads the request back, with or without the bytes
that follow. -/
theorem request_header_round_trip (hflow : ∀ f, flow = some f → (utf8 f).length ≤ 255)
    (haddr : address.Fits) :
    ∃ h, buildRequestHeader uuid flow command address port = .ok h ∧
      requestHeaderLen t (h ++ p) = .ok h.length ∧
      parseRequestHeader t (h ++ p) = .ok (readBack uuid flow command address port) ∧
      parseRequestHeader t h = .ok (readBack uuid flow command address port) := by
  refine ⟨_, rfl,
    requestHeaderLen_requestHeader t uuid command port p hflow haddr,
    parseRequestHeader_requestHeader t uuid command port p hflow haddr, ?_⟩
  have h := parseRequestHeader_requestHeader t uuid command port [] hflow haddr
  rwa [List.append_nil] at h

end RoundTrip

theorem request_header_round_trip_domain :
    ∃ h, buildRequestHeader (List.Vector.replicate 16 7) (some "xtls-rprx-vision") CMD_TCP
        (.domain "example.com") 443 = .ok h ∧
      requestHeaderLen .aarch64 (h ++ [1, 2, 3]) = .ok h.length ∧
      parseRequestHeader .aarch64 (h ++ [1, 2, 3])
        = .ok (readBack (List.Vector.replicate 16 7) (some "xtls-rprx-vision") CMD_TCP
          (.domain "example.com") 443) ∧
      parseRequestHeader .aarch64 h
        = .ok (readBack (List.Vector.replicate 16 7) (some "xtls-rprx-vision") CMD_TCP
          (.domain "example.com") 443) :=
  request_header_round_trip .aarch64 (List.Vector.replicate 16 7) CMD_TCP 443 [1, 2, 3]
    (by rintro f ⟨⟩; decide) (by show (utf8 "example.com").length ≤ 255; decide)

end ShadeVpn.Vless
