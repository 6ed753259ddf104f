import ShadeVpn.Lib.Asn1
import ShadeVpn.Tls13.CertificateSafety
import ShadeVpn.Tls13.ServerFlight

/-!
# What the certificate parsers make of an encoding

A Certificate message, an X.509 certificate and an RSA key, each as a structure with its
encoding, and the parser that reads it back:

* `parse_encode` — the chain comes out of the message;
* `parseCertSpki_encode` — the SubjectPublicKeyInfo comes out of the certificate, with or
  without a version;
* `parseRsaSpki_encode` — modulus and exponent come out of the SubjectPublicKeyInfo.

The last two follow one cursor: at an encoded element `tlv` returns it and moves behind it
(`Der.At.tlv`).
-/

namespace ShadeVpn.Tls13

open Octets Checked Asn1

/-! ## The Certificate message -/

/-- An entry of the certificate list. -/
structure CertificateEntry where
  cert : Bytes
  extensions : Bytes
  cert_lt : cert.length < 2 ^ 24
  extensions_lt : extensions.length < 2 ^ 16

def CertificateEntry.encode (e : CertificateEntry) : Bytes :=
  toBE 3 e.cert.length ++ e.cert ++ toBE 2 e.extensions.length ++ e.extensions

/-- The bytes of a certificate list. -/
def encodeEntries (entries : List CertificateEntry) : Bytes :=
  entries.flatMap CertificateEntry.encode

/-- A Certificate message. -/
structure CertificateMessage where
  context : Bytes
  entries : List CertificateEntry
  context_lt : context.length < 2 ^ 8
  entries_lt : (encodeEntries entries).length < 2 ^ 24

namespace CertificateMessage

def encode (m : CertificateMessage) : Bytes :=
  toBE 1 m.context.length ++ m.context ++ toBE 3 (encodeEntries m.entries).length ++
    encodeEntries m.entries

/-- The certificates. -/
def chain (m : CertificateMessage) : List Bytes := m.entries.map CertificateEntry.cert

end CertificateMessage

theorem certificateEntry_encode (e : CertificateEntry) (rest : Bytes) :
    certificateEntry (e.encode ++ rest) = .ok (e.cert, rest) := by
  have hcert : e.cert.length < 256 ^ 3 := lt_of_lt_of_eq e.cert_lt (by norm_num)
  have hext : e.extensions.length < 256 ^ 2 := lt_of_lt_of_eq e.extensions_lt (by norm_num)
  rw [certificateEntry, CertificateEntry.encode, List.append_assoc, List.append_assoc,
    List.append_assoc]
  refine Cursor.bind_eq_ok.2 ⟨_, Cursor.number_toBE_append hcert _, ?_⟩
  refine Cursor.bind_eq_ok.2 ⟨_, Cursor.take_append rfl _, ?_⟩
  refine Cursor.bind_eq_ok.2 ⟨_, Cursor.number_toBE_append hext _, ?_⟩
  exact Cursor.bind_eq_ok.2 ⟨_, Cursor.take_append rfl _, rfl⟩

theorem certificateEntries_encode (entries : List CertificateEntry) :
    certificateEntries (encodeEntries entries) = .ok (entries.map CertificateEntry.cert) := by
  induction entries with
  | nil => rw [encodeEntries, List.flatMap_nil, certificateEntries, if_pos rfl, List.map_nil]
  | cons e entries ih =>
    rw [encodeEntries, List.flatMap_cons, certificateEntries_of_ok (certificateEntry_encode e _)]
    rw [encodeEntries] at ih
    rw [ih]
    rfl

/-- **The chain comes out of the message.** -/
theorem CertificateMessage.parse_encode (m : CertificateMessage) :
    parseCertificateEntryBodies m.encode = .ok m.chain := by
  have hcontext : m.context.length < 256 ^ 1 := lt_of_lt_of_eq m.context_lt (by norm_num)
  have hentries : (encodeEntries m.entries).length < 256 ^ 3 :=
    lt_of_lt_of_eq m.entries_lt (by norm_num)
  have hlist : Reader.take (encodeEntries m.entries).length (encodeEntries m.entries) =
      .ok (encodeEntries m.entries, []) := by
    have htake := @Cursor.take_append _ _ (Stop.err Tls13Error.truncated) _
      (encodeEntries m.entries) rfl []
    rwa [List.append_nil] at htake
  rw [parseCertificateEntryBodies, encode, List.append_assoc, List.append_assoc]
  refine Cursor.bind_eq_ok.2 ⟨_, Cursor.number_toBE_append hcontext _, ?_⟩
  refine Cursor.bind_eq_ok.2 ⟨_, Cursor.take_append rfl _, ?_⟩
  refine Cursor.bind_eq_ok.2 ⟨_, Cursor.number_toBE_append hentries _, ?_⟩
  exact Cursor.bind_eq_ok.2 ⟨_, hlist, certificateEntries_encode m.entries⟩

/-! ## A cursor at an element -/

/-- The cursor stands at these bytes. -/
structure Der.At (d : Der) (bytes : Bytes) : Prop where
  pos_le : d.pos ≤ d.buf.length
  drop_pos : d.buf.drop d.pos = bytes
  buf_lt : d.buf.length < 2 ^ 63

/-- The header at a cursor, read off the bytes that it stands at. -/
theorem Der.header_eq (before more : Bytes) (tag first : UInt8) :
    Der.header ⟨before ++ tag :: first :: more, before.length⟩ =
      let n := first.toNat &&& 0x7f
      if first.toNat > 0x80 then
        if n = 0 ∨ n > 4 ∨ n > more.length then none
        else some (tag, before.length + 2 + n, ofBE (more.take n))
      else some (tag, before.length + 2, first.toNat) := by
  have hdrop : (before ++ tag :: first :: more).drop (before.length + 2) = more := by
    rw [← List.drop_drop, List.drop_left]
    rfl
  have hpast : ∀ n, before.length + (more.length + 1 + 1) < before.length + 2 + n ↔
      more.length < n := by
    intro n
    omega
  rw [Der.header, dif_pos (by simp)]
  simp [hdrop, hpast]

namespace Der.At

variable {d : Der} {tag : UInt8} {contents rest : Bytes}

theorem start {bytes : Bytes} (h : bytes.length < 2 ^ 63) : Der.At ⟨bytes, 0⟩ bytes :=
  ⟨Nat.zero_le _, rfl, h⟩

theorem of_eq {bytes bytes' : Bytes} (h : d.At bytes) (heq : bytes = bytes') : d.At bytes' :=
  heq ▸ h

/-- The bytes at the cursor are those behind its position. -/
theorem exists_eq {bytes : Bytes} (h : d.At bytes) :
    ∃ before, before.length = d.pos ∧ d.buf = before ++ bytes :=
  ⟨d.buf.take d.pos, by rw [List.length_take]; exact Nat.min_eq_left h.pos_le, by
    rw [← h.drop_pos, List.take_append_drop]⟩

/-- The header of an element, in short form or in long form. -/
theorem header (h : d.At (element tag contents ++ rest)) (hlen : contents.length < 2 ^ 32) :
    d.header = some (tag, d.pos + (1 + (lengthOctets contents.length).length),
      contents.length) := by
  obtain ⟨before, hpos, hbuf⟩ := h.exists_eq
  obtain ⟨buf, pos⟩ := d
  dsimp only at hpos hbuf
  subst hpos hbuf
  rw [element, lengthOctets]
  split_ifs with hshort
  · have hfirst : (UInt8.ofNat contents.length).toNat = contents.length := by
      rw [UInt8.toNat_ofNat', Nat.mod_eq_of_lt (by omega)]
    rw [List.cons_append, List.append_assoc, List.singleton_append, header_eq, hfirst,
      if_neg (by omega)]
    simp
  · have hwidth : width contents.length ≤ 4 :=
      width_le (by decide) (lt_of_lt_of_eq hlen (by norm_num))
    have hpos : 0 < width contents.length := Nat.succ_pos _
    have hfirst : (UInt8.ofNat (128 + width contents.length)).toNat =
        128 + width contents.length := by
      rw [UInt8.toNat_ofNat', Nat.mod_eq_of_lt (by omega)]
    have hcount : (128 + width contents.length) &&& 0x7f = width contents.length := by
      rw [show 0x7f = 2 ^ 7 - 1 from rfl, Nat.and_two_pow_sub_one_eq_mod]
      omega
    rw [List.cons_append, List.append_assoc, List.cons_append, header_eq, hfirst, hcount,
      if_pos (by omega), if_neg (by simp; omega),
      List.take_left' (length_toBE _ _), ofBE_toBE_of_lt (lt_pow_width _)]
    simp
    omega

/-- **`tlv` returns the element at the cursor** and moves behind it. -/
theorem tlv (h : d.At (element tag contents ++ rest)) (hlen : contents.length < 2 ^ 32) :
    ∃ d', d.tlv .aarch64 = .ok (tag, contents, d') ∧ d'.At rest ∧
      (d.buf.take d'.pos).drop d.pos = element tag contents ∧ d.pos ≤ d'.pos ∧
      d'.pos ≤ d.buf.length := by
  obtain ⟨before, hpos, hbuf⟩ := h.exists_eq
  have hheader := h.header hlen
  have hsize : (element tag contents).length =
      1 + (lengthOctets contents.length).length + contents.length := by
    rw [element, List.length_cons, List.length_append]
    omega
  have htotal := congrArg List.length hbuf
  rw [List.length_append, List.length_append, hsize, hpos] at htotal
  refine ⟨⟨d.buf, d.pos + (element tag contents).length⟩, ?_, ⟨?_, ?_, h.buf_lt⟩, ?_, ?_, ?_⟩
  · have hskip : d.buf.drop (d.pos + (1 + (lengthOctets contents.length).length)) =
        contents ++ rest := by
      rw [← List.drop_drop, h.drop_pos, element, List.cons_append, Nat.add_comm 1,
        List.drop_succ_cons, List.append_assoc, List.drop_left]
    rw [Der.tlv_eq_value (Der.fits_aarch64 h.buf_lt), Der.value, hheader]
    dsimp only
    rw [if_neg (by omega), hskip, List.take_left, hsize, Nat.add_assoc]
  · dsimp only
    omega
  · dsimp only
    rw [← List.drop_drop, h.drop_pos, List.drop_left]
  · dsimp only
    rw [List.drop_take, Nat.add_sub_cancel_left, h.drop_pos, List.take_left]
  · exact Nat.le_add_right _ _
  · dsimp only
    omega

/-! Programs that read elements, on 64 bits. -/

theorem run_tlv (h : d.At (element tag contents ++ rest)) (hlen : contents.length < 2 ^ 32) :
    ∃ d', (Tls13.tlv d).run (Der.tlv .aarch64) = .ok (tag, contents, d') ∧ d'.At rest := by
  obtain ⟨d', htlv, hat, -⟩ := h.tlv hlen
  exact ⟨d', (Query.Prog.run_call _ d).trans htlv, hat⟩

theorem run_expect (h : d.At (element tag contents ++ rest)) (hlen : contents.length < 2 ^ 32) :
    ∃ d', (expect tag d).run (Der.tlv .aarch64) = .ok (contents, d') ∧ d'.At rest := by
  obtain ⟨d', htlv, hat⟩ := h.run_tlv hlen
  refine ⟨d', Query.Prog.run_bind_of_ok htlv ?_, hat⟩
  dsimp only
  rw [if_neg (not_not.2 rfl)]
  rfl

/-- At the last element of a buffer. -/
theorem run_expect_last (h : d.At (element tag contents)) (hlen : contents.length < 2 ^ 32) :
    ∃ d', (expect tag d).run (Der.tlv .aarch64) = .ok (contents, d') := by
  obtain ⟨d', hexpect, -⟩ := (h.of_eq (List.append_nil _).symm).run_expect hlen
  exact ⟨d', hexpect⟩

theorem run_tlvFull (h : d.At (element tag contents ++ rest)) (hlen : contents.length < 2 ^ 32) :
    ∃ d', (tlvFull d).run (Der.tlv .aarch64) = .ok (tag, element tag contents, d') := by
  obtain ⟨d', htlv, -, hbytes, hle, hend⟩ := h.tlv hlen
  refine ⟨d', Query.Prog.run_bind_of_ok ((Query.Prog.run_call _ d).trans htlv) ?_⟩
  dsimp only
  rw [slice_eq_ok hle hend, hbytes]
  rfl

theorem run_skipSequences {xs : List Bytes} (h : d.At (xs.flatMap (element 0x30) ++ rest))
    (hlen : ∀ x ∈ xs, x.length < 2 ^ 32) :
    ∃ d', (skipSequences xs.length d).run (Der.tlv .aarch64) = .ok d' ∧ d'.At rest := by
  induction xs generalizing d with
  | nil => exact ⟨d, rfl, h⟩
  | cons x xs ih =>
    rw [List.forall_mem_cons] at hlen
    rw [List.flatMap_cons, List.append_assoc] at h
    obtain ⟨d₁, hexpect, hat⟩ := h.run_expect hlen.1
    obtain ⟨d', hskip, hat'⟩ := ih hat hlen.2
    exact ⟨d', Query.Prog.run_bind_of_ok hexpect hskip, hat'⟩

/-- A cursor at the start of an element. -/
theorem start_element (tag : UInt8) (hlen : contents.length < 2 ^ 32) :
    Der.At ⟨element tag contents, 0⟩ (element tag contents) := by
  have hle := length_element_le tag (lt_of_lt_of_eq hlen (by norm_num : 2 ^ 32 = 256 ^ 4))
  exact start (by omega)

end Der.At

/-! ## Certificates -/

/-- The fields of a tbsCertificate: the contents of each element, and the bytes behind the
SubjectPublicKeyInfo. -/
structure TbsCertificate where
  version : Option Bytes
  serialNumber : Bytes
  signature : Bytes
  issuer : Bytes
  validity : Bytes
  subject : Bytes
  subjectPublicKeyInfo : Bytes
  further : Bytes

namespace TbsCertificate

/-- The four SEQUENCEs between the serial number and the SubjectPublicKeyInfo. -/
def sequences (tbs : TbsCertificate) : List Bytes :=
  [tbs.signature, tbs.issuer, tbs.validity, tbs.subject]

/-- The elements from the serial number on. -/
def encodeSerial (tbs : TbsCertificate) : Bytes :=
  element 0x02 tbs.serialNumber ++ (tbs.sequences.flatMap (element 0x30) ++
    (element 0x30 tbs.subjectPublicKeyInfo ++ tbs.further))

def encode (tbs : TbsCertificate) : Bytes :=
  tbs.version.elim [] (element 0xa0) ++ tbs.encodeSerial

end TbsCertificate

/-- A certificate: the tbsCertificate and the bytes behind it. -/
structure Certificate where
  tbs : TbsCertificate
  further : Bytes
  contents_lt : (element 0x30 tbs.encode ++ further).length < 2 ^ 32

def Certificate.encode (c : Certificate) : Bytes :=
  element 0x30 (element 0x30 c.tbs.encode ++ c.further)

/-- The elements of a tbsCertificate are shorter than it is. -/
theorem TbsCertificate.length_le {tbs : TbsCertificate} {B : ℕ} (h : tbs.encode.length < B) :
    (∀ v ∈ tbs.version, v.length < B) ∧ tbs.serialNumber.length < B ∧
      (∀ x ∈ tbs.sequences, x.length < B) ∧ tbs.subjectPublicKeyInfo.length < B := by
  have hseq : ∀ x ∈ tbs.sequences, (element 0x30 x).length ≤
      (tbs.sequences.flatMap (element 0x30)).length := by
    intro x hx
    rw [List.length_flatMap]
    exact List.single_le_sum (fun _ _ => Nat.zero_le _) _ (List.mem_map_of_mem hx)
  have hserial := length_lt_element 0x02 tbs.serialNumber
  have hspki := length_lt_element 0x30 tbs.subjectPublicKeyInfo
  rw [encode, encodeSerial, List.length_append, List.length_append, List.length_append,
    List.length_append] at h
  refine ⟨?_, by omega, ?_, by omega⟩
  · intro v hv
    have hversion := length_lt_element 0xa0 v
    rw [Option.mem_def.1 hv, Option.elim_some] at h
    omega
  · intro x hx
    have hx' := length_lt_element 0x30 x
    have := hseq x hx
    omega

open Query.Prog

/-- With or without a version, the cursor is at the serial number next. -/
theorem TbsCertificate.run_version {tbs : TbsCertificate} (h : tbs.encode.length < 2 ^ 32) :
    ∃ tag contents d', (tlv ⟨tbs.encode, 0⟩).run (Der.tlv .aarch64) = .ok (tag, contents, d') ∧
      (if tag = 0xa0 then d' else ⟨tbs.encode, 0⟩).At tbs.encodeSerial := by
  obtain ⟨hversion, hserial, -⟩ := length_le h
  have hat : Der.At ⟨tbs.encode, 0⟩ tbs.encode := .start (by omega)
  cases hv : tbs.version with
  | none =>
    have hencode : tbs.encode = tbs.encodeSerial := by
      rw [encode, hv, Option.elim_none, List.nil_append]
    have hfront : Der.At ⟨tbs.encode, 0⟩ tbs.encodeSerial := hat.of_eq hencode
    obtain ⟨d', htlv, -⟩ := hfront.run_tlv hserial
    exact ⟨0x02, tbs.serialNumber, d', htlv, by rwa [if_neg (by decide)]⟩
  | some v =>
    have hencode : tbs.encode = element 0xa0 v ++ tbs.encodeSerial := by
      rw [encode, hv, Option.elim_some]
    obtain ⟨d', htlv, hat'⟩ := (hat.of_eq hencode).run_tlv (hversion v hv)
    exact ⟨0xa0, v, d', htlv, by rwa [if_pos rfl]⟩

/-- **The SubjectPublicKeyInfo comes out of the certificate**, as a whole element. -/
theorem Certificate.parseCertSpki_encode (c : Certificate) :
    (parseCertSpki c.encode).run (Der.tlv .aarch64) =
      .ok (element 0x30 c.tbs.subjectPublicKeyInfo) := by
  have hcontents := c.contents_lt
  have htbs : c.tbs.encode.length < 2 ^ 32 := by
    have := length_lt_element 0x30 c.tbs.encode
    rw [List.length_append] at hcontents
    omega
  obtain ⟨-, hserial, hseq, hspki⟩ := TbsCertificate.length_le htbs
  have hstart : Der.At ⟨element 0x30 c.tbs.encode ++ c.further, 0⟩
      (element 0x30 c.tbs.encode ++ c.further) := .start (by omega)
  obtain ⟨d₁, hcert⟩ := (Der.At.start_element 0x30 hcontents).run_expect_last hcontents
  obtain ⟨d₂, hinner, -⟩ := hstart.run_expect htbs
  obtain ⟨tag, contents, d₃, hversion, hat₃⟩ := TbsCertificate.run_version htbs
  obtain ⟨d₄, hserialRun, hat₄⟩ := hat₃.run_expect hserial
  obtain ⟨d₅, hskip, hat₅⟩ := hat₄.run_skipSequences hseq
  obtain ⟨d₆, hfull⟩ := hat₅.run_tlvFull hspki
  refine run_bind_of_ok hcert ?_
  refine run_bind_of_ok hinner ?_
  refine run_bind_of_ok hversion ?_
  refine run_bind_of_ok hserialRun ?_
  refine run_bind_of_ok hskip ?_
  refine run_bind_of_ok hfull ?_
  dsimp only
  rw [if_neg (not_not.2 rfl)]
  rfl

/-! ## RSA keys -/

/-- The contents of the AlgorithmIdentifier of an RSA key. -/
def rsaAlgorithm (parameters : Bytes) : Bytes := element 0x06 RSA_ENCRYPTION ++ parameters

/-- The contents of an RSAPublicKey. -/
def rsaPublicKey (modulus exponent : ℕ) : Bytes :=
  element 0x02 (natural modulus) ++ element 0x02 (natural exponent)

/-- The contents of a SubjectPublicKeyInfo: the algorithm, and the key in a BIT STRING
without unused bits. -/
def rsaContents (parameters : Bytes) (modulus exponent : ℕ) : Bytes :=
  element 0x30 (rsaAlgorithm parameters) ++
    element 0x03 (0 :: element 0x30 (rsaPublicKey modulus exponent))

/-- The SubjectPublicKeyInfo of an RSA key. -/
structure RsaSpki where
  parameters : Bytes
  modulus : ℕ
  exponent : ℕ
  contents_lt : (rsaContents parameters modulus exponent).length < 2 ^ 32

namespace RsaSpki

def contents (key : RsaSpki) : Bytes := rsaContents key.parameters key.modulus key.exponent

def encode (key : RsaSpki) : Bytes := element 0x30 key.contents

end RsaSpki

/-- The elements of a SubjectPublicKeyInfo are shorter than it is. -/
theorem rsaContents_lt {parameters : Bytes} {modulus exponent B : ℕ}
    (h : (rsaContents parameters modulus exponent).length < B) :
    (rsaAlgorithm parameters).length < B ∧ RSA_ENCRYPTION.length < B ∧
      (0 :: element 0x30 (rsaPublicKey modulus exponent)).length < B ∧
      (rsaPublicKey modulus exponent).length < B ∧ (natural modulus).length < B ∧
      (natural exponent).length < B := by
  have halg := length_lt_element 0x30 (rsaAlgorithm parameters)
  have hoid := length_lt_element 0x06 RSA_ENCRYPTION
  have hbits := length_lt_element 0x03 (0 :: element 0x30 (rsaPublicKey modulus exponent))
  have hkey := length_lt_element 0x30 (rsaPublicKey modulus exponent)
  have hn := length_lt_element 0x02 (natural modulus)
  have he := length_lt_element 0x02 (natural exponent)
  rw [rsaContents, List.length_append] at h
  have halgLen : (rsaAlgorithm parameters).length =
      (element 0x06 RSA_ENCRYPTION).length + parameters.length := List.length_append
  have hkeyLen : (rsaPublicKey modulus exponent).length =
      (element 0x02 (natural modulus)).length + (element 0x02 (natural exponent)).length :=
    List.length_append
  rw [List.length_cons] at hbits ⊢
  omega

/-- The byte that keeps an INTEGER positive does not count. -/
theorem unsigned_eq_ok (n : Bytes) : ∃ m, unsigned n = .ok m ∧ ofBE m = ofBE n := by
  rw [unsigned]
  split_ifs with hhead
  · obtain ⟨m, rfl⟩ := List.head?_eq_some_iff.1 hhead
    refine ⟨m, ?_, by simp [ofBE_cons]⟩
    rw [slice_eq_ok (by simp) le_rfl, List.take_length]
    rfl
  · exact ⟨n, rfl, rfl⟩

/-- **Modulus and exponent come out of the SubjectPublicKeyInfo.** -/
theorem RsaSpki.parseRsaSpki_encode (key : RsaSpki) :
    (parseRsaSpki key.encode).run (Der.tlv .aarch64) = .ok (key.modulus, key.exponent) := by
  have hcontents := key.contents_lt
  obtain ⟨halg, hoid, hbits, hkey, hn, he⟩ := rsaContents_lt hcontents
  have hstart : Der.At ⟨key.contents, 0⟩ key.contents := .start (hcontents.trans (by norm_num))
  have hstartAlg : Der.At ⟨rsaAlgorithm key.parameters, 0⟩ (rsaAlgorithm key.parameters) :=
    .start (halg.trans (by norm_num))
  have hstartKey : Der.At ⟨rsaPublicKey key.modulus key.exponent, 0⟩
      (rsaPublicKey key.modulus key.exponent) := .start (hkey.trans (by norm_num))
  obtain ⟨d₁, hspkiRun⟩ := (Der.At.start_element 0x30 hcontents).run_expect_last hcontents
  obtain ⟨d₂, halgRun, hat₂⟩ := hstart.run_expect halg
  obtain ⟨d₃, hbitsRun⟩ := hat₂.run_expect_last hbits
  obtain ⟨d₄, hoidRun, -⟩ := hstartAlg.run_expect hoid
  obtain ⟨d₅, hkeyRun⟩ := (Der.At.start_element 0x30 hkey).run_expect_last hkey
  obtain ⟨d₆, hnRun, hat₆⟩ := hstartKey.run_expect hn
  obtain ⟨d₇, heRun⟩ := hat₆.run_expect_last he
  obtain ⟨n, hnUnsigned, hnValue⟩ := unsigned_eq_ok (natural key.modulus)
  obtain ⟨e, heUnsigned, heValue⟩ := unsigned_eq_ok (natural key.exponent)
  refine run_bind_of_ok hspkiRun ?_
  refine run_bind_of_ok halgRun ?_
  refine run_bind_of_ok hbitsRun ?_
  dsimp only
  rw [List.head?_cons, if_neg (not_not.2 rfl)]
  refine run_bind_of_ok hoidRun ?_
  dsimp only
  rw [if_neg (not_not.2 rfl), slice_eq_ok (by simp) le_rfl, List.take_length]
  refine run_bind_of_ok rfl ?_
  refine run_bind_of_ok hkeyRun ?_
  refine run_bind_of_ok hnRun ?_
  refine run_bind_of_ok heRun ?_
  dsimp only
  rw [hnUnsigned, heUnsigned]
  refine run_bind_of_ok rfl (run_bind_of_ok rfl ?_)
  rw [hnValue, heValue, ofBE_natural, ofBE_natural]
  rfl

/-- Together: the RSA key comes out of a leaf that holds it. -/
theorem Certificate.parseLeafKey_encode {c : Certificate} {key : RsaSpki}
    (h : c.tbs.subjectPublicKeyInfo = key.contents) :
    (parseLeafKey c.encode).run (Der.tlv .aarch64) = .ok (key.modulus, key.exponent) := by
  refine run_bind_of_ok c.parseCertSpki_encode ?_
  rw [h]
  exact key.parseRsaSpki_encode

/-- **The certificate pipeline recovers the key**: the chain from the message, the
SubjectPublicKeyInfo from a certificate, and modulus and exponent from one for RSA, so
also from a leaf that holds it. -/
theorem certificatePipeline :
    (∀ m : CertificateMessage, parseCertificateEntryBodies m.encode = .ok m.chain) ∧
    (∀ c : Certificate, (parseCertSpki c.encode).run (Der.tlv .aarch64) =
      .ok (element 0x30 c.tbs.subjectPublicKeyInfo)) ∧
    (∀ key : RsaSpki, (parseRsaSpki key.encode).run (Der.tlv .aarch64) =
      .ok (key.modulus, key.exponent)) ∧
    ∀ (c : Certificate) (key : RsaSpki), c.tbs.subjectPublicKeyInfo = key.contents →
      (parseLeafKey c.encode).run (Der.tlv .aarch64) = .ok (key.modulus, key.exponent) :=
  ⟨CertificateMessage.parse_encode, Certificate.parseCertSpki_encode,
    RsaSpki.parseRsaSpki_encode, fun _ _ h => Certificate.parseLeafKey_encode h⟩

/-- The key of the sample leaf. -/
def sampleKey : RsaSpki := ⟨[], 33, 3, by decide +kernel⟩

/-- The sample leaf, without a version. -/
def sampleCertificateDer : Certificate where
  tbs := ⟨none, [1], [], [], [], [], sampleKey.contents, []⟩
  further := []
  contents_lt := by decide +kernel

theorem certificatePipeline_sampleLeaf : sampleCertificateDer.encode = sampleLeaf ∧
    (parseLeafKey sampleCertificateDer.encode).run (Der.tlv .aarch64) = .ok (33, 3) :=
  ⟨by decide +kernel, certificatePipeline.2.2.2 sampleCertificateDer sampleKey rfl⟩

/-- Contents of 127 and of 128 octets, on the two sides of the short form. -/
example : lengthOctets 127 = [127] ∧ lengthOctets 128 = [0x81, 128] ∧
    lengthOctets 256 = [0x82, 1, 0] := by
  decide +kernel

end ShadeVpn.Tls13
