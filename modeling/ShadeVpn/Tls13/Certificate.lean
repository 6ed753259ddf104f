import ShadeVpn.Lib.Query
import ShadeVpn.Lib.Cursor

/-!
# Certificates

The Certificate message, the DER walker and the two key parsers of
`native/src/tls13.rs`.

Sums of buffer positions, of fields of at most three bytes and of small constants
fit `usize` on both targets: a buffer has at most `isize::MAX` bytes.  A DER length
of four bytes is another matter (`Der.tlv`), so the key parsers are written over
`tlv` as their primitive.
-/

namespace ShadeVpn.Tls13

open Octets Checked

/-! ## Errors -/

/-- `Tls13Error`. -/
inductive Tls13Error where
  | truncated
  | badRecord
  | badHandshake
  | noKeyShare
  | badCipherSuite
  | decryptFailed
  | finishedMismatch
  | certVerifyRejected
  | badScheme
  | unexpectedRecord
  deriving DecidableEq, Repr

/-! ## The Certificate message -/

namespace Reader

/-- `Reader::take`, on the bytes that are left. -/
abbrev take (n : ℕ) (r : Bytes) : Except (Stop Tls13Error) (Bytes × Bytes) :=
  Cursor.take (.err .truncated) n r

/-- `Reader::u8`. -/
abbrev u8 (r : Bytes) : Except (Stop Tls13Error) (ℕ × Bytes) :=
  Cursor.number (.err .truncated) 1 r

/-- `Reader::u16`. -/
abbrev u16 (r : Bytes) : Except (Stop Tls13Error) (ℕ × Bytes) :=
  Cursor.number (.err .truncated) 2 r

/-- `Reader::u24`. -/
abbrev u24 (r : Bytes) : Except (Stop Tls13Error) (ℕ × Bytes) :=
  Cursor.number (.err .truncated) 3 r

end Reader

open Reader

/-- One turn of the loop over the certificate list: the certificate, and what follows it. -/
def certificateEntry (lr : Bytes) : Except (Stop Tls13Error) (Bytes × Bytes) := do
  let (certLen, lr) ← u24 lr
  let (cert, lr) ← take certLen lr
  let (extLen, lr) ← u16 lr
  let (_, lr) ← take extLen lr
  .ok (cert, lr)

/-- An entry is not empty. -/
theorem certificateEntry_lt {lr cert rest : Bytes} (h : certificateEntry lr = .ok (cert, rest)) :
    rest.length < lr.length := by
  simp only [certificateEntry, Cursor.bind_eq_ok, Prod.exists] at h
  obtain ⟨certLen, r₁, hcertLen, cert', r₂, hcert, extLen, r₃, hextLen, exts, r₄, hexts, h⟩ := h
  cases h
  have h₁ := (Cursor.number_eq_ok hcertLen).1
  have h₂ := congrArg List.length (Cursor.take_eq_ok hcert).1
  have h₃ := (Cursor.number_eq_ok hextLen).1
  have h₄ := congrArg List.length (Cursor.take_eq_ok hexts).1
  rw [List.length_append] at h₂ h₄
  omega

/-- The loop over the certificate list. -/
def certificateEntries (lr : Bytes) : Except (Stop Tls13Error) (List Bytes) :=
  if lr = [] then .ok []
  else
    match h : certificateEntry lr with
    | .error e => .error e
    | .ok (cert, rest) =>
      have := certificateEntry_lt h
      (certificateEntries rest).map (cert :: ·)
termination_by lr.length

theorem certificateEntries_of_ok {lr cert rest : Bytes}
    (h : certificateEntry lr = .ok (cert, rest)) :
    certificateEntries lr = (certificateEntries rest).map (cert :: ·) := by
  have hne : lr ≠ [] := by
    rintro rfl
    exact absurd (certificateEntry_lt h) (Nat.not_lt_zero _)
  rw [certificateEntries, if_neg hne]
  split
  · next he => rw [h] at he; cases he
  · next hok =>
    cases h.symm.trans hok
    rfl

/-- `parse_certificate_entry_bodies`. -/
def parseCertificateEntryBodies (body : Bytes) : Except (Stop Tls13Error) (List Bytes) := do
  let (ctxLen, r) ← u8 body
  let (_, r) ← take ctxLen r
  let (listLen, r) ← u24 r
  let (list, _) ← take listLen r
  certificateEntries list

/-! ## DER -/

/-- `Der`. -/
structure Der where
  buf : Bytes
  pos : ℕ

/-- `Der::tlv`; `None` is `.err ()`.  Where the sum with a four-byte length leaves
`usize`, a build without overflow checks wraps to a bound below the start of the
slice, and the slice faults. -/
def Der.tlv (t : Target) (d : Der) : Except (Stop Unit) (UInt8 × Bytes × Der) :=
  if d.pos + 2 > d.buf.length then .error (.err ())
  else do
    let tag ← index d.buf d.pos
    let first ← index d.buf (d.pos + 1)
    let len := first.toNat
    let p := d.pos + 2
    if len > 0x80 then
      let n := len &&& 0x7f
      if n = 0 ∨ n > 4 ∨ p + n > d.buf.length then .error (.err ())
      else
        let length ← slice d.buf p (p + n)
        let l := ofBE length
        let p := p + n
        let stop ← add t p l
        if stop > d.buf.length then .error (.err ())
        else
          let content ← slice d.buf p stop
          .ok (tag, content, { d with pos := stop })
    else if p + len > d.buf.length then .error (.err ())
    else
      let content ← slice d.buf p (p + len)
      .ok (tag, content, { d with pos := p + len })

/-- A program over `tlv`. -/
abbrev DerProg := Query.Prog Der (UInt8 × Bytes × Der) Unit

/-- The call of `Der::tlv`. -/
def tlv (d : Der) : DerProg (UInt8 × Bytes × Der) := Query.Prog.call d

/-- `None`. -/
def notFound {α : Type} : DerProg α := .done (.error (.err ()))

/-- `Der::tlv_full`. -/
def tlvFull (d : Der) : DerProg (UInt8 × Bytes × Der) := do
  let (tag, _, d') ← tlv d
  let full ← (slice d.buf d.pos d'.pos : Except (Stop Unit) Bytes)
  pure (tag, full, d')

/-- A `tlv` with the tag it is to have. -/
def expect (tag : UInt8) (d : Der) : DerProg (Bytes × Der) := do
  let (found, content, d') ← tlv d
  if found ≠ tag then notFound else pure (content, d')

/-- The loop over signature, issuer, validity and subject. -/
def skipSequences : ℕ → Der → DerProg Der
  | 0, d => pure d
  | n + 1, d => do
    let (_, d) ← expect 0x30 d
    skipSequences n d

/-- `parse_cert_spki`. -/
def parseCertSpki (der : Bytes) : DerProg Bytes := do
  let (cert, _) ← expect 0x30 ⟨der, 0⟩
  let (tbs, _) ← expect 0x30 ⟨cert, 0⟩
  let (tag, _, d) ← tlv ⟨tbs, 0⟩
  -- without a version the first value was the serial number already
  let d := if tag = 0xa0 then d else ⟨tbs, 0⟩
  let (_, d) ← expect 0x02 d
  let d ← skipSequences 4 d
  let (tag, spki, _) ← tlvFull d
  if tag ≠ 0x30 then notFound else pure spki

/-- The object identifier `rsaEncryption`. -/
def RSA_ENCRYPTION : Bytes := [0x2a, 0x86, 0x48, 0x86, 0xf7, 0x0d, 0x01, 0x01, 0x01]

/-- An INTEGER without the zero byte in front that keeps it positive. -/
def unsigned (n : Bytes) : Except (Stop Unit) Bytes :=
  if n.head? = some 0 then slice n 1 n.length else .ok n

/-- `parse_rsa_spki` up to `RsaPublicKey::new`: modulus and exponent. -/
def parseRsaSpki (der : Bytes) : DerProg (ℕ × ℕ) := do
  let (spki, _) ← expect 0x30 ⟨der, 0⟩
  let (alg, s) ← expect 0x30 ⟨spki, 0⟩
  let (bitstr, _) ← expect 0x03 s
  if bitstr.head? ≠ some 0 then notFound
  else
    let (oid, _) ← expect 0x06 ⟨alg, 0⟩
    if oid ≠ RSA_ENCRYPTION then notFound
    else
      let keyDer ← (slice bitstr 1 bitstr.length : Except (Stop Unit) Bytes)
      let (seq, _) ← expect 0x30 ⟨keyDer, 0⟩
      let (n, kv) ← expect 0x02 ⟨seq, 0⟩
      let (e, _) ← expect 0x02 kv
      let n ← unsigned n
      let e ← unsigned e
      pure (ofBE n, ofBE e)

/-- The two key parsers in sequence, as `verify_certificate_verify` calls them. -/
def parseLeafKey (leaf : Bytes) : DerProg (ℕ × ℕ) := do
  let spki ← parseCertSpki leaf
  parseRsaSpki spki

end ShadeVpn.Tls13
