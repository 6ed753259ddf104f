import ShadeVpn.Lib.Octets

/-!
# DER elements

The encoding of an element with a definite, minimal length: a tag, the length octets in
short or long form, and the contents.  `natural` is the contents of an INTEGER that is not
negative.
-/

namespace Asn1

open Octets

/-- The octets that a number takes. -/
def width (n : ℕ) : ℕ := Nat.log 256 n + 1

/-- The length octets: the length itself below 128, and from there the number of octets
that it takes, and those. -/
def lengthOctets (n : ℕ) : Bytes :=
  if n < 128 then [UInt8.ofNat n] else UInt8.ofNat (128 + width n) :: toBE (width n) n

/-- An element with a tag of one octet. -/
def element (tag : UInt8) (contents : Bytes) : Bytes :=
  tag :: (lengthOctets contents.length ++ contents)

/-- The contents of an INTEGER: as many octets as leave the sign bit clear. -/
def natural (n : ℕ) : Bytes := toBE (width (2 * n)) n

/-- A number fits the octets that it takes. -/
theorem lt_pow_width (n : ℕ) : n < 256 ^ width n := Nat.lt_pow_succ_log_self (by decide) n

theorem width_le {k n : ℕ} (hk : 0 < k) (h : n < 256 ^ k) : width n ≤ k :=
  Nat.log_lt_of_lt_pow' hk.ne' h

@[simp] theorem ofBE_natural (n : ℕ) : ofBE (natural n) = n := by
  refine ofBE_toBE_of_lt (lt_of_le_of_lt ?_ (lt_pow_width (2 * n)))
  omega

theorem length_lt_element (tag : UInt8) (contents : Bytes) :
    contents.length < (element tag contents).length := by
  simp [element]

/-- Four octets for the length are enough below 2^32. -/
theorem length_element_le (tag : UInt8) {contents : Bytes} (h : contents.length < 256 ^ 4) :
    (element tag contents).length ≤ contents.length + 6 := by
  have hwidth := width_le (by decide) h
  rw [element, lengthOctets]
  split_ifs
  · simp
  · simp
    omega

end Asn1
