import ShadeVpn.Tls.Exact
import ShadeVpn.Tls13.HkdfExpand

/-!
# The derivations of RFC 8446

What the other end of a connection derives, in the words of RFC 8446 (4.4.3, 4.4.4, 7.1 and
7.3) and, for HKDF, of RFC 5869.  The functions of `native/src/tls13.rs` come to the same:

* `expandLabel_eq`, `deriveSecret_eq` — HKDF-Expand-Label and Derive-Secret;
* `trafficKey_eq`, `trafficIv_eq` — traffic keys;
* `verifyData_eq`, `signatureContent_eq` — Finished and CertificateVerify.
-/

namespace ShadeVpn.Tls13.Rfc8446

open Octets
open Tls (lengthPrefixed)

variable (k : Crates) (h : HashAlg)

/-- Transcript-Hash. -/
def transcriptHash (messages : Bytes) : Bytes := (k.digest h messages).toList

/-! ## HKDF -/

def extract (salt ikm : Bytes) : Bytes := (k.hmac h salt ikm).toList

/-- The first octets of `T(1) ‖ T(2) ‖ …`. -/
def expand (prk info : Bytes) (length : ℕ) : Bytes :=
  (expandBlocks k h prk info (blockCount h length)).take length

/-- `HkdfLabel`: a length, and the label and the context, each with its length in front. -/
def hkdfLabel (length : ℕ) (label : String) (context : Bytes) : Bytes :=
  toBE 2 length ++ lengthPrefixed 1 (utf8 "tls13 " ++ utf8 label) ++ lengthPrefixed 1 context

/-- HKDF-Expand-Label. -/
def expandLabel (secret : Bytes) (label : String) (context : Bytes) (length : ℕ) : Bytes :=
  expand k h secret (hkdfLabel length label context) length

/-- Derive-Secret. -/
def deriveSecret (secret : Bytes) (label : String) (messages : Bytes) : Bytes :=
  expandLabel k h secret label (transcriptHash k h messages) h.len

/-! ## What is made of a traffic secret -/

def trafficKey (suite : CipherSuite) (secret : Bytes) : Bytes :=
  expandLabel k suite.hash secret "key" [] suite.keyLen

def trafficIv (suite : CipherSuite) (secret : Bytes) : Bytes :=
  expandLabel k suite.hash secret "iv" [] 12

/-- The body of a Finished behind these messages. -/
def verifyData (secret messages : Bytes) : Bytes :=
  (k.hmac h (expandLabel k h secret "finished" [] h.len) (transcriptHash k h messages)).toList

/-! ## What a server signs -/

/-- 64 octets of 32, the context string, a zero octet and the transcript hash. -/
def signatureContent (messages : Bytes) : Bytes :=
  List.replicate 64 0x20 ++ utf8 "TLS 1.3, server CertificateVerify" ++
    ([0] ++ transcriptHash k h messages)

/-! ## The client's functions -/

theorem utf8_append (a b : String) : utf8 (a ++ b) = utf8 a ++ utf8 b := by
  simp [utf8]

theorem lengthPrefixed_one (bs : Bytes) : lengthPrefixed 1 bs = UInt8.ofNat bs.length :: bs := by
  simp [lengthPrefixed, toBE]

theorem expandLabel_eq (secret : Bytes) (label : String) (context : Bytes) (length : ℕ) :
    expandLabel k h secret label context length =
      hkdfExpandLabel k h secret label context length := by
  rw [hkdfExpandLabel, hkdfExpand_eq, expandLabel, expand, hkdfLabel, lengthPrefixed_one,
    lengthPrefixed_one, ← utf8_append]

theorem deriveSecret_eq (secret : Bytes) (label : String) (messages : Bytes) :
    deriveSecret k h secret label messages =
      Tls13.deriveSecret k h secret label (transcriptHash k h messages) :=
  expandLabel_eq k h secret label _ _

theorem trafficKey_eq (suite : CipherSuite) (secret : Bytes) :
    trafficKey k suite secret = (keyIvFromSecret k suite secret).1 :=
  expandLabel_eq k suite.hash secret "key" [] _

theorem trafficIv_eq (suite : CipherSuite) (secret : Bytes) :
    trafficIv k suite secret = (keyIvFromSecret k suite secret).2 :=
  expandLabel_eq k suite.hash secret "iv" [] _

theorem verifyData_eq (secret messages : Bytes) :
    verifyData k h secret messages =
      hmacHash k h (finishedKey k h secret) (transcriptHash k h messages) := by
  rw [verifyData, expandLabel_eq]
  rfl

theorem signatureContent_eq (messages : Bytes) :
    signatureContent k h messages = toBeSigned (transcriptHash k h messages) := rfl

end ShadeVpn.Tls13.Rfc8446
