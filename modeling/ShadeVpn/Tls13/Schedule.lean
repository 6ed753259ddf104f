import ShadeVpn.Tls13.Certificate

/-!
# Suites, secrets and record protection

The part of `native/src/tls13.rs` below the client: cipher suites and their hashes,
HKDF and the labels of the key schedule, the transcript, one direction of record
protection and the inner padding.  The crates behind it are the parameter `Crates`.

A sum such as `*seq += 1` wraps, as it does in the release build that ships.
-/

namespace ShadeVpn.Tls13

open Octets Checked

/-! ## Suites and hashes -/

/-- `HashAlg`. -/
inductive HashAlg where
  | s256
  | s384
  deriving DecidableEq, Repr

/-- `HashAlg::len`. -/
def HashAlg.len : HashAlg → ℕ
  | .s256 => 32
  | .s384 => 48

/-- `CipherSuite`. -/
inductive CipherSuite where
  | aes128GcmSha256
  | aes256GcmSha384
  | chaCha20Poly1305Sha256
  deriving DecidableEq, Repr

namespace CipherSuite

/-- `CipherSuite::from_u16`. -/
def fromU16 (v : ℕ) : Option CipherSuite :=
  if v = 0x1301 then some aes128GcmSha256
  else if v = 0x1302 then some aes256GcmSha384
  else if v = 0x1303 then some chaCha20Poly1305Sha256
  else none

/-- `CipherSuite::hash`. -/
def hash : CipherSuite → HashAlg
  | aes256GcmSha384 => .s384
  | _ => .s256

/-- `CipherSuite::key_len`. -/
def keyLen : CipherSuite → ℕ
  | aes128GcmSha256 => 16
  | _ => 32

end CipherSuite

/-! ## The crates -/

/-- `RsaPublicKey`, before and after it is checked. -/
structure RsaPublicKey where
  n : ℕ
  e : ℕ
  deriving DecidableEq

/-- The hash in a signature scheme. -/
inductive SignatureHash where
  | sha256
  | sha384
  | sha512
  deriving DecidableEq

/-- The functions of the crates `sha2`, `hmac`, `aes-gcm`, `chacha20poly1305` and
`rsa` that the client calls. -/
structure Crates where
  digest : (h : HashAlg) → Bytes → List.Vector UInt8 h.len
  /-- HMAC of a key and a message. -/
  hmac : (h : HashAlg) → Bytes → Bytes → List.Vector UInt8 h.len
  /-- The AEAD of a suite: key, nonce, message and associated data. -/
  encrypt : CipherSuite → Bytes → Bytes → Bytes → Bytes → Option Bytes
  decrypt : CipherSuite → Bytes → Bytes → Bytes → Bytes → Option Bytes
  /-- `RsaPublicKey::new` takes the key. -/
  rsaAccepts : RsaPublicKey → Bool
  /-- The signature decodes and verifies: key, message and signature. -/
  verifyPss : SignatureHash → RsaPublicKey → Bytes → Bytes → Bool
  verifyPkcs1 : SignatureHash → RsaPublicKey → Bytes → Bytes → Bool

variable (k : Crates)

/-- `HashAlg::empty_hash`. -/
def emptyHash (h : HashAlg) : Bytes := (k.digest h []).toList

/-- `hmac_hash`. -/
def hmacHash (h : HashAlg) (key data : Bytes) : Bytes := (k.hmac h key data).toList

/-- `hkdf_extract`. -/
def hkdfExtract (h : HashAlg) (salt ikm : Bytes) : Bytes := hmacHash k h salt ikm

@[simp] theorem length_hmacHash (h : HashAlg) (key data : Bytes) :
    (hmacHash k h key data).length = h.len := (k.hmac h key data).toList_length

theorem HashAlg.len_pos (h : HashAlg) : 0 < h.len := by
  cases h <;> decide

/-- The loop of `hkdf_expand`. -/
def hkdfExpandLoop (h : HashAlg) (prk info : Bytes) (len : ℕ) (okm t : Bytes) (counter : UInt8) :
    Bytes :=
  if okm.length < len then
    let t := hmacHash k h prk (t ++ info ++ [counter])
    hkdfExpandLoop h prk info len (okm ++ t) t (counter + 1)
  else okm
termination_by len - okm.length
decreasing_by
  rw [List.length_append, length_hmacHash]
  have := h.len_pos
  omega

/-- `hkdf_expand`. -/
def hkdfExpand (h : HashAlg) (prk info : Bytes) (len : ℕ) : Bytes :=
  (hkdfExpandLoop k h prk info len [] [] 1).take len

theorem le_length_hkdfExpandLoop (h : HashAlg) (prk info : Bytes) (len : ℕ) (okm t : Bytes)
    (counter : UInt8) : len ≤ (hkdfExpandLoop k h prk info len okm t counter).length := by
  induction okm, t, counter using hkdfExpandLoop.induct k h prk info len with
  | case1 okm t counter hmore t' ih =>
    rw [hkdfExpandLoop, if_pos hmore]
    exact ih
  | case2 okm t counter hdone =>
    rw [hkdfExpandLoop, if_neg hdone]
    exact not_lt.1 hdone

@[simp] theorem length_hkdfExpand (h : HashAlg) (prk info : Bytes) (len : ℕ) :
    (hkdfExpand k h prk info len).length = len := by
  rw [hkdfExpand, List.length_take]
  exact Nat.min_eq_left (le_length_hkdfExpandLoop ..)

/-- `hkdf_expand_label`. -/
def hkdfExpandLabel (h : HashAlg) (secret : Bytes) (label : String) (context : Bytes) (len : ℕ) :
    Bytes :=
  let fullLabel := utf8 ("tls13 " ++ label)
  hkdfExpand k h secret (toBE 2 len ++ UInt8.ofNat fullLabel.length :: fullLabel
    ++ UInt8.ofNat context.length :: context) len

@[simp] theorem length_hkdfExpandLabel (h : HashAlg) (secret : Bytes) (label : String)
    (context : Bytes) (len : ℕ) :
    (hkdfExpandLabel k h secret label context len).length = len := length_hkdfExpand ..

/-- `derive_secret`. -/
def deriveSecret (h : HashAlg) (secret : Bytes) (label : String) (transcriptHash : Bytes) : Bytes :=
  hkdfExpandLabel k h secret label transcriptHash h.len

/-- `finished_key`. -/
def finishedKey (h : HashAlg) (secret : Bytes) : Bytes :=
  hkdfExpandLabel k h secret "finished" [] h.len

/-! ## Record protection -/

/-- `TAG_LEN`. -/
def TAG_LEN : ℕ := 16

/-- `IV_LEN`. -/
def IV_LEN : ℕ := 12

/-- `record_nonce`. -/
def recordNonce (iv : Bytes) (seq : UInt64) : Except (Stop Tls13Error) Bytes := do
  let base ← sub iv.length 8
  .ok (iv.take base ++ List.zipWith (· ^^^ ·) (iv.drop base) (toBE 8 seq.toNat))

theorem recordNonce_eq_ok {iv : Bytes} (h : iv.length = IV_LEN) (seq : UInt64) :
    ∃ nonce, recordNonce iv seq = .ok nonce ∧ nonce.length = IV_LEN := by
  refine ⟨_, by rw [recordNonce, sub_eq_ok (by rw [h]; decide)]; rfl, ?_⟩
  simp [h, IV_LEN]

/-- `RecordCipher`: the suite and a key of its length. -/
structure RecordCipher where
  suite : CipherSuite
  key : Bytes
  deriving DecidableEq

/-- `cipher_from_key`. -/
def cipherFromKey (suite : CipherSuite) (key : Bytes) : Except (Stop Tls13Error) RecordCipher :=
  if key.length = suite.keyLen then .ok ⟨suite, key⟩ else .error (.err .badCipherSuite)

/-- The conversion of a nonce to an array of twelve bytes, which asserts its length. -/
def nonceArray (nonce : Bytes) : Except (Stop Tls13Error) Bytes :=
  if nonce.length = IV_LEN then .ok nonce else .error .panic

/-- `RecordCipher::seal`. -/
def RecordCipher.seal (c : RecordCipher) (nonce plaintext aad : Bytes) :
    Except (Stop Tls13Error) Bytes := do
  let nonce ← nonceArray nonce
  okOr .decryptFailed (k.encrypt c.suite c.key nonce plaintext aad)

/-- `RecordCipher::open`. -/
def RecordCipher.open (c : RecordCipher) (nonce ciphertext aad : Bytes) :
    Except (Stop Tls13Error) Bytes := do
  let nonce ← nonceArray nonce
  okOr .decryptFailed (k.decrypt c.suite c.key nonce ciphertext aad)

theorem RecordCipher.seal_of_length (c : RecordCipher) {nonce : Bytes} (h : nonce.length = IV_LEN)
    (plaintext aad : Bytes) :
    c.seal k nonce plaintext aad =
      okOr .decryptFailed (k.encrypt c.suite c.key nonce plaintext aad) := by
  rw [RecordCipher.seal, nonceArray, if_pos h]
  rfl

theorem RecordCipher.open_of_length (c : RecordCipher) {nonce : Bytes} (h : nonce.length = IV_LEN)
    (ciphertext aad : Bytes) :
    c.open k nonce ciphertext aad =
      okOr .decryptFailed (k.decrypt c.suite c.key nonce ciphertext aad) := by
  rw [RecordCipher.open, nonceArray, if_pos h]
  rfl

/-- `key_iv_from_secret`. -/
def keyIvFromSecret (suite : CipherSuite) (secret : Bytes) : Bytes × Bytes :=
  (hkdfExpandLabel k suite.hash secret "key" [] suite.keyLen,
    hkdfExpandLabel k suite.hash secret "iv" [] IV_LEN)

/-- One direction of record protection: cipher, static IV and sequence number. -/
structure Protection where
  cipher : RecordCipher
  iv : Bytes
  seq : UInt64
  deriving DecidableEq

/-- The protection a traffic secret gives. -/
def protectionOf (suite : CipherSuite) (secret : Bytes) : Except (Stop Tls13Error) Protection := do
  let (key, iv) := keyIvFromSecret k suite secret
  let cipher ← cipherFromKey suite key
  .ok ⟨cipher, iv, 0⟩

/-- `*seq += 1`. -/
def Protection.next (p : Protection) : Protection := { p with seq := p.seq + 1 }

/-- The key of a suite has the length the suite wants. -/
theorem protectionOf_eq_ok (suite : CipherSuite) (secret : Bytes) :
    ∃ p, protectionOf k suite secret = .ok p ∧ p.iv.length = IV_LEN := by
  have hkey : (keyIvFromSecret k suite secret).1.length = suite.keyLen := length_hkdfExpandLabel ..
  have hiv : (keyIvFromSecret k suite secret).2.length = IV_LEN := length_hkdfExpandLabel ..
  refine ⟨⟨⟨suite, (keyIvFromSecret k suite secret).1⟩, (keyIvFromSecret k suite secret).2, 0⟩,
    ?_, hiv⟩
  simp only [protectionOf, cipherFromKey, if_pos hkey, bind, Except.bind]

/-! ## Transcript and inner plaintext -/

/-- `Transcript`: the hash and what it has been given. -/
structure Transcript where
  alg : HashAlg
  data : Bytes
  deriving DecidableEq

namespace Transcript

/-- `Transcript::new`. -/
def new (suite : CipherSuite) : Transcript := ⟨suite.hash, []⟩

/-- `Transcript::update`. -/
def update (t : Transcript) (data : Bytes) : Transcript := { t with data := t.data ++ data }

/-- `Transcript::hash_of`. -/
def hashOf (t : Transcript) : Bytes := (k.digest t.alg t.data).toList

end Transcript

/-- `strip_inner_padding`. -/
def stripInnerPadding (plain : Bytes) : Except (Stop Tls13Error) (UInt8 × Bytes) :=
  match (plain.reverse.dropWhile (· = 0)) with
  | [] => .error (.err .badRecord)
  | ct :: payload => .ok (ct, payload.reverse)

theorem sound_stripInnerPadding (plain : Bytes) : Sound (stripInnerPadding plain) := by
  rw [stripInnerPadding]
  split
  · exact sound_err _
  · exact sound_ok _

end ShadeVpn.Tls13
