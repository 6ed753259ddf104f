import ShadeVpn.Lib.Crypto
import ShadeVpn.Tls.ClientHello

/-!
# REALITY session material

`native/src/reality.rs`: the AuthKey, the sealed session id, the temporary
certificate and the identity hash the record keys are bound to.
-/

namespace ShadeVpn.Reality

open Octets Checked Tls

variable {κ σ : Type} (C : Crypto κ σ)

def REALITY_INFO : Bytes := utf8 "REALITY"

def SID_VERSION_LEN : ℕ := 3
def SID_RESERVED_LEN : ℕ := 1
def SID_TIME_LEN : ℕ := 4
def SID_SHORT_ID_LEN : ℕ := 8
def SID_PLAIN_LEN : ℕ := SID_VERSION_LEN + SID_RESERVED_LEN + SID_TIME_LEN + SID_SHORT_ID_LEN
def SID_WIRE_LEN : ℕ := 32
def RANDOM_SALT_LEN : ℕ := 20

/-- `RealityError`. -/
inductive RealityError where
  | shortIdTooLong
  | sessionIdRejected
  | certRejected
  | layout
  deriving DecidableEq, Repr

/-! ## The temporary certificate -/

/-- `temporary_certificate`, for the signing secret it draws. -/
def temporaryCertificate (signing : κ) (authKeyBytes : List.Vector σ 32) : List σ :=
  (C.publicKey signing).toList
    ++ (C.hmacSha512 authKeyBytes.toList (C.publicKey signing).toList).toList

/-- `verify_temporary_certificate`. -/
def verifyTemporaryCertificate [DecidableEq σ] (authKeyBytes : List.Vector σ 32)
    (certificate : List σ) : Except RealityError Unit :=
  if certificate.length ≠ 96 then .error .certRejected
  else
    let pubBytes := certificate.take 32
    let sig := certificate.drop 32
    -- the folded compare over the tag
    if ((C.hmacSha512 authKeyBytes.toList pubBytes).toList.zip sig).all (fun p => p.1 = p.2) then
      .ok ()
    else .error .certRejected

/-- `session_identity`. -/
def sessionIdentity (sessionId sharedSecret : List.Vector σ 32) : List.Vector σ 32 :=
  C.sha256 (sessionId.toList ++ sharedSecret.toList)

theorem length_temporaryCertificate (signing : κ) (authKeyBytes : List.Vector σ 32) :
    (temporaryCertificate C signing authKeyBytes).length = 96 := by
  simp [temporaryCertificate]

theorem all_zip_eq_iff [DecidableEq σ] {xs ys : List σ} (h : xs.length = ys.length) :
    ((xs.zip ys).all fun p => p.1 = p.2) = true ↔ xs = ys := by
  induction xs generalizing ys with
  | nil => simp [List.length_eq_zero_iff.1 h.symm]
  | cons x xs ih =>
    obtain ⟨y, ys, rfl⟩ := List.exists_cons_of_length_eq_add_one h.symm
    simp [ih (by simpa using h)]

/-- The check accepts exactly a key followed by its tag under the AuthKey. -/
theorem verifyTemporaryCertificate_ok_iff [DecidableEq σ] {authKeyBytes : List.Vector σ 32}
    {certificate : List σ} :
    verifyTemporaryCertificate C authKeyBytes certificate = .ok () ↔
      certificate.length = 96 ∧
        certificate.drop 32 = (C.hmacSha512 authKeyBytes.toList (certificate.take 32)).toList := by
  rw [verifyTemporaryCertificate]
  dsimp only
  split_ifs with hlen hall
  · simp [hlen]
  · rw [not_not] at hlen
    rw [all_zip_eq_iff (by simp [hlen])] at hall
    simp [hlen, hall]
  · rw [not_not] at hlen
    rw [all_zip_eq_iff (by simp [hlen])] at hall
    simp [hlen, Ne.symm hall]

theorem verifyTemporaryCertificate_temporaryCertificate [DecidableEq σ] (signing : κ)
    (authKeyBytes : List.Vector σ 32) :
    verifyTemporaryCertificate C authKeyBytes (temporaryCertificate C signing authKeyBytes)
      = .ok () := by
  rw [verifyTemporaryCertificate_ok_iff, temporaryCertificate,
    List.take_left' (List.Vector.toList_length _), List.drop_left' (List.Vector.toList_length _)]
  exact ⟨by simp, rfl⟩

/-! ## The AuthKey and the session id -/

variable [Alphabet σ]

/-- `auth_key`. -/
def authKey (sharedSecret random : List.Vector σ 32) : List.Vector σ 32 :=
  C.hkdfSha256 (random.toList.take RANDOM_SALT_LEN) sharedSecret.toList (lits REALITY_INFO) 32

/-- The nonce of the session id seal: `random[20..32]`. -/
def sessionIdNonce (random : List.Vector σ 32) : List.Vector σ 12 :=
  copyFrom 12 (random.toList.drop RANDOM_SALT_LEN)

/-- A short id padded with zeros to its slot. -/
def padShortId (shortId : Bytes) : Bytes :=
  shortId ++ List.replicate (SID_SHORT_ID_LEN - shortId.length) 0

/-- The session id before it is sealed. -/
def sessionIdPlaintext (version : Bytes) (unixTime : UInt32) (shortId : Bytes) : Bytes :=
  version ++ [0] ++ toBE 4 unixTime.toNat ++ padShortId shortId

/-- `seal_session_id`. -/
def sealSessionId (aeadKey random : List.Vector σ 32) (helloWithZeroedSid : List σ)
    (version : List.Vector UInt8 3) (unixTime : UInt32) (shortId : Bytes) :
    Except (Stop RealityError) (List.Vector σ 32) :=
  if shortId.length > SID_SHORT_ID_LEN then .error (.err .shortIdTooLong)
  else if helloWithZeroedSid.length < SESSION_ID_OFFSET + SID_WIRE_LEN then .error (.err .layout)
  else
    match C.aesEncrypt aeadKey (sessionIdNonce random) helloWithZeroedSid
      (lits (sessionIdPlaintext version.toList unixTime shortId)) with
    | none => .error (.err .sessionIdRejected)
    | some ct => if ct.length = 32 then .ok (copyFrom 32 ct) else .error .panic

/-- `SessionIdPlain`. -/
structure SessionIdPlain (σ : Type) where
  clientVersion : List.Vector σ 3
  unixTime : UInt32
  shortId : List.Vector σ 8

/-- `unseal_session_id`. -/
def unsealSessionId (aeadKey random : List.Vector σ 32) (helloWithZeroedSid : List σ)
    (sessionId : List.Vector σ 32) : Except RealityError (SessionIdPlain σ) :=
  if helloWithZeroedSid.length < SESSION_ID_OFFSET + SID_WIRE_LEN then .error .layout
  else
    match C.aesDecrypt aeadKey (sessionIdNonce random) helloWithZeroedSid sessionId.toList with
    | none => .error .sessionIdRejected
    | some plain =>
      if plain.length ≠ SID_PLAIN_LEN then .error .layout
      else .ok { clientVersion := copyFrom 3 plain,
                 unixTime := UInt32.ofNat (ofBE (values ((plain.drop 4).take 4))),
                 shortId := copyFrom 8 (plain.drop 8) }

variable {C} in
/-- What a sealed session id is. -/
theorem sealSessionId_eq_ok {aeadKey random : List.Vector σ 32} {hello : List σ}
    {version : List.Vector UInt8 3} {unixTime : UInt32} {shortId : Bytes}
    {sealedId : List.Vector σ 32}
    (h : sealSessionId C aeadKey random hello version unixTime shortId = .ok sealedId) :
    C.aesEncrypt aeadKey (sessionIdNonce random) hello
      (lits (sessionIdPlaintext version.toList unixTime shortId)) = some sealedId.toList := by
  rw [sealSessionId] at h
  split_ifs at h
  split at h
  · cases h
  · next ct hct =>
    split_ifs at h with hlen
    cases h
    rw [hct, toList_copyFrom hlen.ge, ← hlen, List.take_length]

section RoundTrip

variable {C} (hC : C.Lawful)
include hC

/-- **The session id round trip**: what a client seals, a server with the same key,
random and hello unseals. -/
theorem unsealSessionId_sealSessionId {aeadKey random : List.Vector σ 32} {hello : List σ}
    {version : List.Vector UInt8 3} {unixTime : UInt32} {shortId : Bytes}
    {sealedId : List.Vector σ 32}
    (h : sealSessionId C aeadKey random hello version unixTime shortId = .ok sealedId) :
    unsealSessionId C aeadKey random hello sealedId
      = .ok { clientVersion := version.map Alphabet.byte, unixTime,
              shortId := copyFrom 8 (lits (padShortId shortId)) } := by
  rw [sealSessionId] at h
  split_ifs at h with hshort hlen
  rcases hct : C.aesEncrypt aeadKey (sessionIdNonce random) hello
    (lits (sessionIdPlaintext version.toList unixTime shortId)) with _ | ct
  · rw [hct] at h
    cases h
  · rw [hct] at h
    dsimp only at h
    split_ifs at h with h32
    cases h
    have hcopy : (copyFrom 32 ct).toList = ct := by
      rw [toList_copyFrom h32.ge, ← h32, List.take_length]
    have hpad : (padShortId shortId).length = 8 := by
      rw [not_lt, SID_SHORT_ID_LEN] at hshort
      simp [padShortId, SID_SHORT_ID_LEN]
      omega
    have hplain : (lits (sessionIdPlaintext version.toList unixTime shortId) : List σ)
        = (version.map (Alphabet.byte (σ := σ))).toList ++ (lits [0]
          ++ (lits (toBE 4 unixTime.toNat) ++ lits (padShortId shortId))) := by
      simp [sessionIdPlaintext, lits]
    have htime : unixTime.toNat < 256 ^ 4 := by simpa using unixTime.toNat_lt
    have hdrop4 : (lits (sessionIdPlaintext version.toList unixTime shortId) : List σ).drop 4
        = lits (toBE 4 unixTime.toNat) ++ lits (padShortId shortId) := by
      rw [hplain, ← List.append_assoc]
      exact List.drop_left' (by simp)
    have hdrop8 : (lits (sessionIdPlaintext version.toList unixTime shortId) : List σ).drop 8
        = lits (padShortId shortId) := by
      rw [show 8 = 4 + 4 from rfl, ← List.drop_drop, hdrop4]
      exact List.drop_left' (by simp)
    rw [unsealSessionId, if_neg hlen, hcopy, hC.decrypt_encrypt hct]
    dsimp only
    rw [if_neg (by simp [sessionIdPlaintext, hpad, SID_PLAIN_LEN, SID_VERSION_LEN,
      SID_RESERVED_LEN, SID_TIME_LEN, SID_SHORT_ID_LEN]), hdrop4, hdrop8,
      List.take_left' (by simp), hplain, copyFrom_toList_append, values_lits,
      ofBE_toBE_of_lt htime, UInt32.ofNat_toNat]

/-- Sealing a short id of at most 8 bytes succeeds. -/
theorem sealSessionId_ok {aeadKey random : List.Vector σ 32} {hello : List σ}
    {version : List.Vector UInt8 3} {unixTime : UInt32} {shortId : Bytes}
    (hshort : shortId.length ≤ 8) (hlen : SESSION_ID_OFFSET + SID_WIRE_LEN ≤ hello.length)
    (hmax : hello.length ≤ Crypto.AES_MAX) :
    ∃ sealedId, sealSessionId C aeadKey random hello version unixTime shortId = .ok sealedId := by
  have hplain : (lits (sessionIdPlaintext version.toList unixTime shortId) : List σ).length = 16 := by
    simp [sessionIdPlaintext, padShortId, SID_SHORT_ID_LEN]
    omega
  obtain ⟨ct, hct⟩ := hC.encrypt_ok aeadKey (sessionIdNonce random) hello
    (lits (sessionIdPlaintext version.toList unixTime shortId)) hmax
    (by rw [hplain]; decide)
  have hctlen := hC.encrypt_length hct
  rw [hplain] at hctlen
  refine ⟨copyFrom 32 ct, ?_⟩
  rw [sealSessionId, if_neg (by rw [SID_SHORT_ID_LEN]; omega), if_neg (by omega), hct]
  exact if_pos hctlen

end RoundTrip

end ShadeVpn.Reality
