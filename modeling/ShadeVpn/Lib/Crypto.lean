import ShadeVpn.Lib.Octets

/-!
# Cryptographic primitives as a parameter

The primitives of X25519, HKDF-SHA256, SHA-256, HMAC-SHA512 and AES-256-GCM over
an alphabet, with what a protocol may rely on stated apart:

* `Lawful` — Diffie-Hellman commutes, a low-order share gives the zero secret,
  and AES-GCM opens what it sealed;
* `Ideal` — nothing opens but what was sealed, and only under its own nonce.

`toy` satisfies all of it over the bytes, so the assumptions are consistent.
-/

open Octets

variable {κ σ : Type} [Alphabet σ]

/-- The primitives a handshake uses, over secrets `κ` and symbols `σ`. -/
structure Crypto (κ σ : Type) where
  /-- The X25519 function of a secret and a point. -/
  x25519 : κ → List.Vector σ 32 → List.Vector σ 32
  /-- The point public keys are made from. -/
  basepoint : List.Vector σ 32
  /-- HKDF-SHA256 of a salt, input key material and info, to `n` symbols. -/
  hkdfSha256 : List σ → List σ → List σ → (n : ℕ) → List.Vector σ n
  sha256 : List σ → List.Vector σ 32
  /-- HMAC-SHA512 of a key and a message. -/
  hmacSha512 : List σ → List σ → List.Vector σ 64
  /-- AES-256-GCM encryption of a message under a key, a nonce and associated data. -/
  aesEncrypt : List.Vector σ 32 → List.Vector σ 12 → List σ → List σ → Option (List σ)
  aesDecrypt : List.Vector σ 32 → List.Vector σ 12 → List σ → List σ → Option (List σ)

namespace Crypto

/-- The limit AES-GCM puts on a message and on its associated data. -/
def AES_MAX : ℕ := 2 ^ 36

/-- The length of a GCM tag. -/
def AES_TAG : ℕ := 16

/-- The all-zero array. -/
def zeros (n : ℕ) : List.Vector σ n := List.Vector.replicate n (Alphabet.byte 0)

/-- The public key of a secret. -/
def publicKey (C : Crypto κ σ) (k : κ) : List.Vector σ 32 := C.x25519 k C.basepoint

/-- What honest parties rely on. -/
structure Lawful (C : Crypto κ σ) : Prop where
  dh_comm : ∀ a b, C.x25519 a (C.publicKey b) = C.x25519 b (C.publicKey a)
  dh_zero : ∀ a, C.x25519 a (zeros 32) = zeros 32
  encrypt_ok : ∀ key nonce aad msg, aad.length ≤ AES_MAX → msg.length ≤ AES_MAX →
    ∃ ct, C.aesEncrypt key nonce aad msg = some ct
  encrypt_length : ∀ {key nonce aad msg ct}, C.aesEncrypt key nonce aad msg = some ct →
    ct.length = msg.length + AES_TAG
  decrypt_encrypt : ∀ {key nonce aad msg ct}, C.aesEncrypt key nonce aad msg = some ct →
    C.aesDecrypt key nonce aad ct = some msg

/-- What an ideal AEAD adds: only sealed messages open, and under one key a
ciphertext belongs to one nonce. -/
structure Ideal (C : Crypto κ σ) : Prop where
  encrypt_of_decrypt : ∀ {key nonce aad msg ct}, C.aesDecrypt key nonce aad ct = some msg →
    C.aesEncrypt key nonce aad msg = some ct
  nonce_unique : ∀ {key nonce nonce' aad aad' msg msg' ct},
    C.aesEncrypt key nonce aad msg = some ct → C.aesEncrypt key nonce' aad' msg' = some ct →
    nonce = nonce'

/-! ## Consistency -/

/-- A vector of the last `n` symbols of a message, last first. -/
def lastSymbols (n : ℕ) (xs : List σ) : List.Vector σ n :=
  List.Vector.ofFn fun i => xs.reverse.getD i (Alphabet.byte 0)

/-- The seal of the toy cipher: the nonce and four symbols of the key behind the message. -/
def toySeal (key : List.Vector UInt8 32) (nonce : List.Vector UInt8 12) (msg : Bytes) : Bytes :=
  msg ++ (nonce.toList ++ key.toList.take 4)

/-- Primitives over the bytes that satisfy `Lawful` and `Ideal`: scalars act on
points by multiplication, hashes keep the end of their input, and a seal carries
its nonce. -/
def toy : Crypto UInt8 UInt8 where
  x25519 k p := p.map (k * ·)
  basepoint := List.Vector.replicate 32 1
  hkdfSha256 salt ikm info n := lastSymbols n (info ++ salt ++ ikm)
  sha256 m := lastSymbols 32 m
  hmacSha512 key m := lastSymbols 64 (key ++ m)
  aesEncrypt key nonce aad msg :=
    if aad.length ≤ AES_MAX ∧ msg.length ≤ AES_MAX then some (toySeal key nonce msg) else none
  aesDecrypt key nonce aad ct :=
    let msg := ct.take (ct.length - AES_TAG)
    if aad.length ≤ AES_MAX ∧ msg.length ≤ AES_MAX ∧ ct = toySeal key nonce msg then some msg
    else none

theorem length_toySeal (key : List.Vector UInt8 32) (nonce : List.Vector UInt8 12) (msg : Bytes) :
    (toySeal key nonce msg).length = msg.length + AES_TAG := by
  simp [toySeal, AES_TAG]

theorem toy_lawful : toy.Lawful where
  dh_comm a b := by
    apply List.Vector.ext
    intro i
    simp only [publicKey, toy, List.Vector.get_map, List.Vector.get_replicate, UInt8.mul_one]
    exact UInt8.mul_comm a b
  dh_zero a := by
    apply List.Vector.ext
    intro i
    simp only [toy, zeros, List.Vector.get_map, List.Vector.get_replicate]
    exact UInt8.mul_zero
  encrypt_ok key nonce aad msg haad hmsg := ⟨_, if_pos ⟨haad, hmsg⟩⟩
  encrypt_length {key nonce aad msg ct} h := by
    simp only [toy] at h
    split_ifs at h
    cases h
    exact length_toySeal ..
  decrypt_encrypt {key nonce aad msg ct} h := by
    simp only [toy] at h ⊢
    split_ifs at h with hlen
    cases h
    have htake : (toySeal key nonce msg).take ((toySeal key nonce msg).length - AES_TAG) = msg := by
      rw [length_toySeal, Nat.add_sub_cancel]
      exact List.take_left' rfl
    rw [htake, if_pos ⟨hlen.1, hlen.2, rfl⟩]

theorem toy_ideal : toy.Ideal where
  encrypt_of_decrypt {key nonce aad msg ct} h := by
    simp only [toy] at h ⊢
    split_ifs at h with hlen
    cases h
    rw [if_pos ⟨hlen.1, hlen.2.1⟩, ← hlen.2.2]
  nonce_unique {key nonce nonce' aad aad' msg msg' ct} h h' := by
    simp only [toy] at h h'
    split_ifs at h h'
    have heq : toySeal key nonce msg = toySeal key nonce' msg' := by
      rw [Option.some.inj h, Option.some.inj h']
    have hlen : msg.length = msg'.length := by
      have := congrArg List.length heq
      rwa [length_toySeal, length_toySeal, Nat.add_right_cancel_iff] at this
    have htail := (List.append_inj heq hlen).2
    exact List.Vector.toList_injective (List.append_inj htail (by simp)).1

end Crypto
