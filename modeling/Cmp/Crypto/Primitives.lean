import Mathlib.Data.Vector.Basic
import Mathlib.Data.Finmap

/-! Byte strings, errors and the primitives the `crypto` crate takes from other
crates: HKDF and HMAC, AES-256-GCM behind `aead`, and X25519. They are the
fields of a `Suite`, so that the ratchet above is one definition for every
instance of them. -/

namespace Cmp.Crypto

abbrev Bytes := List UInt8

/-- `[u8; 32]` where the bytes are public: ratchet, prekey and identity keys. -/
abbrev Key32 := List.Vector UInt8 32

/-- `crypto::error::CryptoError`. -/
inductive CryptoError
  | invalidSignature
  | invalidBundle (reason : String)
  | encryptionFailed
  | decryptionFailed
  | noSession
  | skippedKeyLimitExceeded
  | kdfFailure
  | messageCounterExhausted
  deriving DecidableEq, Repr

/-- `K` holds the 32-byte secrets (root, chain and message keys, DH outputs),
`Sec` the X25519 secrets and `C` the AEAD ciphertexts. -/
structure Suite (K Sec C : Type) where
  /-- HKDF-SHA-256 with info `CMP_RATCHET`, the 64 output bytes as two halves. -/
  hkdfRatchet : K → K → Except CryptoError (K × K)
  /-- HMAC-SHA-256 of one byte. -/
  hmacSha256 : K → UInt8 → Except CryptoError K
  /-- `aead::encrypt`: message key, plaintext, associated data. -/
  aeadEncrypt : K → Bytes → Bytes → Except CryptoError C
  /-- `aead::decrypt`: message key, ciphertext, associated data. -/
  aeadDecrypt : K → C → Bytes → Except CryptoError Bytes
  /-- Length of a ciphertext in bytes. -/
  ciphertextLen : C → Nat
  diffieHellman : Sec → Key32 → K
  toPublic : Sec → Key32

structure RootKeyOutput (K : Type) where
  rootKey : K
  chainKey : K

structure ChainKeyOutput (K : Type) where
  chainKey : K
  messageKey : K

variable {K Sec C : Type}

def kdfRk (S : Suite K Sec C) (rootKey dhOutput : K) :
    Except CryptoError (RootKeyOutput K) := do
  let output ← S.hkdfRatchet rootKey dhOutput
  pure ⟨output.1, output.2⟩

def kdfCk (S : Suite K Sec C) (chainKey : K) : Except CryptoError (ChainKeyOutput K) := do
  let messageKey ← S.hmacSha256 chainKey 0x01
  let newChainKey ← S.hmacSha256 chainKey 0x02
  pure ⟨newChainKey, messageKey⟩

structure RatchetKeyPair (Sec : Type) where
  secretBytes : Sec
  publicBytes : Key32

/-- `RatchetKeyPair::generate`, with the drawn secret as an argument. -/
def RatchetKeyPair.generate (S : Suite K Sec C) (drawn : Sec) : RatchetKeyPair Sec :=
  ⟨drawn, S.toPublic drawn⟩

end Cmp.Crypto
