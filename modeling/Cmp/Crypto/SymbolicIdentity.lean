import Cmp.Crypto.X3dh
import Cmp.Crypto.Symbolic

/-! What X3DH needs of identity keys and signatures, and the suite of terms extended
by them. -/

namespace Cmp.Crypto

variable {K Sec C : Type}

/-- Signatures of a key verify under it, and both forms of an identity key agree. -/
structure IdentitySuite.Lawful (S : IdentitySuite K Sec C) : Prop where
  verifies : ∀ identity message, S.verify (S.verifyingKey identity) message
    (S.sign identity message) = true
  isKey : ∀ identity, S.isVerifyingKey (S.verifyingKey identity) = true
  montgomery : ∀ identity,
    S.verifyingKeyToX25519 (S.verifyingKey identity) = S.toPublic (S.toX25519Secret identity)
  x3dhTotal : ∀ dh1 dh2 dh3 dh4, ∃ secret, deriveX3dhSecret S dh1 dh2 dh3 dh4 = .ok secret

/-- The first 64 bytes of key and message. -/
def tagged (identity : Key32) (message : Bytes) : Signature :=
  ⟨(identity.toList ++ message ++ List.replicate 32 0).take 64, by
    simp only [List.length_take, List.length_append, List.length_replicate,
      List.Vector.toList_length]
    omega⟩

/-- The suite of terms; an identity secret is named by its public key, too. -/
def symbolicIdentity : IdentitySuite Term Key32 Ciphertext where
  toSuite := symbolic
  hkdfX3dh
    | [dh1, dh2, dh3] => .ok (.x3dh dh1 dh2 dh3)
    | [dh1, dh2, dh3, dh4] => .ok (.x3dhOneTime dh1 dh2 dh3 dh4)
    | _ => .error .kdfFailure
  verifyingKey identity := identity
  toX25519Secret identity := identity
  verifyingKeyToX25519 key := key
  isVerifyingKey _ := true
  sign := tagged
  verify key message signature := decide (signature = tagged key message)

theorem symbolicIdentity_lawful : symbolicIdentity.Lawful where
  verifies _ _ := decide_eq_true rfl
  isKey _ := rfl
  montgomery _ := rfl
  x3dhTotal _ _ _ dh4 := by
    cases dh4 with
    | none | some dh4 => exact ⟨_, rfl⟩

end Cmp.Crypto
