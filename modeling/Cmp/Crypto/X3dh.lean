import Cmp.Crypto.Primitives

/-! Identity keys, prekeys and the X3DH key agreement of `crypto::keys` and
`crypto::x3dh`. -/

namespace Cmp.Crypto

abbrev Signature := List.Vector UInt8 64

/-- The primitives with Ed25519 and the X3DH use of HKDF. `Sec` also holds
identity secrets. -/
structure IdentitySuite (K Sec C : Type) extends Suite K Sec C where
  /-- HKDF-SHA-256 with info `CMP_X3DH` over the domain separator and these blocks. -/
  hkdfX3dh : List K → Except CryptoError K
  verifyingKey : Sec → Key32
  toX25519Secret : Sec → Sec
  verifyingKeyToX25519 : Key32 → Key32
  /-- `VerifyingKey::from_bytes` accepts these bytes. -/
  isVerifyingKey : Key32 → Bool
  sign : Sec → Bytes → Signature
  verify : Key32 → Bytes → Signature → Bool

structure SignedPreKey (Sec : Type) where
  keyId : UInt32
  secret : Sec
  publicKey : Key32
  signature : Signature

/-- A one-time prekey without its id, under which it is filed. -/
structure OneTimePreKey (Sec : Type) where
  secret : Sec
  publicKey : Key32

variable {K Sec C : Type}

def SignedPreKey.generate (S : IdentitySuite K Sec C) (keyId : UInt32) (identity drawn : Sec) :
    SignedPreKey Sec where
  keyId := keyId
  secret := drawn
  publicKey := S.toPublic drawn
  signature := S.sign identity (S.toPublic drawn).toList

def OneTimePreKey.generate (S : IdentitySuite K Sec C) (drawn : Sec) : OneTimePreKey Sec where
  secret := drawn
  publicKey := S.toPublic drawn

/-- The ids `start_id..end` from `start` on, one for each drawn secret. -/
def generateFrom (S : IdentitySuite K Sec C) : UInt32 → List Sec → List (UInt32 × OneTimePreKey Sec)
  | _, [] => []
  | start, drawn :: rest =>
    (start, OneTimePreKey.generate S drawn) :: generateFrom S (start + 1) rest

/-- `generate_one_time_prekeys`; `drawn` has one secret per key. -/
def generateOneTimePrekeys (S : IdentitySuite K Sec C) (startId : UInt32) (drawn : List Sec) :
    Except CryptoError (List (UInt32 × OneTimePreKey Sec)) :=
  if startId.toNat + drawn.length < UInt32.size then .ok (generateFrom S startId drawn)
  else .error (.invalidBundle "pre-key ID range overflow")

structure PeerPreKeyBundle where
  identityKey : Key32
  signedPrekey : Key32
  signedPrekeyId : UInt32
  signedPrekeySignature : Signature
  oneTimePrekey : Option (UInt32 × Key32)

structure X3dhInitResult (K : Type) where
  sharedSecret : K
  ephemeralPublic : Key32

def deriveX3dhSecret (S : IdentitySuite K Sec C) (dh1 dh2 dh3 : K) (dh4 : Option K) :
    Except CryptoError K :=
  S.hkdfX3dh ([dh1, dh2, dh3] ++ dh4.toList)

/-- Alice's side; `ephemeral` is the ephemeral secret that is drawn. -/
def aliceInitiate (S : IdentitySuite K Sec C) (aliceIdentity ephemeral : Sec)
    (bobBundle : PeerPreKeyBundle) : Except CryptoError (X3dhInitResult K) := do
  if S.verify bobBundle.identityKey bobBundle.signedPrekey.toList
    bobBundle.signedPrekeySignature then
    let aliceX25519Secret := S.toX25519Secret aliceIdentity
    let bobX25519Identity := S.verifyingKeyToX25519 bobBundle.identityKey
    let dh1 := S.diffieHellman aliceX25519Secret bobBundle.signedPrekey
    let dh2 := S.diffieHellman ephemeral bobX25519Identity
    let dh3 := S.diffieHellman ephemeral bobBundle.signedPrekey
    let dh4 := bobBundle.oneTimePrekey.map fun opk => S.diffieHellman ephemeral opk.2
    let sharedSecret ← deriveX3dhSecret S dh1 dh2 dh3 dh4
    pure ⟨sharedSecret, S.toPublic ephemeral⟩
  else
    throw .invalidSignature

def bobRespond (S : IdentitySuite K Sec C) (bobIdentity : Sec) (bobSignedPrekey : SignedPreKey Sec)
    (bobOneTimePrekey : Option (OneTimePreKey Sec)) (aliceIdentityKey aliceEphemeralKey : Key32) :
    Except CryptoError K :=
  let aliceX25519Identity := S.verifyingKeyToX25519 aliceIdentityKey
  let bobX25519Secret := S.toX25519Secret bobIdentity
  let dh1 := S.diffieHellman bobSignedPrekey.secret aliceX25519Identity
  let dh2 := S.diffieHellman bobX25519Secret aliceEphemeralKey
  let dh3 := S.diffieHellman bobSignedPrekey.secret aliceEphemeralKey
  let dh4 := bobOneTimePrekey.map fun pk => S.diffieHellman pk.secret aliceEphemeralKey
  deriveX3dhSecret S dh1 dh2 dh3 dh4

end Cmp.Crypto
