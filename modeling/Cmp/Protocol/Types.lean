import Cmp.Crypto.Ratchet

/-! `protocol::types`, `protocol::messages` and the constants of
`protocol::consts` that the modelled code reads. A base64 field is the pair of
what it decodes to and its length. -/

namespace Cmp.Protocol

open Cmp.Crypto

/-! ## Identifiers -/

/-- `char::is_whitespace`. -/
def isWhitespace (c : Char) : Bool :=
  let n := c.toNat
  (9 ≤ n && n ≤ 13) || n == 32 || n == 0x85 || n == 0xA0 || n == 0x1680 ||
    (0x2000 ≤ n && n ≤ 0x200A) || n == 0x2028 || n == 0x2029 || n == 0x202F || n == 0x205F ||
    n == 0x3000

/-- `u8::is_ascii_control` on an ASCII character. -/
def isAsciiControl (c : Char) : Bool := c.toNat < 32 || c.toNat == 127

/-- `str::contains("..")`. -/
def containsTraversal : List Char → Bool
  | '.' :: '.' :: _ => true
  | _ :: rest => containsTraversal rest
  | [] => false

/-- The checks of `UserId::new`, in order, with the text of `InvalidUserId`. -/
def checkUserId (id : String) : Except String Unit :=
  if id.toList.all isWhitespace then
    .error "user id cannot be empty or whitespace-only"
  else if id.utf8ByteSize > 128 then
    .error "user id exceeds 128 bytes"
  else if id.toList.any (fun c => 128 ≤ c.toNat) then
    .error "user id must be ASCII"
  else if id.toList.any isAsciiControl then
    .error "user id contains control characters"
  else if id.toList.contains '/' || id.toList.contains '\\' || containsTraversal id.toList then
    .error "user id contains invalid characters"
  else .ok ()

/-- A user id that `UserId::new` lets through. -/
structure UserId where
  text : String
  valid : checkUserId text = .ok ()

instance : DecidableEq UserId := fun a b =>
  decidable_of_iff (a.text = b.text) (by cases a; cases b; simp)

def UserId.new (id : String) : Except String UserId :=
  match h : checkUserId id with
  | .ok () => .ok ⟨id, h⟩
  | .error e => .error e

/-- A UUID. -/
structure MessageId where
  uuid : Nat
  deriving DecidableEq, Repr

/-! ## Base64 fields -/

/-- A text field by what `B64.decode` makes of it, and its length in bytes. -/
structure B64Text (α : Type) where
  decoded : Option α
  length : Nat
  deriving DecidableEq

/-- Length of the padded base64 text of `n` bytes. -/
def b64Len (n : Nat) : Nat := (n + 2) / 3 * 4

/-- `B64.encode`. -/
def b64Encode (bytes : Bytes) : B64Text Bytes := ⟨some bytes, b64Len bytes.length⟩

/-! ## Envelopes and bundles -/

structure ProtoRatchetHeader where
  ratchetKey : B64Text Bytes
  previousChainLength : UInt32
  messageNumber : UInt32
  deriving DecidableEq

inductive MessageHeader
  | preKey (senderIdentityKey senderEphemeralKey : B64Text Bytes)
      (recipientSignedPrekeyId : UInt32) (recipientOneTimePrekeyId : Option UInt32)
      (ratchet : ProtoRatchetHeader)
  | ratchet (header : ProtoRatchetHeader)
  deriving DecidableEq

def MessageHeader.isPreKey : MessageHeader → Bool
  | .preKey .. => true
  | .ratchet _ => false

structure EncryptedEnvelope (C : Type) where
  version : UInt32
  header : MessageHeader
  ciphertext : B64Text C
  deriving DecidableEq

/-- `protocol::OneTimePreKey`. -/
structure PublicOneTimePreKey where
  keyId : UInt32
  publicKey : B64Text Bytes
  deriving DecidableEq

structure PreKeyBundle where
  identityKey : B64Text Bytes
  signedPrekey : B64Text Bytes
  signedPrekeyId : UInt32
  signedPrekeySignature : B64Text Bytes
  oneTimePrekey : Option PublicOneTimePreKey
  deriving DecidableEq

structure InboundMessage (C : Type) where
  messageId : MessageId
  senderId : UserId
  envelope : EncryptedEnvelope C

/-! ## Messages -/

/-- The client messages that the durable outbox and the handlers send. -/
inductive ClientMessage (C : Type)
  | uploadPreKeys (uploadId : MessageId) (prekeys : List PublicOneTimePreKey)
  | rotateSignedPreKey (rotationId : MessageId) (keyId : UInt32)
      (publicKey signature : B64Text Bytes)
  | fetchPreKeyBundle (targetUserId : UserId)
  | sendMessage (recipientId : UserId) (messageId : MessageId) (envelope : EncryptedEnvelope C)
  | ack (ackId : MessageId) (messageIds : List MessageId)
  | ackMessageSent (messageIds : List MessageId)
  | sendReadReceipt (recipientId : UserId) (receiptId : MessageId)
      (envelope : EncryptedEnvelope C)
  | ackReadReceipt (ackId : MessageId) (receiptIds : List MessageId)
  | ackReadReceiptSent (receiptIds : List MessageId)
  deriving DecidableEq

/-! ## Constants -/

def PROTOCOL_VERSION : UInt32 := 2
def PREKEY_TARGET : Nat := 100
def ONE_TIME_PREKEY_PRIVATE_RETENTION_SECS : Nat := 61 * 24 * 60 * 60
def ONE_TIME_PREKEY_RESERVATION_SECS : Nat := 24 * 60 * 60
def SIGNED_PREKEY_ROTATION_SECS : Nat := 30 * 24 * 60 * 60
def MAX_CIPHERTEXT_BYTES : Nat := 512 * 1024
def MAX_RECEIPT_BATCH : Nat := 100
def MAX_PENDING_OUTBOUND_ITEMS : Nat := 1000
def MAX_PENDING_OUTBOUND_BYTES : Nat := 64 * 1024 * 1024
def MAX_PROCESSED_MESSAGES : Nat := 10000

end Cmp.Protocol
