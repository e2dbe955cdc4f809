import Cmp.Crypto.X3dh
import Cmp.Protocol.Types
import Cmp.Lib.UInt32
import Mathlib.Algebra.GroupWithZero.Nat

/-! What the client keeps durably: the tables of `crypto_store.rs`, the outbox items
of `crypto_outbox.rs` and the markers of `crypto_replay.rs`. Every store call is
one transaction; one that breaks a constraint fails as a whole. -/

namespace Cmp.Client

open Cmp.Crypto Cmp.Protocol Cmp.Lib

/-- What comes out of a store call or a `bail!` as `anyhow::Error`. -/
inductive Failure
  | unavailable
  | constraint
  | text (message : String)
  deriving DecidableEq, Repr

/-- `crypto_mgr::CryptoError`, and `anyhow::Error` where a function returns it. -/
inductive ManagerError
  | badBundle
  | badEnvelope
  | unsupportedVersion (version : UInt32)
  | x3dhFailed
  | ratchetFailed
  | noSession
  | decryptFailed
  | persistence (source : Failure)
  | outboxFull
  | awaitingPrekeyAdmission
  | replayLedgerFull
  | other (source : Failure)
  deriving DecidableEq, Repr

/-! ## Sessions and the core row -/

structure StoredX3dhResult where
  ephemeralPublic : Key32
  recipientSignedPrekeyId : UInt32
  recipientOneTimePrekeyId : Option UInt32

structure PeerSession (K Sec : Type) where
  ratchet : SessionState K Sec
  prekeyHeader : Option StoredX3dhResult
  prekeyExpiresAt : Option Nat

/-- The JSON of the `core_state` row. -/
structure CoreState (K Sec : Type) where
  signedPrekey : Option (SignedPreKey Sec)
  previousSignedPrekeys : List (SignedPreKey Sec)
  signedPrekeyRotatedAt : Nat
  nextSignedPrekeyId : Option UInt32
  oneTimePrekeys : HMap UInt32 (OneTimePreKey Sec)
  sessions : HMap UserId (PeerSession K Sec)
  nextOneTimePrekeyId : Option UInt32
  oneTimePrekeyCreatedAt : HMap UInt32 Nat

/-- `CoreState::default`. -/
def CoreState.empty (K Sec : Type) : CoreState K Sec where
  signedPrekey := none
  previousSignedPrekeys := []
  signedPrekeyRotatedAt := 0
  nextSignedPrekeyId := none
  oneTimePrekeys := ∅
  sessions := ∅
  nextOneTimePrekeyId := none
  oneTimePrekeyCreatedAt := ∅

/-! ## Outbox -/

inductive PendingOutbound (C : Type)
  | message (recipientId : UserId) (messageId : MessageId) (envelope : EncryptedEnvelope C)
  | readReceipt (recipientId : UserId) (receiptId : MessageId) (envelope : EncryptedEnvelope C)
  | ack (ackId : MessageId) (messageIds : List MessageId)
  | readReceiptAck (ackId : MessageId) (receiptIds : List MessageId)
  | preKeyUpload (uploadId : MessageId) (prekeys : List PublicOneTimePreKey)
  | signedPreKeyRotation (rotationId : MessageId) (keyId : UInt32)
      (publicKey signature : B64Text Bytes)
  deriving DecidableEq

variable {K Sec C : Type}

namespace PendingOutbound

def toClientMessage : PendingOutbound C → ClientMessage C
  | .message recipientId messageId envelope => .sendMessage recipientId messageId envelope
  | .readReceipt recipientId receiptId envelope => .sendReadReceipt recipientId receiptId envelope
  | .ack ackId messageIds => .ack ackId messageIds
  | .readReceiptAck ackId receiptIds => .ackReadReceipt ackId receiptIds
  | .preKeyUpload uploadId prekeys => .uploadPreKeys uploadId prekeys
  | .signedPreKeyRotation rotationId keyId publicKey signature =>
    .rotateSignedPreKey rotationId keyId publicKey signature

def ciphertextLen : PendingOutbound C → Nat
  | .message _ _ envelope => envelope.ciphertext.length
  | .readReceipt _ _ envelope => envelope.ciphertext.length
  | .ack _ messageIds => messageIds.length * 36
  | .readReceiptAck _ receiptIds => receiptIds.length * 36
  | .preKeyUpload _ prekeys => prekeys.length * 48
  | .signedPreKeyRotation _ _ publicKey signature => publicKey.length + signature.length

def correlationId : PendingOutbound C → MessageId
  | .message _ messageId _ => messageId
  | .readReceipt _ receiptId _ => receiptId
  | .ack ackId _ => ackId
  | .readReceiptAck ackId _ => ackId
  | .preKeyUpload uploadId _ => uploadId
  | .signedPreKeyRotation rotationId _ _ _ => rotationId

/-- The envelope of an item that carries a ciphertext. -/
def envelope? : PendingOutbound C → Option (EncryptedEnvelope C)
  | .message _ _ envelope => some envelope
  | .readReceipt _ _ envelope => some envelope
  | _ => none

end PendingOutbound

def ensureCapacity (pending : List (PendingOutbound C)) (additionalPlaintextBytes : Nat) :
    Except ManagerError Unit :=
  if pending.length ≥ MAX_PENDING_OUTBOUND_ITEMS then .error .outboxFull
  else
    let currentBytes := (pending.map PendingOutbound.ciphertextLen).sum
    let additionalBytes := (additionalPlaintextBytes + 18) / 3 * 4
    if currentBytes + additionalBytes > MAX_PENDING_OUTBOUND_BYTES then .error .outboxFull
    else .ok ()

/-! ## Processed messages -/

def RETENTION_SECS : Nat := 31 * 24 * 60 * 60

structure ProcessedMessage where
  pendingPlaintext : Option String
  processedAt : Nat
  deriving DecidableEq

/-- Markers by peer and message. -/
abbrev ProcessedMap := HMap (UserId × MessageId) ProcessedMessage

/-- The markers at or after `cutoff`. -/
def keepFrom (cutoff : Nat) (processed : ProcessedMap) : ProcessedMap :=
  HMap.filter (fun _ message => decide (cutoff ≤ message.processedAt)) processed

/-- `crypto_replay::prune_processed`. -/
def pruneProcessed (processed : ProcessedMap) (now : Nat) : ProcessedMap :=
  keepFrom (now - RETENTION_SECS) processed

/-! ## The store -/

/-- The three tables; the outbox rows in order of `sequence`. -/
structure CryptoStore (K Sec C : Type) where
  core : Option (CoreState K Sec)
  outbox : List (MessageId × PendingOutbound C)
  processed : ProcessedMap

namespace CryptoStore

def saveCore (core : CoreState K Sec) (st : CryptoStore K Sec C) : Option (CryptoStore K Sec C) :=
  some { st with core := some core }

/-- The outbox insert, which `UNIQUE` may refuse. -/
def enqueue (id : MessageId) (outbound : PendingOutbound C) (st : CryptoStore K Sec C) :
    Option (CryptoStore K Sec C) :=
  if id ∈ st.outbox.map Prod.fst then none
  else some { st with outbox := st.outbox ++ [(id, outbound)] }

def deleteOutbound (id : MessageId) (st : CryptoStore K Sec C) : Option (CryptoStore K Sec C) :=
  some { st with outbox := st.outbox.filter fun row => row.1 ≠ id }

def saveCoreAndEnqueue (core : CoreState K Sec) (id : MessageId) (outbound : PendingOutbound C)
    (st : CryptoStore K Sec C) : Option (CryptoStore K Sec C) :=
  (st.saveCore core).bind (·.enqueue id outbound)

/-- The primary key refuses a second marker. -/
def saveCoreAndProcessed (core : CoreState K Sec) (key : UserId × MessageId)
    (row : ProcessedMessage) (st : CryptoStore K Sec C) : Option (CryptoStore K Sec C) :=
  if (st.processed.lookup key).isSome then none
  else some { st with core := some core, processed := st.processed.insert key row }

def markProcessedCommitted (key : UserId × MessageId) (st : CryptoStore K Sec C) :
    Option (CryptoStore K Sec C) :=
  match st.processed.lookup key with
  | some row =>
    some { st with processed := st.processed.insert key { row with pendingPlaintext := none } }
  | none => some st

def saveCoreAndDeleteOutbound (core : CoreState K Sec) (id : MessageId)
    (st : CryptoStore K Sec C) : Option (CryptoStore K Sec C) :=
  (st.saveCore core).bind (·.deleteOutbound id)

def saveCoreAndReplaceOutbound (core : CoreState K Sec) (oldId newId : MessageId)
    (outbound : PendingOutbound C) (st : CryptoStore K Sec C) : Option (CryptoStore K Sec C) :=
  ((st.saveCore core).bind (·.deleteOutbound oldId)).bind (·.enqueue newId outbound)

def confirmAck (ackId : MessageId) (messageIds : List MessageId) (st : CryptoStore K Sec C) :
    Option (CryptoStore K Sec C) :=
  (st.deleteOutbound ackId).map fun st =>
    { st with processed := HMap.filter (fun key _ => decide (key.2 ∉ messageIds)) st.processed }

def prune (cutoff : Nat) (st : CryptoStore K Sec C) : Option (CryptoStore K Sec C) :=
  some { st with processed := keepFrom cutoff st.processed }

end CryptoStore

end Cmp.Client
