import Cmp.Client.Prekeys

/-! The operations of the manager as data, and its runs: operations with any store
call refused, and restarts. A crash inside an operation is the operation with the
store calls after that point refused, followed by a restart. -/

namespace Cmp.Client

open Cmp.Crypto Cmp.Protocol Cmp.Lib Cmp.Lib.Action

variable {K Sec C : Type}

inductive Op (Sec C : Type)
  | addPending (peerId : UserId)
  | initSessionFromBundle (peerId : UserId) (bundle : PreKeyBundle) (ephemeral drawn : Sec)
      (now : Nat) (fails : Bool)
  | expireStalePrekeySession (peerId : UserId) (now : Nat) (fails : Bool)
  | encryptMessage (peerId recipientId : UserId) (messageId : MessageId) (plaintext : Bytes)
      (fails : Bool)
  | encryptReadReceipt (peerId recipientId : UserId) (messageIds : List MessageId)
      (receiptId : MessageId) (fails : Bool)
  | queueAck (messageIds : List MessageId) (ackId : MessageId) (fails : Bool)
  | queueReadReceiptAck (receiptIds : List MessageId) (ackId : MessageId) (fails : Bool)
  | confirmMessageSent (messageId : MessageId) (fails : Bool)
  | confirmReadReceiptSent (receiptId : MessageId) (fails : Bool)
  | rejectMessage (messageId : MessageId) (fails : Bool)
  | decryptMessageToText (peerId : UserId) (messageId : MessageId)
      (envelope : EncryptedEnvelope C) (env : DecryptEnv Sec)
  | confirmInboundStored (peerId : UserId) (messageId : MessageId) (fails : Bool)
  | confirmAcked (ackId : MessageId) (messageIds : List MessageId) (fails : Bool)
  | persistRegistrationKeys (spk : SignedPreKey Sec) (opks : List (UInt32 × OneTimePreKey Sec))
      (rotatedAt createdAt : Nat) (fails : Bool)
  | queueSignedPrekeyRotation (now : Nat) (drawn : Sec) (rotationId : MessageId) (fails : Bool)
  | confirmSignedPrekeyRotated (rotationId : MessageId) (accepted previouslyAccepted : Bool)
      (currentKeyId : UInt32) (now : Nat) (drawn : Sec) (newId : MessageId) (fails : Bool)
  | queuePrekeyReplenishment (env : UploadEnv Sec)
  | confirmPrekeysUploaded (uploadId : MessageId) (accepted : Bool) (remaining : UInt32)
      (env : UploadEnv Sec) (fails : Bool)

/-- An operation, with the client messages it hands to its caller; `texts` is the
JSON of a list of ids. -/
def perform (S : IdentitySuite K Sec C) (texts : List MessageId → Bytes) :
    Op Sec C → ManagerM K Sec C (List (ClientMessage C))
  | .addPending peerId => (fun _ => []) <$> addPending peerId
  | .initSessionFromBundle peerId bundle ephemeral drawn now fails =>
    (fun _ => []) <$> initSessionFromBundle S peerId bundle ephemeral drawn now fails
  | .expireStalePrekeySession peerId now fails =>
    (fun _ => []) <$> expireStalePrekeySession peerId now fails
  | .encryptMessage peerId recipientId messageId plaintext fails =>
    (fun message => [message]) <$> encryptMessage S peerId recipientId messageId plaintext fails
  | .encryptReadReceipt peerId recipientId messageIds receiptId fails =>
    (fun message => [message]) <$>
      encryptReadReceipt S texts peerId recipientId messageIds receiptId fails
  | .queueAck messageIds ackId fails =>
    (fun message => [message]) <$> queueAck messageIds ackId fails
  | .queueReadReceiptAck receiptIds ackId fails =>
    (fun message => [message]) <$> queueReadReceiptAck receiptIds ackId fails
  | .confirmMessageSent messageId fails => (fun _ => []) <$> confirmMessageSent messageId fails
  | .confirmReadReceiptSent receiptId fails =>
    (fun _ => []) <$> confirmReadReceiptSent receiptId fails
  | .rejectMessage messageId fails => (fun _ => []) <$> rejectMessage messageId fails
  | .decryptMessageToText peerId messageId envelope env =>
    (fun _ => []) <$> decryptMessageToText S peerId messageId envelope env
  | .confirmInboundStored peerId messageId fails =>
    (fun _ => []) <$> confirmInboundStored peerId messageId fails
  | .confirmAcked ackId messageIds fails => (fun _ => []) <$> confirmAcked ackId messageIds fails
  | .persistRegistrationKeys spk opks rotatedAt createdAt fails =>
    (fun _ => []) <$> persistRegistrationKeys spk opks rotatedAt createdAt fails
  | .queueSignedPrekeyRotation now drawn rotationId fails =>
    (fun _ => []) <$> queueSignedPrekeyRotation S now drawn rotationId fails
  | .confirmSignedPrekeyRotated rotationId accepted previouslyAccepted currentKeyId now drawn newId
      fails =>
    Option.toList <$> confirmSignedPrekeyRotated S rotationId accepted previouslyAccepted
      currentKeyId now drawn newId fails
  | .queuePrekeyReplenishment env => (fun message => [message]) <$> queuePrekeyReplenishment S env
  | .confirmPrekeysUploaded uploadId accepted remaining env fails =>
    Option.toList <$> confirmPrekeysUploaded S uploadId accepted remaining env fails

/-- The ratchet secrets an operation draws. -/
def Op.ratchetSecrets : Op Sec C → List Sec
  | .initSessionFromBundle _ _ _ drawn _ _ => [drawn]
  | .decryptMessageToText _ _ _ env => [env.drawn]
  | _ => []

/-- What an operation makes a new upload from. -/
def Op.uploadEnv? : Op Sec C → Option (UploadEnv Sec)
  | .queuePrekeyReplenishment env => some env
  | .confirmPrekeysUploaded _ _ _ env _ => some env
  | _ => none

/-- The latest clock reading by which an operation prunes markers. -/
def Op.prunesAt : Op Sec C → Nat
  | .decryptMessageToText _ _ _ env => max env.now env.pruneNow
  | _ => 0

/-- Recipient and envelope of a client message that carries a ciphertext. -/
def sealedTo : ClientMessage C → Option (UserId × EncryptedEnvelope C)
  | .sendMessage recipientId _ envelope => some (recipientId, envelope)
  | .sendReadReceipt recipientId _ envelope => some (recipientId, envelope)
  | _ => none

/-- The ciphertexts in the durable outbox. -/
def CryptoStore.sealed (st : CryptoStore K Sec C) : List (UserId × EncryptedEnvelope C) :=
  st.outbox.filterMap fun row => sealedTo row.2.toClientMessage

/-- A manager with what its run has done so far: the envelopes returned by the calls
that made them, every envelope returned or seen in the durable outbox, the public
keys of the ratchet secrets drawn, and the latest reading used to prune markers. -/
structure Trace (K Sec C : Type) where
  manager : Manager K Sec C
  sent : List (UserId × EncryptedEnvelope C)
  released : List (UserId × EncryptedEnvelope C)
  ratchetKeys : List Key32
  prunedAt : Nat

/-- The trace after an operation that returned `messages` and left `m`. -/
def Trace.extend (S : IdentitySuite K Sec C) (t : Trace K Sec C) (op : Op Sec C)
    (messages : List (ClientMessage C)) (m : Manager K Sec C) : Trace K Sec C where
  manager := m
  sent := t.sent ++ messages.filterMap sealedTo
  released := t.released ++ messages.filterMap sealedTo ++ m.store.sealed
  ratchetKeys := t.ratchetKeys ++ op.ratchetSecrets.map S.toPublic
  prunedAt := max t.prunedAt op.prunesAt

/-- An operation that fails returns nothing. -/
def Trace.step (S : IdentitySuite K Sec C) (texts : List MessageId → Bytes) (t : Trace K Sec C)
    (op : Op Sec C) : Trace K Sec C :=
  let result := (perform S texts op).run t.manager
  t.extend S op ((value? result).getD []) (finalState result)

/-- The trace after a restart that loaded `m`. -/
def Trace.restart (t : Trace K Sec C) (cutoffNow pruneNow : Nat) (m : Manager K Sec C) :
    Trace K Sec C :=
  { t with
    manager := m
    released := t.released ++ m.store.sealed
    prunedAt := max t.prunedAt (max cutoffNow pruneNow) }

def CryptoStore.empty (K Sec C : Type) : CryptoStore K Sec C := ⟨none, [], ∅⟩

/-- Runs of one client from an empty data directory. -/
inductive ManagerRun (S : IdentitySuite K Sec C) (texts : List MessageId → Bytes) :
    Trace K Sec C → Prop
  | start (identity : Sec) (loadedAt cutoffNow pruneNow : Nat) (m : Manager K Sec C)
      (hload :
        loadOrGenerate identity (CryptoStore.empty K Sec C) loadedAt cutoffNow pruneNow false =
        .ok m) :
      ManagerRun S texts ⟨m, [], [], [], 0⟩
  | op {t : Trace K Sec C} (run : ManagerRun S texts t) (op : Op Sec C) :
      ManagerRun S texts (t.step S texts op)
  | restart {t : Trace K Sec C} (run : ManagerRun S texts t)
      (loadedAt cutoffNow pruneNow : Nat) (m : Manager K Sec C)
      (hload : loadOrGenerate t.manager.identity t.manager.store loadedAt cutoffNow pruneNow false =
        .ok m) :
      ManagerRun S texts (t.restart cutoffNow pruneNow m)

end Cmp.Client
