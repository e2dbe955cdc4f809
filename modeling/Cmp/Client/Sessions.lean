import Cmp.Client.Manager

/-! The outbound half of `crypto_mgr.rs` and `crypto_mgr_outbound.rs`: sessions from
bundles, encryption, the durable outbox and its confirmations. -/

namespace Cmp.Client

open Cmp.Crypto Cmp.Protocol Cmp.Lib

variable {K Sec C : Type}

/-- `b64_decode_fixed::<N>`. -/
def b64DecodeFixed (N : Nat) (encoded : B64Text Bytes) (error : ManagerError) :
    Except ManagerError (List.Vector UInt8 N) :=
  match encoded.decoded with
  | none => .error error
  | some bytes => if h : bytes.length = N then .ok ⟨bytes, h⟩ else .error .badBundle

/-- `persistence::restore_entry`. -/
def restoreEntry (sessions : HMap UserId (PeerSession K Sec)) (peerId : UserId)
    (previous : Option (PeerSession K Sec)) : HMap UserId (PeerSession K Sec) :=
  match previous with
  | some session => sessions.insert peerId session
  | none => sessions.erase peerId

def addPending (peerId : UserId) : ManagerM K Sec C Unit :=
  modify fun m => { m with pendingInits := insert peerId m.pendingInits }

/-! ## Sessions from bundles -/

/-- The decoding part of `init_session_from_bundle`. -/
def decodeBundle (S : IdentitySuite K Sec C) (bundle : PreKeyBundle) :
    Except ManagerError PeerPreKeyBundle := do
  let identityKey ← b64DecodeFixed 32 bundle.identityKey .badBundle
  if S.isVerifyingKey identityKey then
    let signedPrekey ← b64DecodeFixed 32 bundle.signedPrekey .badBundle
    let signature ← b64DecodeFixed 64 bundle.signedPrekeySignature .badBundle
    let oneTimePrekey ←
      match bundle.oneTimePrekey with
      | some otk => do
        let pk ← b64DecodeFixed 32 otk.publicKey .badBundle
        pure (some (otk.keyId, pk))
      | none => pure none
    pure
      { identityKey := identityKey
        signedPrekey := signedPrekey
        signedPrekeyId := bundle.signedPrekeyId
        signedPrekeySignature := signature
        oneTimePrekey := oneTimePrekey }
  else throw .badBundle

/-- The session `init_session_from_bundle` builds, before it is stored. -/
def sessionFromBundle (S : IdentitySuite K Sec C) (identity ephemeral drawn : Sec) (now : Nat)
    (bundle : PreKeyBundle) : Except ManagerError (PeerSession K Sec) := do
  let peerBundle ← decodeBundle S bundle
  match aliceInitiate S identity ephemeral peerBundle with
  | .error _ => throw .x3dhFailed
  | .ok x3dhResult =>
    match initializeAlice S.toSuite drawn x3dhResult.sharedSecret peerBundle.signedPrekey with
    | .error _ => throw .ratchetFailed
    | .ok session =>
      pure
        { ratchet := session
          prekeyHeader := some
            { ephemeralPublic := x3dhResult.ephemeralPublic
              recipientSignedPrekeyId := bundle.signedPrekeyId
              recipientOneTimePrekeyId := peerBundle.oneTimePrekey.map Prod.fst }
          prekeyExpiresAt := some (min (now + ONE_TIME_PREKEY_RESERVATION_SECS) (2 ^ 64 - 1)) }

def initSessionFromBundle (S : IdentitySuite K Sec C) (peerId : UserId) (bundle : PreKeyBundle)
    (ephemeral drawn : Sec) (now : Nat) (fails : Bool) : ManagerM K Sec C Unit := do
  let m ← get
  let session ← ofExcept (sessionFromBundle S m.identity ephemeral drawn now bundle)
  let previous := m.sessions.lookup peerId
  modify fun m => { m with sessions := m.sessions.insert peerId session }
  commitOr fails CryptoStore.saveCore
    (fun m => { m with sessions := restoreEntry m.sessions peerId previous }) .persistence
  modify fun m => { m with pendingInits := m.pendingInits.erase peerId }

def expireStalePrekeySession (peerId : UserId) (now : Nat) (fails : Bool) :
    ManagerM K Sec C Bool := do
  let m ← get
  match m.sessions.lookup peerId with
  | none => pure false
  | some session =>
    if session.prekeyHeader.isSome && session.prekeyExpiresAt.any
      (fun expiresAt => decide (expiresAt < now)) then
      modify fun m => { m with sessions := m.sessions.erase peerId }
      commitOr fails CryptoStore.saveCore
        (fun m => { m with sessions := m.sessions.insert peerId session }) .persistence
      pure true
    else pure false

/-- The bundle a client's keys are published in. -/
def publishedBundle (S : IdentitySuite K Sec C) (identity : Sec) (spk : SignedPreKey Sec)
    (opk : Option (UInt32 × OneTimePreKey Sec)) : PreKeyBundle where
  identityKey := b64Encode (S.verifyingKey identity).toList
  signedPrekey := b64Encode spk.publicKey.toList
  signedPrekeyId := spk.keyId
  signedPrekeySignature := b64Encode spk.signature.toList
  oneTimePrekey := opk.map fun entry => ⟨entry.1, b64Encode entry.2.publicKey.toList⟩

/-! ## Encryption -/

def protoHeader (header : RatchetHeader) : ProtoRatchetHeader where
  ratchetKey := b64Encode header.ratchetKey.toList
  previousChainLength := header.previousChainLength
  messageNumber := header.messageNumber

/-- The associated data of the next envelope of a session. -/
def PeerSession.envelopeAad (session : PeerSession K Sec) (identityPublic : Key32) : Bytes :=
  match session.prekeyHeader with
  | none => Aad.ratchet PROTOCOL_VERSION
  | some x3dhData =>
    Aad.prekey PROTOCOL_VERSION identityPublic x3dhData.ephemeralPublic
      x3dhData.recipientSignedPrekeyId x3dhData.recipientOneTimePrekeyId

/-- The envelope around a ratchet message of a session. -/
def PeerSession.wrap (S : IdentitySuite K Sec C) (session : PeerSession K Sec)
    (identityPublic : Key32) (message : RatchetMessage C) : EncryptedEnvelope C where
  version := PROTOCOL_VERSION
  header :=
    match session.prekeyHeader with
    | some x3dhData =>
      .preKey (b64Encode identityPublic.toList) (b64Encode x3dhData.ephemeralPublic.toList)
        x3dhData.recipientSignedPrekeyId x3dhData.recipientOneTimePrekeyId
        (protoHeader message.header)
    | none => .ratchet (protoHeader message.header)
  ciphertext := ⟨some message.ciphertext, b64Len (S.ciphertextLen message.ciphertext)⟩

/-- The session after an envelope has been made with it. -/
def PeerSession.used (session : PeerSession K Sec) (ratchet : SessionState K Sec) :
    PeerSession K Sec where
  ratchet := ratchet
  prekeyHeader := none
  prekeyExpiresAt := if session.prekeyHeader.isSome then none else session.prekeyExpiresAt

/-- Returns the session as it was and the new envelope. -/
def advanceEncryption (S : IdentitySuite K Sec C) (peerId : UserId) (plaintext : Bytes) :
    ManagerM K Sec C (PeerSession K Sec × EncryptedEnvelope C) := do
  let m ← get
  match m.sessions.lookup peerId with
  | none => throw .noSession
  | some original =>
    let identityPublic := S.verifyingKey m.identity
    match (encrypt S.toSuite plaintext (original.envelopeAad identityPublic)).run
      original.ratchet with
    | .ok message ratchet =>
      modify fun m => { m with sessions := m.sessions.insert peerId (original.used ratchet) }
      pure (original, original.wrap S identityPublic message)
    | .error _ ratchet =>
      modify fun m => { m with sessions := m.sessions.insert peerId { original with ratchet } }
      throw .ratchetFailed

/-- An unconfirmed first message to `recipientId`. -/
def PendingOutbound.awaitsAdmission (recipientId : UserId) : PendingOutbound C → Bool
  | .message pendingRecipient _ envelope =>
    pendingRecipient == recipientId && envelope.header.isPreKey
  | _ => false

/-- `push`, and the rollback of the two functions that encrypt. -/
def pushOutbound (pending : PendingOutbound C) (m : Manager K Sec C) : Manager K Sec C :=
  { m with pendingOutbound := m.pendingOutbound ++ [pending] }

def popOutbound (m : Manager K Sec C) : Manager K Sec C :=
  { m with pendingOutbound := m.pendingOutbound.dropLast }

def undoEncryption (peerId : UserId) (original : PeerSession K Sec) (m : Manager K Sec C) :
    Manager K Sec C :=
  popOutbound { m with sessions := m.sessions.insert peerId original }

/-- `persist_outbound` after a push. -/
def pushAndPersist (pending : PendingOutbound C) (fails : Bool)
    (rollback : Manager K Sec C → Manager K Sec C) : ManagerM K Sec C (ClientMessage C) := do
  modify (pushOutbound pending)
  commitOr fails
    (fun core => CryptoStore.saveCoreAndEnqueue core pending.correlationId pending)
    rollback .persistence
  pure pending.toClientMessage

def encryptMessage (S : IdentitySuite K Sec C) (peerId recipientId : UserId)
    (messageId : MessageId) (plaintext : Bytes) (fails : Bool) :
    ManagerM K Sec C (ClientMessage C) := do
  let m ← get
  if m.pendingOutbound.any (·.awaitsAdmission recipientId) then
    throw .awaitingPrekeyAdmission
  else
    ofExcept (ensureCapacity m.pendingOutbound plaintext.length)
    let advanced ← advanceEncryption S peerId plaintext
    pushAndPersist (.message recipientId messageId advanced.2) fails
      (undoEncryption peerId advanced.1)

/-- `serde_json::to_vec` of a list of UUID texts: brackets, quotes and commas around
36 characters each. -/
def receiptPlaintext (texts : List MessageId → Bytes) (messageIds : List MessageId) : Bytes :=
  texts (messageIds.take MAX_RECEIPT_BATCH)

/-- `texts` is the JSON of the id list, `receiptId` the new id. -/
def encryptReadReceipt (S : IdentitySuite K Sec C) (texts : List MessageId → Bytes)
    (peerId recipientId : UserId) (messageIds : List MessageId) (receiptId : MessageId)
    (fails : Bool) : ManagerM K Sec C (ClientMessage C) := do
  let plaintext := receiptPlaintext texts messageIds
  let estimatedCtLen := (plaintext.length + 18) / 3 * 4
  if estimatedCtLen > MAX_CIPHERTEXT_BYTES then
    throw .ratchetFailed
  else
    let m ← get
    ofExcept (ensureCapacity m.pendingOutbound plaintext.length)
    let advanced ← advanceEncryption S peerId plaintext
    pushAndPersist (.readReceipt recipientId receiptId advanced.2) fails
      (undoEncryption peerId advanced.1)

def queueAck (messageIds : List MessageId) (ackId : MessageId) (fails : Bool) :
    ManagerM K Sec C (ClientMessage C) := do
  let m ← get
  ofExcept (ensureCapacity m.pendingOutbound (messageIds.length * 36))
  pushAndPersist (.ack ackId messageIds) fails popOutbound

def queueReadReceiptAck (receiptIds : List MessageId) (ackId : MessageId) (fails : Bool) :
    ManagerM K Sec C (ClientMessage C) := do
  let m ← get
  ofExcept (ensureCapacity m.pendingOutbound (receiptIds.length * 36))
  pushAndPersist (.readReceiptAck ackId receiptIds) fails popOutbound

/-! ## Confirmations -/

/-- `iter().position(..)` with the item found. -/
def findItem (p : PendingOutbound C → Bool) (pending : List (PendingOutbound C)) :
    Option (Nat × PendingOutbound C) :=
  (pending.findIdx? p).bind fun index => pending[index]?.map fun item => (index, item)

def isMessage (messageId : MessageId) : PendingOutbound C → Bool
  | .message _ pendingId _ => pendingId == messageId
  | _ => false

def isReadReceipt (receiptId : MessageId) : PendingOutbound C → Bool
  | .readReceipt _ pendingId _ => pendingId == receiptId
  | _ => false

/-- Remove the item of one kind with this id, in memory and then in the store. -/
def confirmSent (p : PendingOutbound C → Bool) (id : MessageId) (fails : Bool) :
    ManagerM K Sec C Unit := do
  let m ← get
  match findItem p m.pendingOutbound with
  | none => pure ()
  | some (index, item) =>
    modify fun m => { m with pendingOutbound := m.pendingOutbound.eraseIdx index }
    commitOr fails (fun _ => CryptoStore.deleteOutbound id)
      (fun m => { m with pendingOutbound := m.pendingOutbound.insertIdx index item }) .other

def confirmMessageSent (messageId : MessageId) (fails : Bool) : ManagerM K Sec C Unit :=
  confirmSent (isMessage messageId) messageId fails

def confirmReadReceiptSent (receiptId : MessageId) (fails : Bool) : ManagerM K Sec C Unit :=
  confirmSent (isReadReceipt receiptId) receiptId fails

def rejectMessage (messageId : MessageId) (fails : Bool) : ManagerM K Sec C (Option UserId) := do
  let m ← get
  match findItem (isMessage messageId) m.pendingOutbound with
  | some (index, .message recipientId pendingId envelope) =>
    let previousSession := m.sessions.lookup recipientId
    modify fun m =>
      { m with
        sessions := m.sessions.erase recipientId
        pendingOutbound := m.pendingOutbound.eraseIdx index }
    commitOr fails (fun core => CryptoStore.saveCoreAndDeleteOutbound core messageId)
      (fun m =>
        { m with
          sessions := restoreEntry m.sessions recipientId previousSession
          pendingOutbound :=
            m.pendingOutbound.insertIdx index (.message recipientId pendingId envelope) }) .other
    pure (some recipientId)
  | _ => pure none

end Cmp.Client
