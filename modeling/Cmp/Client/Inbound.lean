import Cmp.Client.Sessions

/-! The inbound half of the manager: `crypto_mgr_decrypt.rs`, and from `crypto_mgr.rs`
the processed-message markers and their confirmations. The `None` case of
`processed_message_id` occurs in tests only and is left out. -/

namespace Cmp.Client

open Cmp.Crypto Cmp.Protocol Cmp.Lib

variable {K Sec C : Type}

inductive InboundDecrypt
  | pending (text : String)
  | duplicate
  | failed
  deriving DecidableEq

/-- Clock readings, drawn secret and refused store calls of one decryption. -/
structure DecryptEnv (Sec : Type) where
  now : Nat
  pruneNow : Nat
  markedAt : Nat
  drawn : Sec
  pruneFails : Bool
  persistFails : Bool

/-- `String::from_utf8(..)` with the replacement text. -/
def utf8Text (plaintext : Bytes) : String :=
  (String.fromUTF8? ⟨plaintext.toArray⟩).getD "[invalid utf-8]"

def decodeRatchetHeader (proto : ProtoRatchetHeader) : Except ManagerError RatchetHeader := do
  let ratchetKey ← b64DecodeFixed 32 proto.ratchetKey .badEnvelope
  pure ⟨ratchetKey, proto.previousChainLength, proto.messageNumber⟩

def decodeCiphertext (envelope : EncryptedEnvelope C) : Except ManagerError C :=
  match envelope.ciphertext.decoded with
  | some ciphertext => .ok ciphertext
  | none => .error .badEnvelope

/-! ## Markers -/

/-- Returns whether there was no marker before. -/
def markProcessed (key : UserId × MessageId) (plaintext : Bytes) (env : DecryptEnv Sec) :
    ManagerM K Sec C Bool := do
  modify fun m => { m with processedMessages := pruneProcessed m.processedMessages env.pruneNow }
  let m ← get
  modify fun m =>
    { m with
      processedMessages :=
        m.processedMessages.insert key ⟨some (utf8Text plaintext), env.markedAt⟩ }
  pure (m.processedMessages.lookup key).isNone

/-- The part of a rollback that `inserted_marker` guards. -/
def removeMarker (inserted : Bool) (key : UserId × MessageId) (m : Manager K Sec C) :
    Manager K Sec C :=
  if inserted then { m with processedMessages := m.processedMessages.erase key } else m

/-- `persist_decrypt`: the core row and the marker in one transaction. -/
def persistDecrypt (key : UserId × MessageId) (plaintext : Bytes) (env : DecryptEnv Sec)
    (rollback : Manager K Sec C → Manager K Sec C) : ManagerM K Sec C Unit :=
  commitOr env.persistFails
    (fun core => CryptoStore.saveCoreAndProcessed core key
      ⟨some (utf8Text plaintext), env.markedAt⟩)
    rollback .persistence

/-! ## Decryption -/

def decryptExisting (S : IdentitySuite K Sec C) (peerId : UserId) (header : RatchetHeader)
    (ciphertext : C) (envelopeAad : Bytes) (messageId : MessageId) (env : DecryptEnv Sec) :
    ManagerM K Sec C Bytes := do
  let m ← get
  match m.sessions.lookup peerId with
  | none => throw .noSession
  | some original =>
    match (decrypt S.toSuite env.drawn header ciphertext envelopeAad).run original.ratchet with
    | .error _ ratchet =>
      modify fun m => { m with sessions := m.sessions.insert peerId { original with ratchet } }
      throw .decryptFailed
    | .ok plaintext ratchet =>
      modify fun m => { m with sessions := m.sessions.insert peerId { original with ratchet } }
      let inserted ← markProcessed (peerId, messageId) plaintext env
      persistDecrypt (peerId, messageId) plaintext env fun m =>
        removeMarker inserted (peerId, messageId)
          { m with sessions := m.sessions.insert peerId original }
      pure plaintext

/-- `create_bob_session`. -/
def createBobSession (S : IdentitySuite K Sec C) (m : Manager K Sec C)
    (senderIdentityKey senderEphemeralKey : Key32) (expectedSpkId : UInt32)
    (opkId : Option UInt32) : Except ManagerError (SessionState K Sec) :=
  match (m.storedSpk.toList ++ m.previousSpks).find? (·.keyId == expectedSpkId) with
  | none => .error .badEnvelope
  | some spk =>
    if S.isVerifyingKey senderIdentityKey then
      let opk : Except ManagerError (Option (OneTimePreKey Sec)) :=
        match opkId with
        | some id =>
          match m.storedOpks.lookup id with
          | some opk => .ok (some opk)
          | none => .error .badEnvelope
        | none => .ok none
      match opk with
      | .error e => .error e
      | .ok opk =>
        match bobRespond S m.identity spk opk senderIdentityKey senderEphemeralKey with
        | .error _ => .error .x3dhFailed
        | .ok bobSecret => .ok (initializeBob bobSecret ⟨spk.secret, spk.publicKey⟩)
    else .error .badEnvelope

/-- `take_one_time_prekey`, on the id the envelope names. -/
def takeOneTimePrekey (opkId : Option UInt32) (m : Manager K Sec C) : Manager K Sec C :=
  match opkId with
  | some id =>
    match m.storedOpks.lookup id with
    | some _ =>
      { m with
        storedOpks := m.storedOpks.erase id
        oneTimePrekeyCreatedAt := m.oneTimePrekeyCreatedAt.erase id }
    | none => m
  | none => m

/-- `restore_one_time_prekey` with what `before` had under the id. -/
def restoreOneTimePrekey (opkId : Option UInt32) (before m : Manager K Sec C) : Manager K Sec C :=
  match opkId with
  | some id =>
    match before.storedOpks.lookup id with
    | some opk =>
      { m with
        storedOpks := m.storedOpks.insert id opk
        oneTimePrekeyCreatedAt :=
          match before.oneTimePrekeyCreatedAt.lookup id with
          | some createdAt => m.oneTimePrekeyCreatedAt.insert id createdAt
          | none => m.oneTimePrekeyCreatedAt }
    | none => m
  | none => m

/-- The end of `decrypt_prekey_envelope`, for a sender without a session. -/
def decryptFirst (S : IdentitySuite K Sec C) (peerId : UserId) (session : SessionState K Sec)
    (header : RatchetHeader) (ciphertext : C) (envelopeAad : Bytes) (opkId : Option UInt32)
    (messageId : MessageId) (env : DecryptEnv Sec) : ManagerM K Sec C Bytes := do
  match (decrypt S.toSuite env.drawn header ciphertext envelopeAad).run session with
  | .error _ _ => throw .decryptFailed
  | .ok plaintext ratchet =>
    let before ← get
    modify fun m => { m with sessions := m.sessions.insert peerId ⟨ratchet, none, none⟩ }
    modify (takeOneTimePrekey opkId)
    let inserted ← markProcessed (peerId, messageId) plaintext env
    persistDecrypt (peerId, messageId) plaintext env fun m =>
      removeMarker inserted (peerId, messageId)
        (restoreOneTimePrekey opkId before { m with sessions := m.sessions.erase peerId })
    pure plaintext

/-- The fields of a PreKey header, decoded in the order of the source. -/
structure PreKeyFields (C : Type) where
  header : RatchetHeader
  senderIdentityKey : Key32
  senderEphemeralKey : Key32
  envelopeAad : Bytes
  ciphertext : C

def decodePreKey (envelope : EncryptedEnvelope C)
    (senderIdentityKey senderEphemeralKey : B64Text Bytes) (spkId : UInt32)
    (opkId : Option UInt32) (ratchet : ProtoRatchetHeader) :
    Except ManagerError (PreKeyFields C) := do
  let header ← decodeRatchetHeader ratchet
  let identityKey ← b64DecodeFixed 32 senderIdentityKey .badEnvelope
  let ephemeralKey ← b64DecodeFixed 32 senderEphemeralKey .badEnvelope
  let ciphertext ← decodeCiphertext envelope
  pure
    { header := header
      senderIdentityKey := identityKey
      senderEphemeralKey := ephemeralKey
      envelopeAad := Aad.prekey envelope.version identityKey ephemeralKey spkId opkId
      ciphertext := ciphertext }

def decryptPrekeyEnvelope (S : IdentitySuite K Sec C) (peerId : UserId)
    (envelope : EncryptedEnvelope C) (messageId : MessageId) (env : DecryptEnv Sec) :
    ManagerM K Sec C Bytes := do
  match envelope.header with
  | .ratchet _ => throw .badEnvelope
  | .preKey senderIdentityKey senderEphemeralKey spkId opkId ratchet =>
    let fields ←
      ofExcept (decodePreKey envelope senderIdentityKey senderEphemeralKey spkId opkId ratchet)
    let m ← get
    if (m.sessions.lookup peerId).isSome then
      decryptExisting S peerId fields.header fields.ciphertext fields.envelopeAad messageId env
    else
      let session ← ofExcept
        (createBobSession S m fields.senderIdentityKey fields.senderEphemeralKey spkId opkId)
      decryptFirst S peerId session fields.header fields.ciphertext fields.envelopeAad opkId
        messageId env

def decryptRatchetEnvelope (S : IdentitySuite K Sec C) (peerId : UserId)
    (envelope : EncryptedEnvelope C) (ratchetHeader : ProtoRatchetHeader) (messageId : MessageId)
    (env : DecryptEnv Sec) : ManagerM K Sec C Bytes := do
  let header ← ofExcept (decodeRatchetHeader ratchetHeader)
  let ciphertext ← ofExcept (decodeCiphertext envelope)
  decryptExisting S peerId header ciphertext (Aad.ratchet envelope.version) messageId env

/-- The pruning at the start of `decrypt_with_marker`, store first. -/
def pruneMarkers (now : Nat) (fails : Bool) : ManagerM K Sec C Unit := do
  commitOr fails (fun _ => CryptoStore.prune (now - RETENTION_SECS)) id .persistence
  modify fun m => { m with processedMessages := pruneProcessed m.processedMessages now }

def decryptWithMarker (S : IdentitySuite K Sec C) (peerId : UserId)
    (envelope : EncryptedEnvelope C) (messageId : MessageId) (env : DecryptEnv Sec) :
    ManagerM K Sec C Bytes := do
  if envelope.version ≠ PROTOCOL_VERSION then
    throw (.unsupportedVersion envelope.version)
  else
    pruneMarkers env.now env.pruneFails
    let m ← get
    if HMap.size m.processedMessages ≥ MAX_PROCESSED_MESSAGES then
      throw .replayLedgerFull
    else
      match envelope.header with
      | .preKey .. => decryptPrekeyEnvelope S peerId envelope messageId env
      | .ratchet header => decryptRatchetEnvelope S peerId envelope header messageId env

def decryptMessageToText (S : IdentitySuite K Sec C) (peerId : UserId) (messageId : MessageId)
    (envelope : EncryptedEnvelope C) (env : DecryptEnv Sec) : ManagerM K Sec C InboundDecrypt := do
  if envelope.version ≠ PROTOCOL_VERSION then
    pure .failed
  else
    let m ← get
    match m.processedMessages.lookup (peerId, messageId) with
    | some processed =>
      match processed.pendingPlaintext with
      | none => pure .duplicate
      | some text => pure (.pending text)
    | none =>
      match (decryptWithMarker S peerId envelope messageId env).run m with
      | .ok plaintext m' =>
        set m'
        pure (.pending (utf8Text plaintext))
      | .error _ m' =>
        set m'
        pure .failed

/-! ## Confirmations -/

def confirmInboundStored (peerId : UserId) (messageId : MessageId) (fails : Bool) :
    ManagerM K Sec C Unit := do
  let m ← get
  match m.processedMessages.lookup (peerId, messageId) with
  | none => pure ()
  | some processed =>
    modify fun m =>
      { m with
        processedMessages :=
          m.processedMessages.insert (peerId, messageId)
            { processed with pendingPlaintext := none } }
    commitOr fails (fun _ => CryptoStore.markProcessedCommitted (peerId, messageId))
      (fun m =>
        { m with
          processedMessages := m.processedMessages.insert (peerId, messageId) processed }) .other

/-- The ids an acknowledgement item waits for. -/
def PendingOutbound.ackedIds (ackId : MessageId) : PendingOutbound C → Option (List MessageId)
  | .ack pendingId messageIds => if pendingId = ackId then some messageIds else none
  | .readReceiptAck pendingId receiptIds => if pendingId = ackId then some receiptIds else none
  | _ => none

def confirmAcked (ackId : MessageId) (messageIds : List MessageId) (fails : Bool) :
    ManagerM K Sec C Unit := do
  let m ← get
  match findItem (fun item => (item.ackedIds ackId).isSome) m.pendingOutbound with
  | none => pure ()
  | some (index, item) =>
    if item.ackedIds ackId ≠ some messageIds then
      pure ()
    else
      let previous := m.processedMessages
      modify fun m =>
        { m with
          pendingOutbound := m.pendingOutbound.eraseIdx index
          processedMessages :=
            HMap.filter (fun key _ => decide (key.2 ∉ messageIds)) m.processedMessages }
      commitOr fails (fun _ => CryptoStore.confirmAck ackId messageIds)
        (fun m =>
          { m with
            processedMessages := previous
            pendingOutbound := m.pendingOutbound.insertIdx index item }) .other

end Cmp.Client
