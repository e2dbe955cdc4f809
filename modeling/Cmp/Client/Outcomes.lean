import Cmp.Client.Ops
import Cmp.Crypto.RatchetSteps

/-! What an operation can do to the manager: either nothing, or one of the changes
of `Outcome`. A failed operation has put back everything it wrote, so that its
outcome is `idle`; the only traces it may leave are pruned markers, and a new upload
beside one whose deletion failed. -/

namespace Cmp.Client

open Cmp.Crypto Cmp.Protocol Cmp.Lib Cmp.Lib.Action

variable {K Sec C : Type}

/-! ## Changes that reach the store -/

/-- The core row written from memory. -/
def Manager.saved (m : Manager K Sec C) : Manager K Sec C :=
  { m with store := { m.store with core := some m.coreState } }

/-- An item at the end of both outboxes, with the core row. -/
def Manager.filed (item : PendingOutbound C) (m : Manager K Sec C) : Manager K Sec C :=
  { m with
    pendingOutbound := m.pendingOutbound ++ [item]
    store :=
      { m.store with
        core := some m.coreState
        outbox := m.store.outbox ++ [(item.correlationId, item)] } }

/-- The item at `index` gone from memory, the row of `id` from the store. -/
def Manager.unfiled (index : Nat) (id : MessageId) (m : Manager K Sec C) : Manager K Sec C :=
  { m with
    pendingOutbound := m.pendingOutbound.eraseIdx index
    store := { m.store with outbox := m.store.outbox.filter fun row => row.1 ≠ id } }

/-- Old markers gone on both sides. -/
def Manager.pruned (now : Nat) (m : Manager K Sec C) : Manager K Sec C :=
  { m with
    processedMessages := pruneProcessed m.processedMessages now
    store := { m.store with processed := keepFrom (now - RETENTION_SECS) m.store.processed } }

/-- Old markers gone in memory only. -/
def Manager.prunedInMemory (now : Nat) (m : Manager K Sec C) : Manager K Sec C :=
  { m with processedMessages := pruneProcessed m.processedMessages now }

/-- A new marker on both sides, with the core row. -/
def Manager.marked (key : UserId × MessageId) (row : ProcessedMessage) (m : Manager K Sec C) :
    Manager K Sec C :=
  { m with
    processedMessages := m.processedMessages.insert key row
    store :=
      { m.store with core := some m.coreState, processed := m.store.processed.insert key row } }

/-- The marker an authenticated plaintext gets. -/
def DecryptEnv.row (env : DecryptEnv Sec) (plaintext : Bytes) : ProcessedMessage :=
  ⟨some (utf8Text plaintext), env.markedAt⟩

/-- The manager after a decryption that gave `session`, before the marker. -/
def Manager.opened (peerId : UserId) (session : PeerSession K Sec) (opkId : Option UInt32)
    (env : DecryptEnv Sec) (m : Manager K Sec C) : Manager K Sec C :=
  takeOneTimePrekey opkId
    { (m.pruned env.now).prunedInMemory env.pruneNow with
      sessions := m.sessions.insert peerId session }

/-- What `decrypt_with_marker` hands to the ratchet. -/
def envelopeParts (envelope : EncryptedEnvelope C) :
    Except ManagerError (RatchetHeader × C × Bytes) :=
  match envelope.header with
  | .preKey identityKey ephemeralKey spkId opkId proto => do
    let fields ← decodePreKey envelope identityKey ephemeralKey spkId opkId proto
    pure (fields.header, fields.ciphertext, fields.envelopeAad)
  | .ratchet proto => do
    let header ← decodeRatchetHeader proto
    let ciphertext ← decodeCiphertext envelope
    pure (header, ciphertext, Aad.ratchet envelope.version)

theorem envelopeParts_preKey {envelope : EncryptedEnvelope C}
    {identityKey ephemeralKey : B64Text Bytes} {spkId : UInt32} {opkId : Option UInt32}
    {proto : ProtoRatchetHeader} {fields : PreKeyFields C}
    (hheader : envelope.header = .preKey identityKey ephemeralKey spkId opkId proto)
    (hfields : decodePreKey envelope identityKey ephemeralKey spkId opkId proto = .ok fields) :
    envelopeParts envelope = .ok (fields.header, fields.ciphertext, fields.envelopeAad) := by
  unfold envelopeParts
  rw [hheader]
  exact (bind_eq_ok _ _ _).mpr ⟨fields, hfields, rfl⟩

/-- The plaintext and the session of a successful decryption, with the one-time
prekey it names: for a peer with a session, and for one without. -/
inductive Opens (S : IdentitySuite K Sec C) (m : Manager K Sec C) (peerId : UserId)
    (envelope : EncryptedEnvelope C) (drawn : Sec) :
    Bytes → PeerSession K Sec → Option UInt32 → Prop
  | existing (original : PeerSession K Sec) (header : RatchetHeader) (ciphertext : C)
      (aad plaintext : Bytes) (ratchet : SessionState K Sec)
      (hparts : envelopeParts envelope = .ok (header, ciphertext, aad))
      (hsession : m.sessions.lookup peerId = some original)
      (hopen : (decrypt S.toSuite drawn header ciphertext aad).run original.ratchet =
        .ok plaintext ratchet) :
      Opens S m peerId envelope drawn plaintext { original with ratchet := ratchet } none
  | first (identityKey ephemeralKey : B64Text Bytes) (spkId : UInt32) (opkId : Option UInt32)
      (proto : ProtoRatchetHeader) (fields : PreKeyFields C) (session ratchet : SessionState K Sec)
      (plaintext : Bytes)
      (hheader : envelope.header = .preKey identityKey ephemeralKey spkId opkId proto)
      (hfields : decodePreKey envelope identityKey ephemeralKey spkId opkId proto = .ok fields)
      (hnone : m.sessions.lookup peerId = none)
      (hbob : createBobSession S m fields.senderIdentityKey fields.senderEphemeralKey spkId opkId =
        .ok session)
      (hopen : (decrypt S.toSuite drawn fields.header fields.ciphertext
        fields.envelopeAad).run session = .ok plaintext ratchet) :
      Opens S m peerId envelope drawn plaintext ⟨ratchet, none, none⟩ opkId

/-- The manager with the next rotation's key in front. -/
def Manager.rotated (S : IdentitySuite K Sec C) (current : SignedPreKey Sec)
    (keyId nextKeyId : UInt32) (now : Nat) (drawn : Sec) (m : Manager K Sec C) :
    Manager K Sec C :=
  { m with
    storedSpk := some (SignedPreKey.generate S keyId m.identity drawn)
    previousSpks := current :: m.previousSpks
    signedPrekeyRotatedAt := now
    nextSignedPrekeyId := nextKeyId }

/-- The manager with a rejected candidate replaced. -/
def Manager.replaced (S : IdentitySuite K Sec C) (previouslyAccepted : Bool)
    (keyId nextKeyId : UInt32) (now : Nat) (drawn : Sec) (m : Manager K Sec C) :
    Manager K Sec C :=
  { m with
    storedSpk := some (SignedPreKey.generate S keyId m.identity drawn)
    previousSpks :=
      (historyWith previouslyAccepted m.storedSpk m.previousSpks).take
        SIGNED_PREKEY_PRIVATE_HISTORY
    signedPrekeyRotatedAt := now
    nextSignedPrekeyId := nextKeyId }

/-- The item at `index` replaced in place, its row by one at the end. -/
def Manager.refiled (index : Nat) (oldId : MessageId) (item : PendingOutbound C)
    (m : Manager K Sec C) : Manager K Sec C :=
  { m with
    pendingOutbound := m.pendingOutbound.set index item
    store :=
      { m.store with
        core := some m.coreState
        outbox :=
          (m.store.outbox.filter fun row => row.1 ≠ oldId) ++ [(item.correlationId, item)] } }

/-- Markers of `ids` gone on both sides. -/
def Manager.unmarked (ids : List MessageId) (m : Manager K Sec C) : Manager K Sec C :=
  { m with
    processedMessages := HMap.filter (fun key _ => decide (key.2 ∉ ids)) m.processedMessages
    store :=
      { m.store with
        processed := HMap.filter (fun key _ => decide (key.2 ∉ ids)) m.store.processed } }

/-- A marker's text gone on both sides. -/
def Manager.committed (key : UserId × MessageId) (processed : ProcessedMessage)
    (m : Manager K Sec C) : Manager K Sec C :=
  { m with
    processedMessages := m.processedMessages.insert key { processed with pendingPlaintext := none }
    store := (m.store.markProcessedCommitted key).getD m.store }

/-- The keys generated by a replenishment, and their ids. -/
structure Generated (S : IdentitySuite K Sec C) (m : Manager K Sec C) (env : UploadEnv Sec)
    (generated : List (UInt32 × OneTimePreKey Sec)) (nextId : UInt32) : Prop where
  keys : generateOneTimePrekeys S m.nextOneTimePrekeyId
    ((List.range PREKEY_TARGET).map env.drawn) = .ok generated
  next : checkedAdd m.nextOneTimePrekeyId 100 = some nextId

def UploadEnv.item (env : UploadEnv Sec) (generated : List (UInt32 × OneTimePreKey Sec)) :
    PendingOutbound C :=
  .preKeyUpload env.uploadId (generated.map publicPrekey)

/-- The acknowledgement an operation queues. -/
def Op.queuedItem : Op Sec C → Option (PendingOutbound C)
  | .queueAck messageIds ackId _ => some (.ack ackId messageIds)
  | .queueReadReceiptAck receiptIds ackId _ => some (.readReceiptAck ackId receiptIds)
  | _ => none

variable {item : PendingOutbound C}

theorem Op.queuedItem_open {op : Op Sec C} (h : op.queuedItem = some item) :
    sealedTo item.toClientMessage = none := by
  cases op <;> cases h <;> rfl

/-- The items an operation makes. -/
def Op.Makes (op : Op Sec C) (item : PendingOutbound C) : Prop :=
  match op with
  | .encryptMessage _ recipientId messageId _ _ =>
    ∃ envelope, item = .message recipientId messageId envelope
  | .encryptReadReceipt _ recipientId _ receiptId _ =>
    ∃ envelope, item = .readReceipt recipientId receiptId envelope
  | .queueAck messageIds ackId _ => item = .ack ackId messageIds
  | .queueReadReceiptAck receiptIds ackId _ => item = .readReceiptAck ackId receiptIds
  | .queueSignedPrekeyRotation _ _ rotationId _ => isRotationOf rotationId item = true
  | .confirmSignedPrekeyRotated _ _ _ _ _ _ newId _ => isRotationOf newId item = true
  | .queuePrekeyReplenishment env => isUploadOf env.uploadId item = true
  | .confirmPrekeysUploaded _ _ _ env _ => isUploadOf env.uploadId item = true
  | _ => False

theorem Op.makes_of_queuedItem {op : Op Sec C} {item : PendingOutbound C}
    (h : op.queuedItem = some item) : op.Makes item := by
  cases op <;> cases h <;> rfl

theorem Op.makes_of_uploadEnv {op : Op Sec C} {env : UploadEnv Sec} (h : op.uploadEnv? = some env)
    (generated : List (UInt32 × OneTimePreKey Sec)) : op.Makes (env.item generated) := by
  cases op <;> cases h <;> exact beq_self_eq_true env.uploadId

/-- The effects of the operations: envelopes returned and the manager after. -/
inductive Outcome (S : IdentitySuite K Sec C) (m : Manager K Sec C) : Op Sec C →
    List (UserId × EncryptedEnvelope C) → Manager K Sec C → Prop
  | idle (op : Op Sec C) : Outcome S m op [] m
  | asked (peerId : UserId) :
      Outcome S m (.addPending peerId) [] { m with pendingInits := insert peerId m.pendingInits }
  | initiated (peerId : UserId) (bundle : PreKeyBundle) (ephemeral drawn : Sec) (now : Nat)
      (fails : Bool) (session : PeerSession K Sec)
      (hsession : sessionFromBundle S m.identity ephemeral drawn now bundle = .ok session) :
      Outcome S m (.initSessionFromBundle peerId bundle ephemeral drawn now fails) []
        (Manager.saved
          { m with
            sessions := m.sessions.insert peerId session
            pendingInits := m.pendingInits.erase peerId })
  | expired (peerId : UserId) (now : Nat) (fails : Bool) (session : PeerSession K Sec)
      (hsession : m.sessions.lookup peerId = some session)
      (hheader : session.prekeyHeader.isSome) :
      Outcome S m (.expireStalePrekeySession peerId now fails) []
        (Manager.saved { m with sessions := m.sessions.erase peerId })
  | encrypted (op : Op Sec C) (peerId recipientId : UserId) (plaintext : Bytes)
      (original : PeerSession K Sec) (message : RatchetMessage C) (ratchet : SessionState K Sec)
      (item : PendingOutbound C)
      (hsession : m.sessions.lookup peerId = some original)
      (hmade : (encrypt S.toSuite plaintext
        (original.envelopeAad (S.verifyingKey m.identity))).run original.ratchet =
          .ok message ratchet)
      (hitem : sealedTo item.toClientMessage =
        some (recipientId, original.wrap S (S.verifyingKey m.identity) message))
      (hnew : item.correlationId ∉ m.store.outbox.map Prod.fst) (hmakes : op.Makes item) :
      Outcome S m op [(recipientId, original.wrap S (S.verifyingKey m.identity) message)]
        (Manager.filed item
          { m with sessions := m.sessions.insert peerId (original.used ratchet) })
  | queued (op : Op Sec C) (item : PendingOutbound C) (hitem : op.queuedItem = some item)
      (hnew : item.correlationId ∉ m.store.outbox.map Prod.fst) :
      Outcome S m op [] (m.filed item)
  | confirmed (op : Op Sec C) (index : Nat) (item : PendingOutbound C)
      (hitem : m.pendingOutbound[index]? = some item) (hkind : isRotation item = false) :
      Outcome S m op [] (m.unfiled index item.correlationId)
  | rejected (messageId : MessageId) (fails : Bool) (index : Nat) (recipientId : UserId)
      (envelope : EncryptedEnvelope C)
      (hitem : m.pendingOutbound[index]? = some (.message recipientId messageId envelope)) :
      Outcome S m (.rejectMessage messageId fails) []
        ((Manager.saved { m with sessions := m.sessions.erase recipientId }).unfiled
          index messageId)
  | pruned (peerId : UserId) (messageId : MessageId) (envelope : EncryptedEnvelope C)
      (env : DecryptEnv Sec) :
      Outcome S m (.decryptMessageToText peerId messageId envelope env) [] (m.pruned env.now)
  | prunedTwice (peerId : UserId) (messageId : MessageId) (envelope : EncryptedEnvelope C)
      (env : DecryptEnv Sec) :
      Outcome S m (.decryptMessageToText peerId messageId envelope env) []
        ((m.pruned env.now).prunedInMemory env.pruneNow)
  | decrypted (peerId : UserId) (messageId : MessageId) (envelope : EncryptedEnvelope C)
      (env : DecryptEnv Sec) (plaintext : Bytes) (session : PeerSession K Sec)
      (opkId : Option UInt32)
      (hopens : Opens S m peerId envelope env.drawn plaintext session opkId)
      (hnew : m.processedMessages.lookup (peerId, messageId) = none)
      (hrow : (m.pruned env.now).store.processed.lookup (peerId, messageId) = none) :
      Outcome S m (.decryptMessageToText peerId messageId envelope env) []
        ((m.opened peerId session opkId env).marked (peerId, messageId) (env.row plaintext))
  | storedInbound (peerId : UserId) (messageId : MessageId) (fails : Bool)
      (processed : ProcessedMessage)
      (hmarker : m.processedMessages.lookup (peerId, messageId) = some processed) :
      Outcome S m (.confirmInboundStored peerId messageId fails) []
        (m.committed (peerId, messageId) processed)
  | acked (ackId : MessageId) (messageIds : List MessageId) (fails : Bool) (index : Nat)
      (item : PendingOutbound C) (hitem : m.pendingOutbound[index]? = some item)
      (hids : item.ackedIds ackId = some messageIds) :
      Outcome S m (.confirmAcked ackId messageIds fails) []
        ((m.unmarked messageIds).unfiled index ackId)
  | registered (spk : SignedPreKey Sec) (opks : List (UInt32 × OneTimePreKey Sec))
      (rotatedAt createdAt : Nat) (fails : Bool) :
      Outcome S m (.persistRegistrationKeys spk opks rotatedAt createdAt fails) []
        (registrationKeys spk opks rotatedAt createdAt m).saved
  | rotated (now : Nat) (drawn : Sec) (rotationId : MessageId) (fails : Bool)
      (current : SignedPreKey Sec) (keyId nextKeyId : UInt32)
      (hids : nextRotationIds m = .ok (current, keyId, nextKeyId))
      (hnew : rotationId ∉ m.store.outbox.map Prod.fst)
      (hnone : ∀ item ∈ m.pendingOutbound, isRotation item = false) :
      Outcome S m (.queueSignedPrekeyRotation now drawn rotationId fails) []
        ((m.rotated S current keyId nextKeyId now drawn).filed
          (rotationItem rotationId (SignedPreKey.generate S keyId m.identity drawn)))
  | rotationAccepted (op : Op Sec C) (index : Nat) (item : PendingOutbound C)
      (hitem : m.pendingOutbound[index]? = some item) :
      Outcome S m op []
        ((Manager.saved
          { m with previousSpks := m.previousSpks.take SIGNED_PREKEY_PRIVATE_HISTORY }).unfiled
            index item.correlationId)
  | rotationReplaced (op : Op Sec C) (index : Nat) (item : PendingOutbound C)
      (previouslyAccepted : Bool) (currentKeyId keyId nextKeyId : UInt32) (now : Nat) (drawn : Sec)
      (newId : MessageId)
      (hitem : m.pendingOutbound[index]? = some item)
      (hkind : sealedTo item.toClientMessage = none)
      (hids : replacementIds m currentKeyId = .ok (keyId, nextKeyId))
      (hnew : newId ∉ (m.store.outbox.filter fun row => row.1 ≠ item.correlationId).map Prod.fst)
      (hmakes : op.Makes (rotationItem newId (SignedPreKey.generate S keyId m.identity drawn))) :
      Outcome S m op []
        ((m.replaced S previouslyAccepted keyId nextKeyId now drawn).refiled index
          item.correlationId
          (rotationItem newId (SignedPreKey.generate S keyId m.identity drawn)))
  | replenished (op : Op Sec C) (env : UploadEnv Sec)
      (generated : List (UInt32 × OneTimePreKey Sec)) (nextId : UInt32)
      (hgen : Generated S m env generated nextId)
      (hnew : env.uploadId ∉ m.store.outbox.map Prod.fst) (henv : op.uploadEnv? = some env) :
      Outcome S m op [] ((fileGenerated generated nextId env m).filed (env.item generated))
  | uploadReplaced (op : Op Sec C) (index : Nat) (item : PendingOutbound C) (env : UploadEnv Sec)
      (generated : List (UInt32 × OneTimePreKey Sec)) (nextId : UInt32)
      (hitem : m.pendingOutbound[index]? = some item)
      (hgen : Generated S m env generated nextId)
      (hnew : env.uploadId ∉ m.store.outbox.map Prod.fst) (henv : op.uploadEnv? = some env)
      (hkind : isRotation item = false) :
      Outcome S m op []
        (((fileGenerated generated nextId env m).filed (env.item generated)).unfiled index
          item.correlationId)
  | uploadRejected (op : Op Sec C) (index : Nat) (item : PendingOutbound C) (ids : List UInt32)
      (hitem : m.pendingOutbound[index]? = some item) (hkind : isRotation item = false) :
      Outcome S m op [] ((dropRejected ids m).saved.unfiled index item.correlationId)

/-! ## Store calls -/

theorem storeResult_eq_ok {fails : Bool} {next : Option (CryptoStore K Sec C)}
    {st : CryptoStore K Sec C} (h : storeResult fails next = .ok st) : next = some st := by
  unfold storeResult at h
  split at h
  · cases h
  · split at h
    · cases h; rfl
    · cases h

theorem commitOr_cases (fails : Bool)
    (call : CoreState K Sec → CryptoStore K Sec C → Option (CryptoStore K Sec C))
    (rollback : Manager K Sec C → Manager K Sec C) (wrap : Failure → ManagerError)
    (m : Manager K Sec C) :
    (∃ st, call m.coreState m.store = some st ∧
      (commitOr fails call rollback wrap).run m = .ok () { m with store := st }) ∨
    ∃ e, (commitOr fails call rollback wrap).run m = .error (wrap e) (rollback m) := by
  cases h : storeResult fails (call m.coreState m.store) with
  | ok st =>
    exact .inl ⟨st, storeResult_eq_ok h, by simp only [commitOr, run_bind, run_get, h]; rfl⟩
  | error e => exact .inr ⟨e, by simp only [commitOr, run_bind, run_get, h]; rfl⟩

@[simp] theorem popOutbound_pushOutbound (item : PendingOutbound C) (m : Manager K Sec C) :
    popOutbound (pushOutbound item m) = m := by
  unfold popOutbound pushOutbound
  rw [List.dropLast_concat]

theorem pushAndPersist_new {m : Manager K Sec C} (item : PendingOutbound C)
    (rollback : Manager K Sec C → Manager K Sec C)
    (hnew : item.correlationId ∉ m.store.outbox.map Prod.fst) :
    (pushAndPersist item false rollback).run m = .ok item.toClientMessage (m.filed item) := by
  have hsave :
    CryptoStore.saveCoreAndEnqueue (pushOutbound item m).coreState item.correlationId item
      (pushOutbound item m).store = some (m.filed item).store := if_neg hnew
  simp only [pushAndPersist, commitOr, storeResult, run_bind, run_get, run_modify, hsave]
  rfl

theorem pushAndPersist_cases (item : PendingOutbound C) (fails : Bool)
    (rollback : Manager K Sec C → Manager K Sec C) (m : Manager K Sec C) :
    (item.correlationId ∉ m.store.outbox.map Prod.fst ∧
      (pushAndPersist item fails rollback).run m = .ok item.toClientMessage (m.filed item)) ∨
    ∃ e, (pushAndPersist item fails rollback).run m =
      .error e (rollback (pushOutbound item m)) := by
  simp only [pushAndPersist, run_bind, run_modify]
  rcases commitOr_cases fails
    (fun core => CryptoStore.saveCoreAndEnqueue core item.correlationId item) rollback
    .persistence (pushOutbound item m) with ⟨st, hst, h⟩ | ⟨e, h⟩
  · left
    rw [h]
    simp only [CryptoStore.saveCoreAndEnqueue, CryptoStore.saveCore, CryptoStore.enqueue,
      Option.bind_some] at hst
    split at hst
    · cases hst
    · next hnew =>
      cases hst
      exact ⟨hnew, rfl⟩
  · right
    rw [h]
    exact ⟨_, rfl⟩

/-! ## Rollbacks -/

theorem restoreEntry_insert (sessions : HMap UserId (PeerSession K Sec)) (peerId : UserId)
    (session : PeerSession K Sec) :
    restoreEntry (sessions.insert peerId session) peerId (sessions.lookup peerId) = sessions := by
  unfold restoreEntry
  cases h : sessions.lookup peerId with
  | some original =>
    simp only [Finmap.insert_insert]
    exact HMap.insert_lookup_self _ _ _ h
  | none => exact HMap.erase_insert_new _ _ _ h

theorem restoreEntry_erase (sessions : HMap UserId (PeerSession K Sec)) (peerId : UserId) :
    restoreEntry (sessions.erase peerId) peerId (sessions.lookup peerId) = sessions := by
  unfold restoreEntry
  cases h : sessions.lookup peerId with
  | some original => exact HMap.insert_erase_self _ _ _ h
  | none => simp only [HMap.erase_absent _ _ h]

theorem undoEncryption_pushOutbound (m : Manager K Sec C) (peerId : UserId)
    (original session : PeerSession K Sec) (item : PendingOutbound C)
    (h : m.sessions.lookup peerId = some original) :
    undoEncryption peerId original
      (pushOutbound item { m with sessions := m.sessions.insert peerId session }) = m := by
  have hs : (m.sessions.insert peerId session).insert peerId original = m.sessions := by
    rw [Finmap.insert_insert]
    exact HMap.insert_lookup_self _ _ _ h
  unfold undoEncryption popOutbound pushOutbound
  simp only [List.dropLast_concat, hs]

theorem findItem_eq_some {p : PendingOutbound C → Bool} {pending : List (PendingOutbound C)}
    {index : Nat} (h : findItem p pending = some (index, item)) :
    pending[index]? = some item ∧ p item = true := by
  unfold findItem at h
  obtain ⟨i, hi, h⟩ := Option.bind_eq_some_iff.mp h
  obtain ⟨found, hfound, h⟩ := Option.map_eq_some_iff.mp h
  cases h
  obtain ⟨hlt, hp, -⟩ := List.findIdx?_eq_some_iff_getElem.mp hi
  rw [List.getElem?_eq_getElem hlt] at hfound
  cases hfound
  exact ⟨List.getElem?_eq_getElem hlt, hp⟩

theorem findItem_eq_none {p : PendingOutbound C → Bool} {pending : List (PendingOutbound C)}
    (h : findItem p pending = none) : ∀ item ∈ pending, p item = false := by
  intro item hitem
  by_contra hp
  unfold findItem at h
  cases hi : pending.findIdx? p with
  | none =>
    have hnone := List.findIdx?_eq_none_iff.mp hi item hitem
    exact hp hnone
  | some i =>
    obtain ⟨hlt, -⟩ := List.findIdx?_eq_some_iff_getElem.mp hi
    rw [hi, Option.bind_some, List.getElem?_eq_getElem hlt] at h
    cases h

theorem insertIdx_eraseIdx {α : Type} {l : List α} {index : Nat} {a : α}
    (h : l[index]? = some a) : (l.eraseIdx index).insertIdx index a = l := by
  obtain ⟨hlt, rfl⟩ := List.getElem?_eq_some_iff.mp h
  exact List.insertIdx_eraseIdx_getElem hlt

/-! ## Sessions -/

variable (S : IdentitySuite K Sec C)

theorem initSessionFromBundle_cases (peerId : UserId) (bundle : PreKeyBundle)
    (ephemeral drawn : Sec) (now : Nat) (fails : Bool) (m : Manager K Sec C) :
    (∃ e, (initSessionFromBundle S peerId bundle ephemeral drawn now fails).run m = .error e m) ∨
    ∃ session, sessionFromBundle S m.identity ephemeral drawn now bundle = .ok session ∧
      (initSessionFromBundle S peerId bundle ephemeral drawn now fails).run m =
        .ok ()
          (Manager.saved
            { m with
              sessions := m.sessions.insert peerId session
              pendingInits := m.pendingInits.erase peerId }) := by
  cases hs : sessionFromBundle S m.identity ephemeral drawn now bundle with
  | error e => exact .inl ⟨e, by simp [initSessionFromBundle, hs]⟩
  | ok session =>
    simp only [initSessionFromBundle, run_bind, run_get, hs, run_ofExcept_ok, run_modify]
    rcases commitOr_cases fails CryptoStore.saveCore
      (fun m' => { m' with sessions := restoreEntry m'.sessions peerId (m.sessions.lookup peerId) })
      .persistence { m with sessions := m.sessions.insert peerId session } with
        ⟨st, hst, h⟩ | ⟨e, h⟩
    · rw [h]
      cases hst
      exact .inr ⟨session, rfl, rfl⟩
    · rw [h]
      exact .inl ⟨.persistence e, by simp only [restoreEntry_insert]⟩

theorem expireStalePrekeySession_cases (peerId : UserId) (now : Nat) (fails : Bool)
    (m : Manager K Sec C) :
    (∃ e, (expireStalePrekeySession peerId now fails).run m = .error e m) ∨
    (expireStalePrekeySession peerId now fails).run m = .ok false m ∨
    ∃ session, m.sessions.lookup peerId = some session ∧ session.prekeyHeader.isSome ∧
      (expireStalePrekeySession peerId now fails).run m =
        .ok true (Manager.saved { m with sessions := m.sessions.erase peerId }) := by
  simp only [expireStalePrekeySession, run_bind, run_get]
  cases hs : m.sessions.lookup peerId with
  | none => exact .inr (.inl rfl)
  | some session =>
    simp only [run_ite]
    split
    · next hstale =>
      simp only [run_bind, run_modify]
      rcases commitOr_cases fails CryptoStore.saveCore
        (fun m' => { m' with sessions := m'.sessions.insert peerId session })
        .persistence { m with sessions := m.sessions.erase peerId } with ⟨st, hst, h⟩ | ⟨e, h⟩
      · rw [h]
        cases hst
        exact .inr (.inr ⟨session, rfl, ((Bool.and_eq_true_iff).mp hstale).1, rfl⟩)
      · rw [h]
        exact .inl ⟨.persistence e, by simp only [HMap.insert_erase_self _ _ _ hs]⟩
    · exact .inr (.inl rfl)

/-! ## Encryption -/

theorem advanceEncryption_cases (peerId : UserId) (plaintext : Bytes) (m : Manager K Sec C) :
    (∃ e, (advanceEncryption S peerId plaintext).run m = .error e m) ∨
    ∃ original message ratchet, m.sessions.lookup peerId = some original ∧
      (encrypt S.toSuite plaintext
        (original.envelopeAad (S.verifyingKey m.identity))).run original.ratchet =
          .ok message ratchet ∧
      (advanceEncryption S peerId plaintext).run m =
        .ok (original, original.wrap S (S.verifyingKey m.identity) message)
          { m with sessions := m.sessions.insert peerId (original.used ratchet) } := by
  cases hs : m.sessions.lookup peerId with
  | none => exact .inl ⟨.noSession, by simp [advanceEncryption, hs]⟩
  | some original =>
    cases he : (encrypt S.toSuite plaintext
        (original.envelopeAad (S.verifyingKey m.identity))).run original.ratchet with
    | ok message ratchet =>
      right
      exact ⟨original, message, ratchet, rfl, he, by
        simp only [advanceEncryption, run_bind, run_get, hs, he]; rfl⟩
    | error e ratchet =>
      left
      refine ⟨.ratchetFailed, ?_⟩
      cases encrypt_error _ _ _ _ _ _ he
      simp only [advanceEncryption, run_bind, run_get, hs, he, run_modify, run_throw]
      rw [HMap.insert_lookup_self _ _ _ hs]

/-- The two ways an encryption of `plaintext` into an item can end. -/
inductive EncryptResult (S : IdentitySuite K Sec C) (m : Manager K Sec C) (peerId : UserId)
    (plaintext : Bytes) (item : EncryptedEnvelope C → PendingOutbound C) :
    EStateM.Result ManagerError (Manager K Sec C) (ClientMessage C) → Prop
  | failed (e : ManagerError) : EncryptResult S m peerId plaintext item (.error e m)
  | filed (original : PeerSession K Sec) (message : RatchetMessage C)
      (ratchet : SessionState K Sec)
      (hsession : m.sessions.lookup peerId = some original)
      (hmade : (encrypt S.toSuite plaintext
        (original.envelopeAad (S.verifyingKey m.identity))).run original.ratchet =
          .ok message ratchet)
      (hnew : (item (original.wrap S (S.verifyingKey m.identity) message)).correlationId ∉
        m.store.outbox.map Prod.fst)
      (hroom : ensureCapacity m.pendingOutbound plaintext.length = .ok ()) :
      EncryptResult S m peerId plaintext item
        (.ok (item (original.wrap S (S.verifyingKey m.identity) message)).toClientMessage
          (Manager.filed (item (original.wrap S (S.verifyingKey m.identity) message))
            { m with sessions := m.sessions.insert peerId (original.used ratchet) }))

/-- The common end of the two functions that encrypt. -/
theorem encryptItem_result (peerId : UserId) (plaintext : Bytes)
    (item : EncryptedEnvelope C → PendingOutbound C) (fails : Bool) {m : Manager K Sec C}
    (hroom : ensureCapacity m.pendingOutbound plaintext.length = .ok ()) :
    EncryptResult S m peerId plaintext item
      ((do
        let advanced ← advanceEncryption S peerId plaintext
        pushAndPersist (item advanced.2) fails (undoEncryption peerId advanced.1) :
          ManagerM K Sec C (ClientMessage C)).run m) := by
  rcases advanceEncryption_cases S peerId plaintext m with
    ⟨e, h⟩ | ⟨original, message, ratchet, hs, hmade, h⟩
  · rw [run_bind_error h]
    exact .failed e
  · rw [run_bind_ok h]
    rcases pushAndPersist_cases (item (original.wrap S (S.verifyingKey m.identity) message)) fails
      (undoEncryption peerId original)
      { m with sessions := m.sessions.insert peerId (original.used ratchet) } with
        ⟨hnew, hp⟩ | ⟨e, hp⟩
    · rw [hp]
      exact .filed original message ratchet hs hmade hnew hroom
    · rw [hp, undoEncryption_pushOutbound m peerId original _ _ hs]
      exact .failed e

theorem encryptMessage_result (peerId recipientId : UserId) (messageId : MessageId)
    (plaintext : Bytes) (fails : Bool) (m : Manager K Sec C) :
    EncryptResult S m peerId plaintext (.message recipientId messageId)
      ((encryptMessage S peerId recipientId messageId plaintext fails).run m) := by
  simp only [encryptMessage, run_bind, run_get, run_ite]
  split
  · exact .failed _
  · cases hcap : ensureCapacity m.pendingOutbound plaintext.length with
    | error e => exact .failed e
    | ok _ =>
      exact encryptItem_result S peerId plaintext (.message recipientId messageId) fails hcap

theorem encryptReadReceipt_result (texts : List MessageId → Bytes) (peerId recipientId : UserId)
    (messageIds : List MessageId) (receiptId : MessageId) (fails : Bool) (m : Manager K Sec C) :
    EncryptResult S m peerId (receiptPlaintext texts messageIds)
      (.readReceipt recipientId receiptId)
      ((encryptReadReceipt S texts peerId recipientId messageIds receiptId fails).run m) := by
  simp only [encryptReadReceipt, run_ite]
  split
  · exact .failed _
  · simp only [run_bind, run_get]
    cases hcap : ensureCapacity m.pendingOutbound (receiptPlaintext texts messageIds).length with
    | error e => exact .failed e
    | ok _ =>
      exact encryptItem_result S peerId _ (.readReceipt recipientId receiptId) fails hcap

/-! ## The outbox -/

/-- A capacity check and a push whose rollback is `pop`. -/
theorem queueItem_cases (bytes : Nat) (item : PendingOutbound C) (fails : Bool)
    (m : Manager K Sec C) :
    (∃ e, (do
      let m ← get
      ofExcept (ensureCapacity m.pendingOutbound bytes)
      pushAndPersist item fails popOutbound : ManagerM K Sec C (ClientMessage C)).run m =
        .error e m) ∨
    (ensureCapacity m.pendingOutbound bytes = .ok () ∧
      item.correlationId ∉ m.store.outbox.map Prod.fst ∧
      (do
        let m ← get
        ofExcept (ensureCapacity m.pendingOutbound bytes)
        pushAndPersist item fails popOutbound : ManagerM K Sec C (ClientMessage C)).run m =
          .ok item.toClientMessage (m.filed item)) := by
  simp only [run_bind, run_get]
  cases hcap : ensureCapacity m.pendingOutbound bytes with
  | error e => exact .inl ⟨e, rfl⟩
  | ok _ =>
    rcases pushAndPersist_cases item fails popOutbound m with ⟨hnew, h⟩ | ⟨e, h⟩
    · exact .inr ⟨rfl, hnew, h⟩
    · rw [popOutbound_pushOutbound] at h
      exact .inl ⟨e, h⟩

theorem confirmSent_cases (p : PendingOutbound C → Bool) (id : MessageId) (fails : Bool)
    (hp : ∀ item, p item = true → item.correlationId = id) (m : Manager K Sec C) :
    (∃ e, (confirmSent p id fails).run m = .error e m) ∨
    ((∀ item ∈ m.pendingOutbound, p item = false) ∧ (confirmSent p id fails).run m = .ok () m) ∨
    ∃ index item, m.pendingOutbound[index]? = some item ∧ p item = true ∧
      item.correlationId = id ∧ (confirmSent p id fails).run m = .ok () (m.unfiled index id) := by
  simp only [confirmSent, run_bind, run_get]
  cases hf : findItem p m.pendingOutbound with
  | none => exact .inr (.inl ⟨findItem_eq_none hf, rfl⟩)
  | some found =>
    obtain ⟨index, item⟩ := found
    obtain ⟨hitem, hpi⟩ := findItem_eq_some hf
    simp only [run_bind, run_modify]
    rcases commitOr_cases fails (fun _ => CryptoStore.deleteOutbound id)
      (fun m' => { m' with pendingOutbound := m'.pendingOutbound.insertIdx index item }) .other
      { m with pendingOutbound := m.pendingOutbound.eraseIdx index } with ⟨st, hst, h⟩ | ⟨e, h⟩
    · rw [h]
      cases hst
      exact .inr (.inr ⟨index, item, hitem, hpi, hp item hpi, rfl⟩)
    · rw [h]
      refine .inl ⟨.other e, ?_⟩
      simp only [insertIdx_eraseIdx hitem]

theorem correlationId_of_isMessage {messageId : MessageId} (item : PendingOutbound C)
    (h : isMessage messageId item = true) : item.correlationId = messageId := by
  cases item <;> simp_all [isMessage, PendingOutbound.correlationId]

theorem correlationId_of_isReadReceipt {receiptId : MessageId} (item : PendingOutbound C)
    (h : isReadReceipt receiptId item = true) : item.correlationId = receiptId := by
  cases item <;> simp_all [isReadReceipt, PendingOutbound.correlationId]

theorem not_rotation_of_isMessage {messageId : MessageId} (h : isMessage messageId item = true) :
    isRotation item = false := by
  cases item <;> simp_all [isMessage, isRotation]

theorem not_rotation_of_isReadReceipt {receiptId : MessageId}
    (h : isReadReceipt receiptId item = true) : isRotation item = false := by
  cases item <;> simp_all [isReadReceipt, isRotation]

theorem rejectMessage_cases (messageId : MessageId) (fails : Bool) (m : Manager K Sec C) :
    (∃ e, (rejectMessage messageId fails).run m = .error e m) ∨
    (rejectMessage messageId fails).run m = .ok none m ∨
    ∃ index recipientId envelope,
      m.pendingOutbound[index]? = some (.message recipientId messageId envelope) ∧
      (rejectMessage messageId fails).run m =
        .ok (some recipientId)
          ((Manager.saved { m with sessions := m.sessions.erase recipientId }).unfiled
            index messageId) := by
  simp only [rejectMessage, run_bind, run_get]
  cases hf : findItem (isMessage messageId) m.pendingOutbound with
  | none => exact .inr (.inl rfl)
  | some found =>
    obtain ⟨index, item⟩ := found
    obtain ⟨hitem, hid⟩ := findItem_eq_some hf
    cases item with
    | message recipientId pendingId envelope =>
      have hid' : pendingId = messageId := correlationId_of_isMessage _ hid
      subst hid'
      simp only [run_bind, run_modify]
      rcases commitOr_cases fails
        (fun core => CryptoStore.saveCoreAndDeleteOutbound core pendingId)
        (fun m' =>
          { m' with
            sessions := restoreEntry m'.sessions recipientId (m.sessions.lookup recipientId)
            pendingOutbound :=
              m'.pendingOutbound.insertIdx index (.message recipientId pendingId envelope) }) .other
        { m with
          sessions := m.sessions.erase recipientId
          pendingOutbound := m.pendingOutbound.eraseIdx index } with ⟨st, hst, h⟩ | ⟨e, h⟩
      · rw [h]
        cases hst
        exact .inr (.inr ⟨index, recipientId, envelope, hitem, rfl⟩)
      · rw [h]
        exact .inl ⟨.other e, by simp only [restoreEntry_erase, insertIdx_eraseIdx hitem]⟩
    | _ => cases hid

end Cmp.Client
