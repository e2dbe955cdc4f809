import Cmp.Crypto.X3dh
import Cmp.Relay.Transactions
import Cmp.Protocol.ServerMessage

/-! The handlers of the relay: what each message of a client makes of the database.
A handler answers at once, or runs one transaction and answers by what it returns. -/

namespace Cmp.Relay

open Cmp.Crypto Cmp.Protocol Cmp.Lib

variable {K Sec C D : Type}

/-- What a handler reads besides the message: the clocks of the process and of the
database, and the row that an unordered query picks. -/
structure RelayEnv where
  now : Nat
  timestamp : Nat
  unixepoch : Nat
  createdAt : UInt32 → Nat
  queuedAt : Nat
  choice : Nat

inductive Handling (C : Type)
  | reply (message : Option (ServerMessage C))
  | transact (t : Transaction C) (respond : Option Answer → Option (ServerMessage C))

/-- Reply and database after a handler; `fails` when the system refuses the transaction. -/
def Handling.run [DecidableEq D] (digest : EncryptedEnvelope C → D) (fails : Bool) (db : Db C D) :
    Handling C → Option (ServerMessage C) × Db C D
  | .reply message => (message, db)
  | .transact t respond =>
    if fails then (respond none, db) else (respond (t.answer? digest db), t.after digest db)

/-- What the database answers to a handler. -/
def Handling.answer? [DecidableEq D] (digest : EncryptedEnvelope C → D) (fails : Bool)
    (db : Db C D) : Handling C → Option Answer
  | .reply _ => none
  | .transact t _ => if fails then none else t.answer? digest db

/-- What a handler adds to the log of the relay. -/
def Handling.entries (fails : Bool) (db : Db C D) : Handling C → List (Entry C D)
  | .reply _ => []
  | .transact t _ => if fails then [] else [⟨db, t⟩]

/-! ## Checks -/

def validateB64Len (N : Nat) (encoded : B64Text Bytes) : Except String Unit :=
  match encoded.decoded with
  | none => .error "invalid key encoding"
  | some decoded => if decoded.length ≠ N then .error "invalid key length" else .ok ()

def validateEnvelope (envelope : EncryptedEnvelope C) : Except String Unit :=
  if envelope.version ≠ PROTOCOL_VERSION then .error "unsupported protocol version"
  else if envelope.ciphertext.length > MAX_CIPHERTEXT_BYTES then
    .error "ciphertext exceeds maximum size"
  else if envelope.ciphertext.decoded.isNone then .error "invalid ciphertext encoding"
  else
    match envelope.header with
    | .preKey senderIdentityKey senderEphemeralKey _ _ ratchet => do
      validateB64Len 32 senderIdentityKey
      validateB64Len 32 senderEphemeralKey
      validateB64Len 32 ratchet.ratchetKey
    | .ratchet ratchet => validateB64Len 32 ratchet.ratchetKey

def envelopePrekeyIds : MessageHeader → Option UInt32 × Option UInt32
  | .preKey _ _ signedPrekeyId oneTimePrekeyId _ => (some signedPrekeyId, oneTimePrekeyId)
  | .ratchet _ => (none, none)

/-- The loop of `decode_prekeys`; `keyIds` are the ids seen. -/
def decodePairs (keyIds : List UInt32) : List PublicOneTimePreKey → Batch
  | [] => []
  | pk :: rest =>
    if pk.keyId ∈ keyIds then decodePairs keyIds rest
    else
      match pk.publicKey.decoded with
      | none => decodePairs (pk.keyId :: keyIds) rest
      | some bytes =>
        if bytes.length ≠ 32 then decodePairs (pk.keyId :: keyIds) rest
        else (pk.keyId, bytes) :: decodePairs (pk.keyId :: keyIds) rest

def decodePrekeys (prekeys : List PublicOneTimePreKey) : Except (ServerMessage C) Batch :=
  let pairs := decodePairs [] prekeys
  if pairs.length ≠ prekeys.length then
    .error (error400 "prekeys must have unique IDs and valid 32-byte base64 public keys")
  else .ok pairs

variable {prekeys : List PublicOneTimePreKey}

theorem notMem_decodePairs :
    ∀ {keyIds : List UInt32}, ∀ pair ∈ decodePairs keyIds prekeys, pair.1 ∉ keyIds := by
  induction prekeys with
  | nil => intro keyIds pair hpair; cases hpair
  | cons pk rest ih =>
    intro keyIds pair hpair
    unfold decodePairs at hpair
    split at hpair
    · exact ih pair hpair
    next hnew =>
    have hrest : ∀ pair ∈ decodePairs (pk.keyId :: keyIds) rest, pair.1 ∉ keyIds :=
      fun pair hpair hmem => ih pair hpair (List.mem_cons_of_mem _ hmem)
    split at hpair
    · exact hrest pair hpair
    split at hpair
    · exact hrest pair hpair
    rcases List.mem_cons.mp hpair with rfl | hpair
    · exact hnew
    · exact hrest pair hpair

theorem nodup_decodePairs :
    ∀ {keyIds : List UInt32}, ((decodePairs keyIds prekeys).map Prod.fst).Nodup := by
  induction prekeys with
  | nil => intro keyIds; exact List.nodup_nil
  | cons pk rest ih =>
    intro keyIds
    unfold decodePairs
    split
    · exact ih
    split
    · exact ih
    split
    · exact ih
    refine List.nodup_cons.mpr ⟨fun hmem => ?_, ih⟩
    obtain ⟨pair, hpair, hid⟩ := List.mem_map.mp hmem
    exact notMem_decodePairs pair hpair (hid ▸ List.mem_cons_self)

/-- A batch that `decode_prekeys` lets through has distinct ids. -/
theorem nodup_of_decodePrekeys {pairs : Batch}
    (h : (decodePrekeys prekeys : Except (ServerMessage C) Batch) = .ok pairs) :
    (pairs.map Prod.fst).Nodup ∧ pairs.length = prekeys.length := by
  unfold decodePrekeys at h
  dsimp only at h
  split at h
  · cases h
  · next hlength =>
    cases h
    exact ⟨nodup_decodePairs, not_not.mp hlength⟩

theorem mem_decodePairs :
    ∀ {keyIds : List UInt32}, ∀ pair ∈ decodePairs keyIds prekeys,
      ∃ pk ∈ prekeys, pk.keyId = pair.1 ∧ pk.publicKey.decoded = some pair.2 := by
  induction prekeys with
  | nil => intro keyIds pair hpair; cases hpair
  | cons pk rest ih =>
    intro keyIds pair hpair
    have hrest : ∀ {ids : List UInt32}, pair ∈ decodePairs ids rest →
        ∃ pk' ∈ pk :: rest, pk'.keyId = pair.1 ∧ pk'.publicKey.decoded = some pair.2 := by
      intro ids hpair
      obtain ⟨pk', hpk', h⟩ := ih pair hpair
      exact ⟨pk', List.mem_cons_of_mem _ hpk', h⟩
    unfold decodePairs at hpair
    split at hpair
    · exact hrest hpair
    split at hpair
    · exact hrest hpair
    next bytes hbytes =>
    split at hpair
    · exact hrest hpair
    rcases List.mem_cons.mp hpair with rfl | hpair
    · exact ⟨pk, List.mem_cons_self, rfl, hbytes⟩
    · exact hrest hpair

theorem mem_of_decodePrekeys {pairs : Batch}
    (h : (decodePrekeys prekeys : Except (ServerMessage C) Batch) = .ok pairs) :
    ∀ pair ∈ pairs, ∃ pk ∈ prekeys, pk.keyId = pair.1 ∧ pk.publicKey.decoded = some pair.2 := by
  unfold decodePrekeys at h
  dsimp only at h
  split at h <;> cases h
  exact mem_decodePairs

theorem sublist_decodePairs :
    ∀ {keyIds : List UInt32}, List.Sublist ((decodePairs keyIds prekeys).map Prod.fst)
      (prekeys.map (·.keyId)) := by
  induction prekeys with
  | nil => intro keyIds; exact List.Sublist.slnil
  | cons pk rest ih =>
    intro keyIds
    unfold decodePairs
    split
    · exact ih.cons _
    split
    · exact ih.cons _
    split
    · exact ih.cons _
    · exact ih.cons_cons _

/-- Every key of a batch that `decode_prekeys` lets through is in it. -/
theorem ids_of_decodePrekeys {pairs : Batch}
    (h : (decodePrekeys prekeys : Except (ServerMessage C) Batch) = .ok pairs) :
    pairs.map Prod.fst = prekeys.map (·.keyId) := by
  have hlength := (nodup_of_decodePrekeys h).2
  unfold decodePrekeys at h
  dsimp only at h
  split at h <;> cases h
  refine sublist_decodePairs.eq_of_length ?_
  rw [List.length_map, List.length_map, hlength]

theorem decodePairs_eq {pairs : Batch} (hlength : ∀ pair ∈ pairs, pair.2.length = 32) :
    ∀ {keyIds : List UInt32}, (pairs.map Prod.fst).Nodup →
      (∀ id ∈ pairs.map Prod.fst, id ∉ keyIds) →
      decodePairs keyIds (pairs.map fun pair => ⟨pair.1, b64Encode pair.2⟩) = pairs := by
  induction pairs with
  | nil => intro keyIds _ _; rfl
  | cons pair pairs ih =>
    intro keyIds hnodup hnew
    rw [List.map_cons, List.nodup_cons] at hnodup
    have hlen : pair.2.length = 32 := hlength pair List.mem_cons_self
    have hfresh : ∀ id ∈ pairs.map Prod.fst, id ∉ pair.1 :: keyIds := by
      intro id hid hmem
      rcases List.mem_cons.mp hmem with rfl | hmem
      · exact hnodup.1 hid
      · exact hnew id (List.mem_cons_of_mem _ hid) hmem
    have hrest := ih (fun other hother => hlength other (List.mem_cons_of_mem _ hother)) hnodup.2
      hfresh
    simp only [List.map_cons, decodePairs, if_neg (hnew pair.1 List.mem_cons_self)]
    rw [hrest]
    simp only [b64Encode, hlen, ne_eq, not_true_eq_false, if_false]

/-- A batch of well-formed keys with distinct ids is let through. -/
theorem decodePrekeys_eq {pairs : Batch} (hlength : ∀ pair ∈ pairs, pair.2.length = 32)
    (hnodup : (pairs.map Prod.fst).Nodup) :
    decodePrekeys (C := C) (pairs.map fun pair => ⟨pair.1, b64Encode pair.2⟩) = .ok pairs := by
  unfold decodePrekeys
  simp only [decodePairs_eq hlength hnodup fun _ _ => List.not_mem_nil, List.length_map, ne_eq,
    not_true_eq_false, if_false]

/-! ## `handlers/auth.rs` -/

def registerReply (answer : Option Answer) : Option (ServerMessage C) :=
  match answer with
  | some (.registered true) => some .authSuccess
  | some (.registered false) =>
    some (authFailure "user already exists — use AuthChallenge to login")
  | _ => some error500Generic

/-- `handle_register`, on a connection that is not authenticated. -/
def handleRegister (S : IdentitySuite K Sec C) (userId : UserId) (bundle : PreKeyBundle)
    (oneTimePrekeys : List PublicOneTimePreKey) (env : RelayEnv) : Handling C :=
  let failure reason : Handling C := .reply (some (authFailure reason))
  if oneTimePrekeys.length > MAX_PREKEYS_PER_UPLOAD then .reply (some (error400 "too many prekeys"))
  else
    match bundle.identityKey.decoded with
    | none => failure "invalid base64 in identity_key"
    | some identityBytes =>
    if hik : identityBytes.length ≠ 32 then failure "identity key must be 32 bytes"
    else
      let identityKey : Key32 := ⟨identityBytes, not_not.mp hik⟩
      if ¬S.isVerifyingKey identityKey then
        failure "identity key is not a valid Ed25519 public key"
      else
        match bundle.signedPrekey.decoded with
        | none => failure "invalid base64 in signed_prekey"
        | some spkBytes =>
        if spkBytes.length ≠ 32 then failure "signed prekey must be 32 bytes"
        else
          match bundle.signedPrekeySignature.decoded with
          | none => failure "invalid base64 in signature"
          | some sigBytes =>
          if hsig : sigBytes.length ≠ 64 then failure "signature must be 64 bytes"
          else if ¬S.verify identityKey spkBytes ⟨sigBytes, not_not.mp hsig⟩ then
            failure "signed prekey signature is invalid"
          else
            match decodePrekeys oneTimePrekeys with
            | .error message => .reply (some message)
            | .ok pairs =>
              .transact (.registerAtomic
                ⟨userId, identityBytes, bundle.signedPrekeyId, spkBytes, sigBytes, pairs⟩
                env.createdAt) registerReply

/-- A reply that tells of a failure. -/
def isFailure : ServerMessage C → Bool
  | .authFailure _ => true
  | .error _ _ => true
  | _ => false

/-- A registration is answered at once, or consists of what the message says. -/
theorem handleRegister_cases (S : IdentitySuite K Sec C) (userId : UserId) (bundle : PreKeyBundle)
    (oneTimePrekeys : List PublicOneTimePreKey) (env : RelayEnv) :
    (∃ reply, handleRegister S userId bundle oneTimePrekeys env = .reply (some reply) ∧
      isFailure reply = true) ∨
    ∃ registration : Registration, registration.userId = userId ∧
      bundle.identityKey.decoded = some registration.identityKey ∧
      bundle.signedPrekeyId = registration.signedPrekeyId ∧
      bundle.signedPrekey.decoded = some registration.signedPrekeyPublic ∧
      bundle.signedPrekeySignature.decoded = some registration.signedPrekeySignature ∧
      decodePrekeys (C := C) oneTimePrekeys = .ok registration.oneTimePrekeys ∧
      oneTimePrekeys.length ≤ MAX_PREKEYS_PER_UPLOAD ∧
      handleRegister S userId bundle oneTimePrekeys env =
        .transact (.registerAtomic registration env.createdAt) registerReply := by
  unfold handleRegister
  dsimp only
  split
  · exact .inl ⟨_, rfl, rfl⟩
  next hlength =>
  split
  · exact .inl ⟨_, rfl, rfl⟩
  next identityBytes hidentity =>
  split
  · exact .inl ⟨_, rfl, rfl⟩
  split
  · exact .inl ⟨_, rfl, rfl⟩
  split
  · exact .inl ⟨_, rfl, rfl⟩
  next spkBytes hspk =>
  split
  · exact .inl ⟨_, rfl, rfl⟩
  split
  · exact .inl ⟨_, rfl, rfl⟩
  next sigBytes hsig =>
  split
  · exact .inl ⟨_, rfl, rfl⟩
  split
  · exact .inl ⟨_, rfl, rfl⟩
  split
  · next message hdecoded =>
    refine .inl ⟨message, rfl, ?_⟩
    unfold decodePrekeys at hdecoded
    dsimp only at hdecoded
    split at hdecoded <;> cases hdecoded
    rfl
  next pairs hdecoded =>
  exact .inr ⟨⟨userId, identityBytes, bundle.signedPrekeyId, spkBytes, sigBytes, pairs⟩, rfl,
    hidentity, rfl, hspk, hsig, hdecoded, not_lt.mp hlength, rfl⟩

/-! ## `handlers/prekey.rs` -/

def FETCH_LIMITS : FetchLimits := ⟨60 * 60, 10, 20⟩

/-- The part of `handle_fetch` after the identity key and the signed prekey are read. -/
def handleFetch (requesterId targetUserId : UserId) (env : RelayEnv) (db : Db C D) : Handling C :=
  if requesterId = targetUserId then
    .reply (some (error400 "cannot fetch your own pre-key bundle"))
  else
    match getIdentityKey targetUserId db, getSignedPrekey targetUserId db with
    | some identityKey, some spk =>
      let bundle oneTimePrekey : Option (ServerMessage C) :=
        some (.preKeyBundleResponse targetUserId
          ⟨b64Encode identityKey, b64Encode spk.publicKey, spk.keyId, b64Encode spk.signature,
            oneTimePrekey⟩)
      .transact (.fetchForRequester requesterId targetUserId env.now FETCH_LIMITS env.choice)
        fun answer =>
        match answer with
        | some (.fetched (.fetched keyId publicKey)) => bundle (some ⟨keyId, b64Encode publicKey⟩)
        | some (.fetched .empty) => bundle none
        | some (.fetched .targetDepleted) => bundle none
        | some (.fetched .rateLimited) => some (error429 "pre-key fetch rate limit exceeded")
        | _ => some error500Generic
    | _, _ => .reply (some (error404 "not found"))

def PREKEY_LOW_THRESHOLD : UInt32 := 10

/-- The count that the owner of the keys is told as `PreKeyLow`. -/
def lowPrekeys (userId : UserId) (unixepoch : Nat) (db : Db C D) : Option UInt32 :=
  let remaining := countPrekeys userId unixepoch db
  if remaining < PREKEY_LOW_THRESHOLD then some remaining else none

/-- What `handle_fetch` tells the owner of the keys once the bundle is made. -/
def fetchNotice (targetUserId : UserId) (unixepoch : Nat) (answer : Option Answer) (db : Db C D) :
    Option UInt32 :=
  match answer with
  | some (.fetched .rateLimited) => none
  | some (.fetched _) => lowPrekeys targetUserId unixepoch db
  | _ => none

def uploadReply (uploadId : MessageId) (answer : Option Answer) : Option (ServerMessage C) :=
  match answer with
  | some (.uploaded (.accepted remaining)) => some (.preKeysUploaded uploadId true remaining)
  | some (.uploaded (.inventoryFull remaining)) => some (.preKeysUploaded uploadId false remaining)
  | some (.uploaded .invalidSequence) => some (error400 "prekey IDs must increase monotonically")
  | _ => some error500Generic

def handleUpload (userId : UserId) (uploadId : MessageId) (prekeys : List PublicOneTimePreKey)
    (env : RelayEnv) : Handling C :=
  if prekeys.length > MAX_PREKEYS_PER_UPLOAD then .reply (some (error400 "too many prekeys"))
  else if prekeys.isEmpty then .reply (some (error400 "prekey upload cannot be empty"))
  else
    match decodePrekeys prekeys with
    | .error message => .reply (some message)
    | .ok pairs =>
      .transact (.uploadPrekeys userId pairs MAX_PREKEYS_PER_USER env.unixepoch env.createdAt)
        (uploadReply uploadId)

/-- `decode_signed_prekey`. -/
def decodeSignedPrekey (publicKey signature : B64Text Bytes) :
    Except (ServerMessage C) (Key32 × Signature) :=
  match publicKey.decoded with
  | none => .error (error400 "invalid signed prekey encoding")
  | some publicBytes =>
    if hpub : publicBytes.length = 32 then
      match signature.decoded with
      | none => .error (error400 "invalid signed prekey signature encoding")
      | some sigBytes =>
        if hsig : sigBytes.length = 64 then .ok (⟨publicBytes, hpub⟩, ⟨sigBytes, hsig⟩)
        else .error (error400 "signed prekey signature must be 64 bytes")
    else .error (error400 "signed prekey must be 32 bytes")

/-- `verify_signed_prekey` on the stored identity key. -/
def verifySignedPrekey (S : IdentitySuite K Sec C) (identityKey : Bytes) (publicKey : Key32)
    (signature : Signature) : Except (ServerMessage C) Unit :=
  if h : identityKey.length = 32 then
    if ¬S.isVerifyingKey ⟨identityKey, h⟩ then .error error500Generic
    else if S.verify ⟨identityKey, h⟩ publicKey.toList signature then .ok ()
    else .error (error400 "signed prekey signature is invalid")
  else .error error500Generic

def rotationReply (rotationId : MessageId) (answer : Option Answer) : Option (ServerMessage C) :=
  match answer with
  | some (.rotated (.accepted currentKeyId)) =>
    some (.signedPreKeyRotated rotationId true false currentKeyId)
  | some (.rotated (.previouslyAccepted currentKeyId)) =>
    some (.signedPreKeyRotated rotationId false true currentKeyId)
  | some (.rotated (.invalidSequence currentKeyId)) =>
    some (.signedPreKeyRotated rotationId false false currentKeyId)
  | some (.rotated (.conflict currentKeyId)) =>
    some (.signedPreKeyRotated rotationId false false currentKeyId)
  | _ => some error500Generic

def handleSignedPrekeyRotation (S : IdentitySuite K Sec C) (userId : UserId)
    (rotationId : MessageId) (keyId : UInt32) (publicKey signature : B64Text Bytes) (db : Db C D) :
    Handling C :=
  match decodeSignedPrekey publicKey signature with
  | .error message => .reply (some message)
  | .ok (publicKey, signature) =>
    match getIdentityKey userId db with
    | none => .reply (some (error404 "not found"))
    | some identityKey =>
      match verifySignedPrekey S identityKey publicKey signature with
      | .error message => .reply (some message)
      | .ok () =>
        .transact (.rotateSignedPrekey userId keyId publicKey.toList signature.toList)
          (rotationReply rotationId)

/-! ## `handlers/message.rs` -/

/-- `validate_enqueue_result`, and `MessageSent` for an accepted message. -/
def enqueueReply (messageId : MessageId) (answer : Option Answer) : Option (ServerMessage C) :=
  match answer with
  | some (.enqueued .inserted) => some (.messageSent messageId)
  | some (.enqueued .duplicate) => some (.messageSent messageId)
  | some (.enqueued .queueFull) => some (error400 "recipient's message queue is full")
  | some (.enqueued .recipientNotFound) => some (error404 "not found")
  | some (.enqueued .prekeyReservationInvalid) =>
    some (.messageRejected messageId "one-time pre-key reservation expired")
  | some (.enqueued .signedPrekeyExpired) =>
    some (.messageRejected messageId "signed pre-key expired")
  | some (.enqueued .messageIdConflict) =>
    some (error400 "message ID already used with different content")
  | some (.enqueued .acceptanceLedgerFull) =>
    some (error400 "too many unconfirmed sent messages")
  | _ => some error500Generic

/-- The request of `handle_send`. -/
def sendRequest (senderId recipientId : UserId) (messageId : MessageId)
    (envelope : EncryptedEnvelope C) (now : Nat) : EnqueueRequest C where
  messageId := messageId
  recipientId := recipientId
  senderId := senderId
  envelope := envelope
  maxQueuePerUser := MAX_QUEUE_PER_USER
  signedPrekeyId := (envelopePrekeyIds envelope.header).1
  oneTimePrekeyId := (envelopePrekeyIds envelope.header).2
  now := now

/-- `pageLen` is the length of the JSON page that holds one message with a timestamp. -/
def handleSend (pageLen : InboundMessage C → Nat → Nat) (senderId recipientId : UserId)
    (messageId : MessageId) (envelope : EncryptedEnvelope C) (env : RelayEnv) : Handling C :=
  match validateEnvelope envelope with
  | .error message => .reply (some (error400 message))
  | .ok () =>
    if pageLen ⟨messageId, senderId, envelope⟩ env.timestamp > MAX_QUEUED_PAGE_BYTES then
      .reply (some (error400 "message exceeds queued delivery size"))
    else
      .transact
        (.enqueue (sendRequest senderId recipientId messageId envelope env.now) env.queuedAt)
        (enqueueReply messageId)

def handleMessageSentAck (senderId : UserId) (messageIds : List MessageId) : Handling C :=
  if messageIds.length > MAX_ACK_BATCH then
    .reply (some (error400 "ack batch exceeds maximum size"))
  else
    .transact (.confirmAcceptances senderId messageIds) fun answer =>
      if answer.isNone then some error500Generic else none

def handleAck (recipientId : UserId) (ackId : MessageId) (messageIds : List MessageId) :
    Handling C :=
  if messageIds.length > MAX_ACK_BATCH then
    .reply (some (error400 "ack batch exceeds maximum size"))
  else
    .transact (.deleteMessages recipientId messageIds) fun answer =>
      if answer.isNone then some error500Generic else some (.ackSuccess ackId messageIds)

/-- The prekeys that the header of a receipt names are not looked at. -/
def handleReadReceipt (fromId toId : UserId) (receiptId : MessageId)
    (envelope : EncryptedEnvelope C) : Handling C :=
  match validateEnvelope envelope with
  | .error message => .reply (some (error400 message))
  | .ok () =>
    .transact (.enqueueReceipt receiptId toId fromId envelope MAX_QUEUE_PER_USER) fun answer =>
      match answer with
      | some (.receiptQueued .inserted) => none
      | some (.receiptQueued .duplicate) => none
      | some (.receiptQueued .alreadyAcknowledged) => some (.readReceiptSent receiptId)
      | some (.receiptQueued .queueFull) => some (error400 "recipient read receipt queue is full")
      | some (.receiptQueued .collision) => some (error400 "read receipt ID already exists")
      | _ => some error500Generic

def handleReadReceiptAck (recipientId : UserId) (ackId : MessageId) (receiptIds : List MessageId) :
    Handling C :=
  if receiptIds.length > MAX_RECEIPT_BATCH then
    .reply (some (error400 "read receipt ack exceeds maximum size"))
  else
    .transact (.acknowledge recipientId receiptIds) fun answer =>
      if answer.isNone then some error500Generic else some (.ackSuccess ackId receiptIds)

def handleReadReceiptSentAck (senderId : UserId) (receiptIds : List MessageId) : Handling C :=
  if receiptIds.length > MAX_RECEIPT_BATCH then
    .reply (some (error400 "read receipt confirmation exceeds maximum size"))
  else
    .transact (.confirmSenderReceived senderId receiptIds) fun answer =>
      if answer.isNone then some error500Generic else some .success

/-! ## Routing -/

/-- `handle_message` on a connection of `userId`. -/
def handleMessage (S : IdentitySuite K Sec C) (pageLen : InboundMessage C → Nat → Nat)
    (userId : UserId) (env : RelayEnv) (db : Db C D) : ClientMessage C → Handling C
  | .uploadPreKeys uploadId prekeys => handleUpload userId uploadId prekeys env
  | .rotateSignedPreKey rotationId keyId publicKey signature =>
    handleSignedPrekeyRotation S userId rotationId keyId publicKey signature db
  | .fetchPreKeyBundle targetUserId => handleFetch userId targetUserId env db
  | .sendMessage recipientId messageId envelope =>
    handleSend pageLen userId recipientId messageId envelope env
  | .ack ackId messageIds => handleAck userId ackId messageIds
  | .ackMessageSent messageIds => handleMessageSentAck userId messageIds
  | .sendReadReceipt recipientId receiptId envelope =>
    handleReadReceipt userId recipientId receiptId envelope
  | .ackReadReceipt ackId receiptIds => handleReadReceiptAck userId ackId receiptIds
  | .ackReadReceiptSent receiptIds => handleReadReceiptSentAck userId receiptIds

/-! ## Transactions and replies -/

/-- The transaction that a message of `userId` makes. -/
def Transaction.Serves (userId : UserId) (env : RelayEnv) (message : ClientMessage C) :
    Transaction C → Prop
  | .uploadPrekeys user prekeys maxPrekeysPerUser unixepoch createdAt =>
    (user = userId ∧ unixepoch = env.unixepoch ∧ createdAt = env.createdAt) ∧
      maxPrekeysPerUser = MAX_PREKEYS_PER_USER ∧
      ∃ uploadId published, message = .uploadPreKeys uploadId published ∧
        decodePrekeys (C := C) published = .ok prekeys
  | .rotateSignedPrekey user keyId publicKey signature =>
    user = userId ∧ ∃ rotationId publicText signatureText,
      message = .rotateSignedPreKey rotationId keyId publicText signatureText ∧
        publicText.decoded = some publicKey ∧ signatureText.decoded = some signature
  | .fetchForRequester requesterId targetId now limits _ =>
    (requesterId = userId ∧ now = env.now) ∧ limits = FETCH_LIMITS ∧
      message = .fetchPreKeyBundle targetId
  | .enqueue request createdAt =>
    ∃ recipientId messageId envelope, createdAt = env.queuedAt ∧
      message = .sendMessage recipientId messageId envelope ∧
      request = sendRequest userId recipientId messageId envelope env.now
  | .confirmAcceptances senderId messageIds =>
    senderId = userId ∧ message = .ackMessageSent messageIds
  | .deleteMessages recipientId messageIds =>
    recipientId = userId ∧ ∃ ackId, message = .ack ackId messageIds
  | .enqueueReceipt receiptId recipientId senderId envelope _ =>
    senderId = userId ∧ message = .sendReadReceipt recipientId receiptId envelope
  | .acknowledge recipientId receiptIds =>
    recipientId = userId ∧ ∃ ackId, message = .ackReadReceipt ackId receiptIds
  | .confirmSenderReceived senderId receiptIds =>
    senderId = userId ∧ message = .ackReadReceiptSent receiptIds
  | _ => False

theorem decodeSignedPrekey_ok {publicKey signature : B64Text Bytes} {decoded : Key32 × Signature}
    (h : (decodeSignedPrekey publicKey signature : Except (ServerMessage C) _) = .ok decoded) :
    publicKey.decoded = some decoded.1.toList ∧ signature.decoded = some decoded.2.toList := by
  unfold decodeSignedPrekey at h
  repeat' split at h
  all_goals cases h
  next hpublic _ _ _ hsignature _ => exact ⟨hpublic, hsignature⟩

theorem handleMessage_serves {S : IdentitySuite K Sec C} {pageLen : InboundMessage C → Nat → Nat}
    {userId : UserId} {env : RelayEnv} {db : Db C D} {message : ClientMessage C}
    {t : Transaction C} {respond : Option Answer → Option (ServerMessage C)}
    (h : handleMessage S pageLen userId env db message = .transact t respond) :
    t.Serves userId env message := by
  cases message with
  | uploadPreKeys uploadId prekeys =>
    simp only [handleMessage, handleUpload] at h
    repeat' split at h
    all_goals cases h
    next hdecoded => exact ⟨⟨rfl, rfl, rfl⟩, rfl, _, _, rfl, hdecoded⟩
  | rotateSignedPreKey rotationId keyId publicKey signature =>
    simp only [handleMessage, handleSignedPrekeyRotation] at h
    repeat' split at h
    all_goals cases h
    next hdecoded _ _ _ _ _ =>
      obtain ⟨hpublic, hsignature⟩ := decodeSignedPrekey_ok hdecoded
      exact ⟨rfl, _, _, _, rfl, hpublic, hsignature⟩
  | fetchPreKeyBundle targetUserId =>
    simp only [handleMessage, handleFetch] at h
    repeat' split at h
    all_goals cases h
    exact ⟨⟨rfl, rfl⟩, rfl, rfl⟩
  | sendMessage recipientId messageId envelope =>
    simp only [handleMessage, handleSend] at h
    repeat' split at h
    all_goals cases h
    exact ⟨_, _, _, rfl, rfl, rfl⟩
  | ack | ackReadReceipt =>
    simp only [handleMessage, handleAck, handleReadReceiptAck] at h
    split at h <;> cases h
    exact ⟨rfl, _, rfl⟩
  | ackMessageSent | sendReadReceipt | ackReadReceiptSent =>
    simp only [handleMessage, handleMessageSentAck, handleReadReceipt,
      handleReadReceiptSentAck] at h
    split at h <;> cases h
    exact ⟨rfl, rfl⟩

/-- The replies a handler may give. -/
def Handling.Replies (P : ServerMessage C → Prop) : Handling C → Prop
  | .reply message => ∀ reply, message = some reply → P reply
  | .transact _ respond => ∀ answer reply, respond answer = some reply → P reply

theorem Handling.Replies.run [DecidableEq D] {P : ServerMessage C → Prop} {x : Handling C}
    (h : x.Replies P) {digest : EncryptedEnvelope C → D} {fails : Bool} {db : Db C D}
    {reply : ServerMessage C} (hreply : (x.run digest fails db).1 = some reply) : P reply := by
  cases x with
  | reply message => exact h reply hreply
  | transact t respond =>
    unfold Handling.run at hreply
    cases fails with
    | true => exact h none reply hreply
    | false => exact h _ reply hreply

theorem replies_reply {P : ServerMessage C → Prop} {message : ServerMessage C} (h : P message) :
    (Handling.reply (some message)).Replies P := by
  rintro reply ⟨⟩
  exact h

/-- A reply answers the message whose id it names. -/
def Answers (message : ClientMessage C) : ServerMessage C → Prop
  | .messageSent id => ∃ recipientId envelope, message = .sendMessage recipientId id envelope
  | .readReceiptSent id =>
    ∃ recipientId envelope, message = .sendReadReceipt recipientId id envelope
  | .preKeysUploaded id _ _ => ∃ prekeys, message = .uploadPreKeys id prekeys
  | .signedPreKeyRotated id _ _ _ =>
    ∃ keyId publicKey signature, message = .rotateSignedPreKey id keyId publicKey signature
  | _ => True

/-- What the relay does with an upload. -/
theorem handleUpload_cases (S : IdentitySuite K Sec C) (pageLen : InboundMessage C → Nat → Nat)
    (userId : UserId) (env : RelayEnv) (db : Db C D) (uploadId : MessageId)
    (prekeys : List PublicOneTimePreKey) :
    (∃ code text, handleMessage S pageLen userId env db (.uploadPreKeys uploadId prekeys) =
      .reply (some (.error code text))) ∨
    ∃ pairs, decodePrekeys (C := C) prekeys = .ok pairs ∧ prekeys ≠ [] ∧
      handleMessage S pageLen userId env db (.uploadPreKeys uploadId prekeys) =
        .transact (.uploadPrekeys userId pairs MAX_PREKEYS_PER_USER env.unixepoch env.createdAt)
          (uploadReply uploadId) := by
  simp only [handleMessage, handleUpload]
  split
  · exact .inl ⟨_, _, rfl⟩
  split
  · exact .inl ⟨_, _, rfl⟩
  next hne =>
  split
  · next hdecoded =>
    unfold decodePrekeys at hdecoded
    dsimp only at hdecoded
    split at hdecoded <;> cases hdecoded
    exact .inl ⟨_, _, rfl⟩
  · next pairs hdecoded => exact .inr ⟨pairs, hdecoded, fun h => hne (h ▸ rfl), rfl⟩

/-- What the relay does with a rotation. -/
theorem handleRotation_cases (S : IdentitySuite K Sec C) (pageLen : InboundMessage C → Nat → Nat)
    (userId : UserId) (env : RelayEnv) (db : Db C D) (rotationId : MessageId) (keyId : UInt32)
    (publicKey signature : B64Text Bytes) :
    (∃ code text, handleMessage S pageLen userId env db
      (.rotateSignedPreKey rotationId keyId publicKey signature) =
        .reply (some (.error code text))) ∨
    ∃ publicBytes signatureBytes, publicKey.decoded = some publicBytes ∧
      signature.decoded = some signatureBytes ∧
      handleMessage S pageLen userId env db
        (.rotateSignedPreKey rotationId keyId publicKey signature) =
          .transact (.rotateSignedPrekey userId keyId publicBytes signatureBytes)
            (rotationReply rotationId) := by
  simp only [handleMessage, handleSignedPrekeyRotation]
  split
  · next hdecoded =>
    unfold decodeSignedPrekey at hdecoded
    repeat' split at hdecoded
    all_goals cases hdecoded
    all_goals exact .inl ⟨_, _, rfl⟩
  next hdecoded =>
  split
  · exact .inl ⟨_, _, rfl⟩
  split
  · next hverified =>
    unfold verifySignedPrekey at hverified
    repeat' split at hverified
    all_goals cases hverified
    all_goals exact .inl ⟨_, _, rfl⟩
  · obtain ⟨hpublic, hsignature⟩ := decodeSignedPrekey_ok hdecoded
    exact .inr ⟨_, _, hpublic, hsignature, rfl⟩

theorem handleMessage_answers {S : IdentitySuite K Sec C}
    {pageLen : InboundMessage C → Nat → Nat} {userId : UserId} {env : RelayEnv} {db : Db C D}
    {message : ClientMessage C} :
    (handleMessage S pageLen userId env db message).Replies (Answers message) := by
  cases message with
  | sendMessage recipientId messageId envelope =>
    simp only [handleMessage, handleSend]
    split
    · exact replies_reply trivial
    split
    · exact replies_reply trivial
    intro answer reply hreply
    unfold enqueueReply at hreply
    split at hreply <;> cases hreply
    all_goals first | exact trivial | exact ⟨_, _, rfl⟩
  | uploadPreKeys uploadId prekeys =>
    rcases handleUpload_cases S pageLen userId env db uploadId prekeys with
      ⟨code, text, h⟩ | ⟨pairs, -, -, h⟩
    · rw [h]
      exact replies_reply trivial
    · rw [h]
      intro answer reply hreply
      unfold uploadReply at hreply
      split at hreply <;> cases hreply
      all_goals first | exact trivial | exact ⟨_, rfl⟩
  | rotateSignedPreKey rotationId keyId publicKey signature =>
    rcases handleRotation_cases S pageLen userId env db rotationId keyId publicKey signature with
      ⟨code, text, h⟩ | ⟨publicBytes, signatureBytes, -, -, h⟩
    · rw [h]
      exact replies_reply trivial
    · rw [h]
      intro answer reply hreply
      unfold rotationReply at hreply
      split at hreply <;> cases hreply
      all_goals first | exact trivial | exact ⟨_, _, _, rfl⟩
  | fetchPreKeyBundle targetUserId =>
    simp only [handleMessage, handleFetch]
    split
    · exact replies_reply trivial
    split
    · intro answer reply hreply
      dsimp only at hreply
      split at hreply <;> cases hreply <;> trivial
    · exact replies_reply trivial
  | sendReadReceipt recipientId receiptId envelope =>
    simp only [handleMessage, handleReadReceipt]
    split
    · exact replies_reply trivial
    · intro answer reply hreply
      dsimp only at hreply
      split at hreply <;> cases hreply
      all_goals first | exact trivial | exact ⟨_, _, rfl⟩
  | ack | ackMessageSent | ackReadReceipt | ackReadReceiptSent =>
    simp only [handleMessage, handleAck, handleMessageSentAck, handleReadReceiptAck,
      handleReadReceiptSentAck]
    split
    · exact replies_reply trivial
    · intro answer reply hreply
      dsimp only at hreply
      split at hreply <;> cases hreply <;> trivial

end Cmp.Relay
