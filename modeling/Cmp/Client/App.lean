import Cmp.Client.Prekeys

/-! The application around the manager: `app.rs`, `app_inbound.rs`, `app_prekeys.rs`
and the message table of `db.rs`. Handlers are actions on `App`; they send by
appending to `outgoing`. What is only drawn on the screen, the table of identity keys
and typing notices are left out. Drawn secrets, clock readings, new ids and refused
calls are arguments, as in the manager. -/

namespace Cmp.Client

open Cmp.Crypto Cmp.Protocol Cmp.Lib

variable {K Sec C : Type} {α : Type}

/-! ## State -/

inductive MessageDirection
  | sent
  | received
  deriving DecidableEq

/-- A row of `messages`. -/
structure HistoryRow where
  peerId : UserId
  direction : MessageDirection
  messageId : MessageId
  body : String
  deriving DecidableEq

structure App (K Sec C : Type) where
  userId : UserId
  crypto : Manager K Sec C
  messages : List HistoryRow
  targetUser : Option UserId
  authenticated : Bool
  unreadMessages : HMap UserId (List MessageId)
  outgoing : List (ClientMessage C)

abbrev AppM (K Sec C : Type) := EStateM Failure (App K Sec C)

/-- A new id, and whether the store refuses the call it is for. -/
structure IdEnv where
  id : MessageId
  fails : Bool

structure RotationEnv (Sec : Type) where
  now : Nat
  drawn : Sec
  rotationId : MessageId
  fails : Bool

structure InboundEnv (Sec : Type) where
  decrypt : DecryptEnv Sec
  historyFails : Bool
  confirmFails : Bool

/-- `INSERT OR IGNORE` under the unique index on `message_id`: the rows after, and
whether one was added. -/
def insertMessage (row : HistoryRow) (messages : List HistoryRow) : List HistoryRow × Bool :=
  if row.messageId ∈ messages.map HistoryRow.messageId then (messages, false)
  else (messages ++ [row], true)

namespace App

/-- `App::new` with the rows of an opened `client.db`. -/
def new (userId : UserId) (crypto : Manager K Sec C) (messages : List HistoryRow) :
    App K Sec C where
  userId := userId
  crypto := crypto
  messages := messages
  targetUser := none
  authenticated := false
  unreadMessages := ∅
  outgoing := []

/-- A call of the manager; its error is a value. -/
def attempt (action : ManagerM K Sec C α) : AppM K Sec C (Except ManagerError α) := do
  let app ← get
  match action.run app.crypto with
  | .ok a m =>
    set { app with crypto := m }
    pure (.ok a)
  | .error e m =>
    set { app with crypto := m }
    pure (.error e)

def send (message : ClientMessage C) : AppM K Sec C Unit :=
  modify fun app => { app with outgoing := app.outgoing ++ [message] }

def persistMessage (fails : Bool) (row : HistoryRow) : AppM K Sec C Bool := do
  if fails then throw .unavailable
  else
    let app ← get
    let inserted := insertMessage row app.messages
    set { app with messages := inserted.1 }
    pure inserted.2

/-! ## `app_inbound.rs` -/

/-- An acknowledgement is sent if it could be queued. -/
def sendQueued (action : ManagerM K Sec C (ClientMessage C)) : AppM K Sec C Unit := do
  match ← attempt action with
  | .ok ack => send ack
  | .error _ => pure ()

def queueAck (messageIds : List MessageId) (env : IdEnv) : AppM K Sec C Unit :=
  sendQueued (Client.queueAck messageIds env.id env.fails)

def queueReadReceiptAck (receiptIds : List MessageId) (env : IdEnv) : AppM K Sec C Unit :=
  sendQueued (Client.queueReadReceiptAck receiptIds env.id env.fails)

def commitPendingInbound (inbound : InboundMessage C) (text : String) (env : InboundEnv Sec) :
    AppM K Sec C Bool := do
  let inserted ←
    persistMessage env.historyFails ⟨inbound.senderId, .received, inbound.messageId, text⟩
  match ← attempt (confirmInboundStored inbound.senderId inbound.messageId env.confirmFails) with
  | .ok () => pure inserted
  | .error _ => throw .unavailable

/-- Sender, id, `should_ack` and `fresh`. -/
def processPendingInbound (inbound : InboundMessage C) (text : String) (env : InboundEnv Sec) :
    AppM K Sec C (UserId × MessageId × Bool × Bool) := do
  let app ← get
  match (commitPendingInbound inbound text env).run app with
  | .ok inserted app' =>
    set app'
    pure (inbound.senderId, inbound.messageId, true, inserted)
  | .error _ app' =>
    set app'
    pure (inbound.senderId, inbound.messageId, false, false)

def processInbound (S : IdentitySuite K Sec C) (inbound : InboundMessage C) (env : InboundEnv Sec) :
    AppM K Sec C (UserId × MessageId × Bool × Bool) := do
  match ← attempt (decryptMessageToText S inbound.senderId inbound.messageId inbound.envelope
      env.decrypt) with
  | .ok (.pending text) => processPendingInbound inbound text env
  | .ok .duplicate => pure (inbound.senderId, inbound.messageId, true, false)
  | _ => pure (inbound.senderId, inbound.messageId, false, false)

def flushReadReceipts (S : IdentitySuite K Sec C) (texts : List MessageId → Bytes)
    (target : UserId) (env : IdEnv) : AppM K Sec C Unit := do
  let app ← get
  match app.unreadMessages.lookup target with
  | none => pure ()
  | some unread =>
    if !unread.isEmpty && app.crypto.hasSession target then
      match ← attempt (encryptReadReceipt S texts target target unread env.id env.fails) with
      | .ok receipt =>
        send receipt
        modify fun app => { app with unreadMessages := app.unreadMessages.erase target }
      | .error _ => pure ()
    else pure ()

def accumulateUnread (sender : UserId) (messageId : MessageId) : AppM K Sec C Unit :=
  modify fun app =>
    let entry := (app.unreadMessages.lookup sender).getD []
    { app with
      unreadMessages :=
        app.unreadMessages.insert sender
          (if entry.length < MAX_RECEIPT_BATCH then entry ++ [messageId] else entry) }

/-! ## `app_prekeys.rs` -/

def queueSignedPrekeyRotation (S : IdentitySuite K Sec C) (env : RotationEnv Sec) :
    AppM K Sec C (Except ManagerError Bool) :=
  attempt (Client.queueSignedPrekeyRotation S env.now env.drawn env.rotationId env.fails)

def isRotationMessage : ClientMessage C → Bool
  | .rotateSignedPreKey .. => true
  | _ => false

def sendPendingRotation : AppM K Sec C Unit := do
  let app ← get
  match app.crypto.pendingMessages.find? isRotationMessage with
  | some rotation => send rotation
  | none => pure ()

def handleLifecycleTick (S : IdentitySuite K Sec C) (env : RotationEnv Sec) :
    AppM K Sec C Unit := do
  let app ← get
  if app.authenticated then
    match ← queueSignedPrekeyRotation S env with
    | .ok true => sendPendingRotation
    | _ => pure ()
  else pure ()

/-- `send_replacement` after a confirmation. -/
def sendReplacement (action : ManagerM K Sec C (Option (ClientMessage C))) :
    AppM K Sec C Unit := do
  match ← attempt action with
  | .ok (some replacement) => send replacement
  | _ => pure ()

/-- Returns whether sending has to wait. -/
def refreshExpiredSession (target : UserId) (now : Nat) (fails : Bool) : AppM K Sec C Bool := do
  match ← attempt (expireStalePrekeySession target now fails) with
  | .ok true =>
    let _ ← attempt (addPending target)
    send (.fetchPreKeyBundle target)
    pure true
  | .ok false => pure false
  | .error _ => pure true

def handleMessageRejected (messageId : MessageId) (fails : Bool) : AppM K Sec C Unit := do
  match ← attempt (rejectMessage messageId fails) with
  | .ok (some recipientId) =>
    let _ ← attempt (addPending recipientId)
    send (.fetchPreKeyBundle recipientId)
  | _ => pure ()

/-! ## `app.rs` -/

/-- An insert whose failure is only logged. -/
def tryPersistMessage (fails : Bool) (row : HistoryRow) : AppM K Sec C Unit := do
  let app ← get
  match (persistMessage fails row).run app with
  | .ok _ app' => set app'
  | .error _ app' => set app'

/-- `text` is the trimmed text of the composer. -/
def handleEnter (S : IdentitySuite K Sec C) (text : String) (now : Nat) (expireFails : Bool)
    (env : IdEnv) (historyFails : Bool) : AppM K Sec C Unit := do
  let app ← get
  if text.isEmpty then pure () else
  match app.targetUser with
  | none => pure ()
  | some target =>
    if target = app.userId then
      tryPersistMessage historyFails ⟨target, .sent, env.id, text⟩
    else if !app.crypto.hasSession target || !app.authenticated then pure ()
    else if ← refreshExpiredSession target now expireFails then pure ()
    else if (text.utf8ByteSize + 18) / 3 * 4 > MAX_CIPHERTEXT_BYTES then pure ()
    else
      match ← attempt (encryptMessage S target target env.id text.toUTF8.data.toList env.fails) with
      | .error _ => pure ()
      | .ok outbound =>
        send outbound
        tryPersistMessage historyFails ⟨target, .sent, env.id, text⟩

def openConversation (S : IdentitySuite K Sec C) (texts : List MessageId → Bytes)
    (target : UserId) (flush : IdEnv) : AppM K Sec C Unit := do
  modify fun app => { app with targetUser := some target }
  let app ← get
  if target = app.userId then pure ()
  else if app.crypto.hasSession target then flushReadReceipts S texts target flush
  else
    let _ ← attempt (addPending target)
    if app.authenticated then send (.fetchPreKeyBundle target) else pure ()

def handlePreKeyBundleResponse (S : IdentitySuite K Sec C) (userId : UserId)
    (bundle : PreKeyBundle) (ephemeral drawn : Sec) (now : Nat) (fails : Bool) :
    AppM K Sec C Unit := do
  let app ← get
  if app.crypto.isPending userId then
    let _ ← attempt (initSessionFromBundle S userId bundle ephemeral drawn now fails)
  else pure ()

/-- The receipt for a message shown at once, or its id kept for later. -/
def receiptOrUnread (S : IdentitySuite K Sec C) (texts : List MessageId → Bytes)
    (sender : UserId) (messageId : MessageId) (receipt : IdEnv) : AppM K Sec C Unit := do
  let app ← get
  if app.targetUser = some sender ∧ app.crypto.hasSession sender then
    match ← attempt (encryptReadReceipt S texts sender sender [messageId] receipt.id
        receipt.fails) with
    | .ok message => send message
    | .error _ => accumulateUnread sender messageId
  else accumulateUnread sender messageId

def handleIncomingMessage (S : IdentitySuite K Sec C) (texts : List MessageId → Bytes)
    (inbound : InboundMessage C) (env : InboundEnv Sec) (ack flush receipt : IdEnv) :
    AppM K Sec C Unit := do
  let (sender, messageId, shouldAck, fresh) ← processInbound S inbound env
  if shouldAck then queueAck [inbound.messageId] ack
  if fresh then
    let app ← get
    if app.targetUser = none then openConversation S texts sender flush
    receiptOrUnread S texts sender messageId receipt

/-- The loop over a page; returns the ids to acknowledge. -/
def processPage (S : IdentitySuite K Sec C) :
    List (InboundMessage C × InboundEnv Sec) → AppM K Sec C (List MessageId)
  | [] => pure []
  | (inbound, env) :: rest => do
    let (sender, messageId, shouldAck, fresh) ← processInbound S inbound env
    if fresh then accumulateUnread sender messageId
    let ackIds ← processPage S rest
    pure (if shouldAck then inbound.messageId :: ackIds else ackIds)

def handleQueuedMessages (S : IdentitySuite K Sec C) (texts : List MessageId → Bytes)
    (messages : List (InboundMessage C × InboundEnv Sec)) (ack flush : IdEnv) :
    AppM K Sec C Unit := do
  let ackIds ← processPage S messages
  if !ackIds.isEmpty then queueAck ackIds ack
  let app ← get
  match app.targetUser with
  | some target => flushReadReceipts S texts target flush
  | none => pure ()

/-- The part of `IncomingReadReceipt` before the acknowledgement; `parses` is
whether a text is the JSON of a list of strings. -/
def openReadReceipt (S : IdentitySuite K Sec C) (parses : String → Bool) (senderId : UserId)
    (receiptId : MessageId) (envelope : EncryptedEnvelope C) (env : DecryptEnv Sec)
    (confirmFails : Bool) : AppM K Sec C Bool := do
  match ← attempt (decryptMessageToText S senderId receiptId envelope env) with
  | .ok (.pending text) =>
    if parses text then
      let _ ← attempt (confirmInboundStored senderId receiptId confirmFails)
      pure true
    else pure false
  | .ok .duplicate => pure true
  | _ => pure false

/-- A confirmation, and the message that tells the relay when it succeeded. -/
def confirmAndTell (action : ManagerM K Sec C Unit) (message : ClientMessage C) :
    AppM K Sec C Unit := do
  match ← attempt action with
  | .ok () => send message
  | .error _ => pure ()

def sendAll (messages : List (ClientMessage C)) : AppM K Sec C Unit :=
  modify fun app => { app with outgoing := app.outgoing ++ messages }

/-- `order` is the order in which the set of pending peers is walked. -/
def handleAuthenticated (S : IdentitySuite K Sec C) (env : RotationEnv Sec) (order : List UserId) :
    AppM K Sec C Unit := do
  modify fun app => { app with authenticated := true }
  let _ ← queueSignedPrekeyRotation S env
  let app ← get
  sendAll app.crypto.pendingMessages
  sendAll ((order.filter fun peer => app.crypto.isPending peer).map .fetchPreKeyBundle)

end App

/-! ## Events -/

/-- What the user does, and what the network task reports; `disconnected` stands for
`AuthFailed`, too. -/
inductive Event (Sec C : Type)
  | openConversation (target : UserId) (flush : IdEnv)
  | enter (text : String) (now : Nat) (expireFails : Bool) (env : IdEnv) (historyFails : Bool)
  | lifecycleTick (env : RotationEnv Sec)
  | authenticated (env : RotationEnv Sec) (order : List UserId)
  | disconnected
  | preKeyBundleResponse (userId : UserId) (bundle : PreKeyBundle) (ephemeral drawn : Sec)
      (now : Nat) (fails : Bool)
  | incomingMessage (inbound : InboundMessage C) (env : InboundEnv Sec) (ack flush receipt : IdEnv)
  | queuedMessages (messages : List (InboundMessage C × InboundEnv Sec)) (ack flush : IdEnv)
  | messageSent (messageId : MessageId) (fails : Bool)
  | messageRejected (messageId : MessageId) (fails : Bool)
  | ackSuccess (ackId : MessageId) (messageIds : List MessageId) (fails : Bool)
  | readReceiptSent (receiptId : MessageId) (fails : Bool)
  | incomingReadReceipt (senderId : UserId) (receiptId : MessageId)
      (envelope : EncryptedEnvelope C) (env : DecryptEnv Sec) (confirmFails : Bool) (ack : IdEnv)
  | preKeyLow (env : UploadEnv Sec)
  | preKeysUploaded (uploadId : MessageId) (accepted : Bool) (remaining : UInt32)
      (env : UploadEnv Sec) (fails : Bool)
  | signedPreKeyRotated (rotationId : MessageId) (accepted previouslyAccepted : Bool)
      (currentKeyId : UInt32) (now : Nat) (drawn : Sec) (newId : MessageId) (fails : Bool)

/-- `handle_app_event`, `handle_server_message`, the key events that reach the
manager, and the lifecycle tick. -/
def App.handle (S : IdentitySuite K Sec C) (texts : List MessageId → Bytes)
    (parses : String → Bool) : Event Sec C → AppM K Sec C Unit
  | .openConversation target flush => openConversation S texts target flush
  | .enter text now expireFails env historyFails =>
    handleEnter S text now expireFails env historyFails
  | .lifecycleTick env => handleLifecycleTick S env
  | .authenticated env order => handleAuthenticated S env order
  | .disconnected => modify fun app => { app with authenticated := false }
  | .preKeyBundleResponse userId bundle ephemeral drawn now fails =>
    handlePreKeyBundleResponse S userId bundle ephemeral drawn now fails
  | .incomingMessage inbound env ack flush receipt =>
    handleIncomingMessage S texts inbound env ack flush receipt
  | .queuedMessages messages ack flush => handleQueuedMessages S texts messages ack flush
  | .messageSent messageId fails =>
    confirmAndTell (confirmMessageSent messageId fails) (.ackMessageSent [messageId])
  | .messageRejected messageId fails => handleMessageRejected messageId fails
  | .ackSuccess ackId messageIds fails => do
    let _ ← attempt (confirmAcked ackId messageIds fails)
  | .readReceiptSent receiptId fails =>
    confirmAndTell (confirmReadReceiptSent receiptId fails) (.ackReadReceiptSent [receiptId])
  | .incomingReadReceipt senderId receiptId envelope env confirmFails ack => do
    if ← openReadReceipt S parses senderId receiptId envelope env confirmFails then
      queueReadReceiptAck [receiptId] ack
    else pure ()
  | .preKeyLow env => sendQueued (queuePrekeyReplenishment S env)
  | .preKeysUploaded uploadId accepted remaining env fails =>
    sendReplacement (confirmPrekeysUploaded S uploadId accepted remaining env fails)
  | .signedPreKeyRotated rotationId accepted previouslyAccepted currentKeyId now drawn
    newId fails =>
    sendReplacement (confirmSignedPrekeyRotated S rotationId accepted previouslyAccepted
      currentKeyId now drawn newId fails)

end Cmp.Client
