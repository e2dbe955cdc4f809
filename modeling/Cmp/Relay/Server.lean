import Cmp.Protocol.Session
import Cmp.Relay.Delivery

/-! The relay as a process (`handlers/mod.rs`, `handlers/auth.rs`, `connection.rs`,
`ws.rs`): any number of connections, each with a session, a read loop and a channel to
its writer, the registry of the users that are online, and the database. A message is
handled in one step; taking a frame, handling it, each await of the deliveries after a
login, telling a displaced connection, cleaning up and writing to the socket are steps of
their own, in any order between connections. -/

namespace Cmp.Relay

open Cmp.Crypto Cmp.Protocol Cmp.Lib

variable {K Sec C D κ : Type}

/-! ## Channels -/

def OUTBOUND_CHANNEL_CAPACITY : Nat := 8

/-- The bounded channel of a connection: all that it has accepted, and how much of that
the writer has taken. It is closed when the writer is gone. -/
structure Channel (C : Type) where
  sent : List (Outbound C)
  taken : Nat
  isOpen : Bool

namespace Channel

def new : Channel C := ⟨[], 0, true⟩

/-- `try_send`. -/
def trySend (message : Outbound C) (channel : Channel C) : Bool × Channel C :=
  if channel.isOpen ∧ channel.sent.length < channel.taken + OUTBOUND_CHANNEL_CAPACITY then
    (true, { channel with sent := channel.sent ++ [message] })
  else (false, channel)

/-- `send(..).await`: waits until the writer has made room. -/
def send (message : Outbound C) (channel : Channel C) : Channel C :=
  if channel.isOpen then
    { channel with
      sent := channel.sent ++ [message]
      taken := max channel.taken (channel.sent.length + 1 - OUTBOUND_CHANNEL_CAPACITY) }
  else channel

end Channel

/-! ## Sessions -/

structure PendingChallenge where
  userId : UserId
  nonce : Key32
  timestamp : UInt64

/-- `handlers::Session`. -/
structure Session where
  authedUser : Option UserId
  connId : Option Nat
  pendingChallenge : Option PendingChallenge
  deliverPrekeyStatus : Bool

def Session.new : Session := ⟨none, none, none, false⟩

/-- A WebSocket message; `none` is a text that is no `ClientMessage`. -/
inductive Frame (C : Type)
  | text (message : Option (SessionMessage C))
  | close
  | other

/-- Where the read loop of a connection stands. `greeting` is with the deliveries after a
login, `ended` after the loop and `gone` after the clean-up. -/
inductive Phase (C : Type)
  | reading
  | framed (frame : Frame C)
  | greeting (delivery : Delivery C)
  | ended
  | gone

/-- `cancelled` is the value of the watch. -/
structure Socket (C : Type) where
  session : Session
  cancelled : Bool
  phase : Phase C
  channel : Channel C

def Socket.new : Socket C := ⟨.new, false, .reading, .new⟩

/-! ## The state -/

/-- An entry of the registry; `sender` and `cancel` are those of the connection `conn`. -/
structure ConnEntry (κ : Type) where
  connId : Nat
  conn : κ

/-- `κ` names the connections. `displaced` are the entries that an insert has replaced and
not yet told. -/
structure Server (κ C D : Type) where
  db : Db C D
  online : UserId → Option (ConnEntry κ)
  nextConnId : Nat
  displaced : List κ
  sockets : κ → Socket C

/-- A process that has just started on a database. -/
def Server.boot (db : Db C D) : Server κ C D := ⟨db, fun _ => none, 1, [], fun _ => .new⟩

def Server.session (s : Server κ C D) (conn : κ) : Session := (s.sockets conn).session

/-- What the process is configured with. -/
structure Deployment (K Sec C D : Type) where
  suite : IdentitySuite K Sec C
  wire : Wire C
  digest : EncryptedEnvelope C → D
  serverId : String

/-- What the handling of one message reads: the clocks, the drawn nonce, and whether the
database refuses the call. -/
structure SessionEnv extends RelayEnv where
  nonce : Key32
  nowSecs : UInt64
  fails : Bool

variable [DecidableEq κ]

namespace Server

def setSocket (conn : κ) (socket : Socket C) (s : Server κ C D) : Server κ C D :=
  { s with sockets := Function.update s.sockets conn socket }

def setSession (conn : κ) (session : Session) (s : Server κ C D) : Server κ C D :=
  s.setSocket conn { s.sockets conn with session := session }

def setPhase (conn : κ) (phase : Phase C) (s : Server κ C D) : Server κ C D :=
  s.setSocket conn { s.sockets conn with phase := phase }

def setChannel (conn : κ) (channel : Channel C) (s : Server κ C D) : Server κ C D :=
  s.setSocket conn { s.sockets conn with channel := channel }

theorem sockets_setSocket (s : Server κ C D) (conn other : κ) (socket : Socket C) :
    (s.setSocket conn socket).sockets other = if other = conn then socket else s.sockets other :=
  Function.update_apply _ _ _ _

theorem session_setSocket (s : Server κ C D) (conn other : κ) (socket : Socket C) :
    (s.setSocket conn socket).session other =
      if other = conn then socket.session else s.session other := by
  unfold session
  rw [sockets_setSocket]
  split <;> rfl

/-- A part of the sockets that the new socket has as the old one. -/
theorem setSocket_keeps {α : Type} (part : Socket C → α) {s : Server κ C D} {conn : κ}
    {socket : Socket C} (h : part socket = part (s.sockets conn)) (other : κ) :
    part ((s.setSocket conn socket).sockets other) = part (s.sockets other) := by
  rw [sockets_setSocket]
  split
  · next heq => rw [heq, h]
  · rfl

theorem phase_setSession (s : Server κ C D) (conn : κ) (session : Session) :
    ∀ other, ((s.setSession conn session).sockets other).phase = (s.sockets other).phase :=
  setSocket_keeps (·.phase) rfl

theorem cancelled_setSession (s : Server κ C D) (conn : κ) (session : Session) :
    ∀ other, ((s.setSession conn session).sockets other).cancelled = (s.sockets other).cancelled :=
  setSocket_keeps (·.cancelled) rfl

/-! ## `connection.rs` -/

/-- `send_to`. -/
def sendTo (userId : UserId) (message : Outbound C) (s : Server κ C D) :
    Bool × Server κ C D :=
  match s.online userId with
  | none => (false, s)
  | some entry =>
    let sent := (s.sockets entry.conn).channel.trySend message
    (sent.1, s.setChannel entry.conn sent.2)

/-- `insert`, up to the swap in the map. -/
def insert (userId : UserId) (conn : κ) (s : Server κ C D) : Nat × Server κ C D :=
  (s.nextConnId,
    { s with
      online := Function.update s.online userId (some ⟨s.nextConnId, conn⟩)
      nextConnId := s.nextConnId + 1
      displaced := s.displaced ++ ((s.online userId).map ConnEntry.conn).toList })

/-- The rest of `insert`: the displaced connection is told and cancelled. -/
def notifyDisplaced (conn : κ) (s : Server κ C D) : Server κ C D :=
  if conn ∈ s.displaced then
    let socket := s.sockets conn
    let replaced := socket.channel.trySend
      (.reply (.error 409 "session replaced by new connection"))
    { s with displaced := s.displaced.erase conn }.setSocket conn
      { socket with channel := replaced.2, cancelled := true }
  else s

def removeIfMatch (userId : UserId) (connId : Nat) (s : Server κ C D) : Server κ C D :=
  if (s.online userId).any fun entry => decide (entry.connId = connId) then
    { s with online := Function.update s.online userId none }
  else s

/-! ## `handlers/auth.rs` -/

/-- The end of a successful registration or response. -/
def login (conn : κ) (userId : UserId) (deliverStatus : Bool) (s : Server κ C D) :
    Server κ C D :=
  let inserted := s.insert userId conn
  inserted.2.setSession conn
    { s.session conn with
      authedUser := some userId
      connId := some inserted.1
      deliverPrekeyStatus := (s.session conn).deliverPrekeyStatus || deliverStatus }

end Server

section Handlers

variable [DecidableEq D] (R : Deployment K Sec C D)

/-- The checks of `handle_auth_response` on the challenge it has taken. -/
def checkResponse (challenge : PendingChallenge) (signature : B64Text Bytes) (env : SessionEnv)
    (db : Db C D) : Except (ServerMessage C) Unit :=
  if env.nowSecs.toNat - challenge.timestamp.toNat > 60 then
    .error (authFailure "challenge expired")
  else if env.fails then .error error500Generic
  else
    match getIdentityKey challenge.userId db with
    | none => .error (authFailure "authentication failed")
    | some identityBytes =>
      if hkey : identityBytes.length = 32 then
        let vk : Key32 := ⟨identityBytes, hkey⟩
        if ¬R.suite.isVerifyingKey vk then .error (authFailure "invalid stored identity key")
        else
          match signature.decoded with
          | none => .error (authFailure "invalid base64 signature")
          | some sigBytes =>
            if hsig : sigBytes.length = 64 then
              if R.suite.verify vk
                  (signedData challenge.nonce.toList challenge.timestamp R.serverId)
                  ⟨sigBytes, hsig⟩ then .ok ()
              else .error (authFailure "signature verification failed")
            else .error (authFailure "signature must be 64 bytes")
      else .error (authFailure "invalid stored identity key")

namespace Server

def handleRegister (conn : κ) (userId : UserId) (bundle : PreKeyBundle)
    (oneTimePrekeys : List PublicOneTimePreKey) (env : SessionEnv) (s : Server κ C D) :
    Option (ServerMessage C) × Server κ C D :=
  if (s.session conn).authedUser.isSome then (some (authFailure "already authenticated"), s)
  else
    let handled := (Relay.handleRegister R.suite userId bundle oneTimePrekeys env.toRelayEnv).run
      R.digest env.fails s.db
    match handled.1 with
    | some .authSuccess =>
      (some .authSuccess, { s with db := handled.2 }.login conn userId false)
    | reply => (reply, { s with db := handled.2 })

def handleAuthChallenge (conn : κ) (userId : UserId) (env : SessionEnv) (s : Server κ C D) :
    Option (ServerMessage C) × Server κ C D :=
  if (s.session conn).authedUser.isSome then (some (authFailure "already authenticated"), s)
  else if env.fails then (some error500Generic, s)
  else if ¬s.db.hasUser userId then (some (authFailure "authentication failed"), s)
  else
    (some (.challenge (b64Encode env.nonce.toList) env.nowSecs R.serverId),
      s.setSession conn
        { s.session conn with pendingChallenge := some ⟨userId, env.nonce, env.nowSecs⟩ })

def handleAuthResponse (conn : κ) (signature : B64Text Bytes) (env : SessionEnv)
    (s : Server κ C D) : Option (ServerMessage C) × Server κ C D :=
  if (s.session conn).authedUser.isSome then (some (authFailure "already authenticated"), s)
  else
    match (s.session conn).pendingChallenge with
    | none => (some (authFailure "no pending challenge"), s)
    | some challenge =>
      let taken := s.setSession conn { s.session conn with pendingChallenge := none }
      match checkResponse R challenge signature env s.db with
      | .error reply => (some reply, taken)
      | .ok () => (some .authSuccess, taken.login conn challenge.userId true)

/-! ## `handlers/mod.rs` -/

/-- What the handlers send to other connections, once the database has answered. -/
def pushes (userId : UserId) (env : SessionEnv) (answer : Option Answer) (s : Server κ C D) :
    ClientMessage C → Server κ C D
  | .sendMessage recipientId messageId envelope =>
    match answer with
    | some (.enqueued result) =>
      if result.isAccepted then
        let pushed := s.sendTo recipientId
          (.incomingMessage ⟨⟨messageId, userId, envelope⟩, env.timestamp⟩)
        if pushed.1 then (pushed.2.sendTo userId (.messageDelivered [messageId])).2 else pushed.2
      else s
    | _ => s
  | .fetchPreKeyBundle targetUserId =>
    match fetchNotice targetUserId env.unixepoch answer s.db with
    | some remaining => (s.sendTo targetUserId (.preKeyLow remaining)).2
    | none => s
  | .sendReadReceipt recipientId receiptId envelope =>
    let receipt : Outbound C := .incomingReadReceipt userId receiptId envelope
    match answer with
    | some (.receiptQueued .inserted) => (s.sendTo recipientId receipt).2
    | some (.receiptQueued .duplicate) => (s.sendTo recipientId receipt).2
    | _ => s
  | .ackReadReceipt _ _ =>
    match answer with
    | some (.acknowledged receipts) =>
      receipts.foldl
        (fun s receipt => (s.sendTo receipt.2 (.reply (.readReceiptSent receipt.1))).2) s
    | _ => s
  | _ => s

/-- A request on a connection of `userId`. -/
def handleRequest (userId : UserId) (message : ClientMessage C) (env : SessionEnv)
    (s : Server κ C D) : Option (ServerMessage C) × Server κ C D :=
  let handling := Relay.handleMessage R.suite (pageLen R.wire) userId env.toRelayEnv s.db message
  let handled := handling.run R.digest env.fails s.db
  (handled.1, { s with db := handled.2 }.pushes userId env
    (handling.answer? R.digest env.fails s.db) message)

/-- `handle_message`. -/
def handleMessage (conn : κ) (message : SessionMessage C) (env : SessionEnv)
    (s : Server κ C D) : Option (ServerMessage C) × Server κ C D :=
  match message with
  | .register userId bundle oneTimePrekeys =>
    s.handleRegister R conn userId bundle oneTimePrekeys env
  | .authChallenge userId => s.handleAuthChallenge R conn userId env
  | .authResponse signature => s.handleAuthResponse R conn signature env
  | .typing recipientId =>
    match (s.session conn).authedUser with
    | none => (some (authFailure "not authenticated"), s)
    | some userId => (none, (s.sendTo recipientId (.peerTyping userId)).2)
  | .request message =>
    match (s.session conn).authedUser with
    | none => (some (authFailure "not authenticated"), s)
    | some userId => s.handleRequest R userId message env

/-! ## `ws.rs` -/

/-- The biased `select!`: a connection that is cancelled takes no frame; `none` is the end
of the stream. -/
def poll (conn : κ) (next : Option (Frame C)) (s : Server κ C D) : Server κ C D :=
  match (s.sockets conn).phase with
  | .reading =>
    if (s.sockets conn).cancelled then s.setPhase conn .ended
    else
      match next with
      | none => s.setPhase conn .ended
      | some frame => s.setPhase conn (.framed frame)
  | _ => s

/-- Where the loop goes on after a message. -/
def nextPhase (W : Wire C) (wasAuthed : Bool) (session : Session) (accepted : Bool) : Phase C :=
  if accepted then
    match wasAuthed, session.authedUser with
    | false, some userId => .greeting (.start W userId session.deliverPrekeyStatus)
    | _, _ => .reading
  else .ended

/-- The message of a frame is handled, and its reply put on the channel. -/
def serve (conn : κ) (message : SessionMessage C) (env : SessionEnv) (s : Server κ C D) :
    Server κ C D :=
  let handled := s.handleMessage R conn message env
  let socket := handled.2.sockets conn
  let sent := handled.1.elim (true, socket.channel) fun reply =>
    socket.channel.trySend (.reply reply)
  handled.2.setSocket conn
    { socket with
      channel := sent.2
      phase := nextPhase R.wire (s.session conn).authedUser.isSome socket.session sent.1 }

/-- The rest of the loop body: the second look at the watch, and the frame. -/
def turn (conn : κ) (env : SessionEnv) (s : Server κ C D) : Server κ C D :=
  match (s.sockets conn).phase with
  | .framed frame =>
    if (s.sockets conn).cancelled then s.setPhase conn .ended
    else
      match frame with
      | .close => s.setPhase conn .ended
      | .other => s.setPhase conn .reading
      | .text none =>
        let malformed := (s.sockets conn).channel.trySend (.reply (error400 "malformed message"))
        (s.setChannel conn malformed.2).setPhase conn .reading
      | .text (some message) => s.serve R conn message env
  | _ => s

/-- `tx.send(..).await` on the channel of a connection. -/
def send (conn : κ) (message : Outbound C) (s : Server κ C D) : Server κ C D :=
  s.setChannel conn ((s.sockets conn).channel.send message)

/-- `send_queued_page`, on an open channel. -/
def sendQueuedPage (conn : κ) (messages : List (TimedInbound C)) (s : Server κ C D) :
    Server κ C D :=
  (deliveryBySender messages).foldl
    (fun s delivered => (s.sendTo delivered.1 (.messageDelivered delivered.2)).2)
    (s.send conn (.queuedMessages messages))

/-- The next await of the deliveries after a login; after the last of them the loop goes on. -/
def greet (conn : κ) (env : GreetEnv) (s : Server κ C D) : Server κ C D :=
  match (s.sockets conn).phase with
  | .greeting ⟨_, []⟩ =>
    (s.setSession conn { s.session conn with deliverPrekeyStatus := false }).setPhase conn .reading
  | .greeting ⟨userId, errand :: rest⟩ =>
    let isOpen := (s.sockets conn).channel.isOpen
    let unsent : Phase C := .greeting ⟨userId, returnEarly rest⟩
    match errand with
    | .sendPage page =>
      if isOpen then (s.sendQueuedPage conn page).setPhase conn (.greeting ⟨userId, rest⟩)
      else s.setPhase conn unsent
    | .send message =>
      if isOpen then (s.send conn message).setPhase conn (.greeting ⟨userId, rest⟩)
      else s.setPhase conn unsent
    | .removeRow rowId =>
      let db := if env.succeeds then deleteInvalidRow userId rowId s.db else s.db
      { s with db := db }.setPhase conn (.greeting ⟨userId, rest⟩)
    | .removeInvalid receiptId =>
      let db := if env.succeeds then deleteInvalid userId receiptId s.db else s.db
      { s with db := db }.setPhase conn (.greeting ⟨userId, rest⟩)
    | errand =>
      s.setPhase conn (.greeting ⟨userId, errand.loads R.wire userId env s.db ++ rest⟩)
  | _ => s

/-- A connection takes its own entry out of the registry. -/
def unregister (conn : κ) (s : Server κ C D) : Server κ C D :=
  match (s.session conn).authedUser, (s.session conn).connId with
  | some userId, some connId => s.removeIfMatch userId connId
  | _, _ => s

/-- The end of `handle_connection`. -/
def cleanUp (conn : κ) (s : Server κ C D) : Server κ C D :=
  match (s.sockets conn).phase with
  | .ended =>
    let socket := s.sockets conn
    (s.unregister conn).setSocket conn
      { socket with phase := .gone, channel := { socket.channel with isOpen := false } }
  | _ => s

/-- The writer takes a message. -/
def write (conn : κ) (s : Server κ C D) : Server κ C D :=
  let channel := (s.sockets conn).channel
  s.setChannel conn { channel with taken := min (channel.taken + 1) channel.sent.length }

/-- The writer fails. -/
def hangUp (conn : κ) (s : Server κ C D) : Server κ C D :=
  s.setChannel conn { (s.sockets conn).channel with isOpen := false }

end Server

/-! ## Runs -/

namespace Server

inductive Event (κ C : Type)
  | poll (conn : κ) (next : Option (Frame C))
  | turn (conn : κ) (env : SessionEnv)
  | greet (conn : κ) (env : GreetEnv)
  | notify (conn : κ)
  | cleanUp (conn : κ)
  | write (conn : κ)
  | hangUp (conn : κ)
  | collect (now : Nat)

def step (event : Event κ C) (s : Server κ C D) : Server κ C D :=
  match event with
  | .poll conn next => s.poll conn next
  | .turn conn env => s.turn R conn env
  | .greet conn env => s.greet R conn env
  | .notify conn => s.notifyDisplaced conn
  | .cleanUp conn => s.cleanUp conn
  | .write conn => s.write conn
  | .hangUp conn => s.hangUp conn
  | .collect now => { s with db := gcOldMessages GC_MAX_AGE_DAYS now s.db }

/-- The state after the first events of a run. -/
def after (events : Nat → Event κ C) (s : Server κ C D) : Nat → Server κ C D
  | 0 => s
  | n + 1 => (after events s n).step R (events n)

/-- In this event a message is handled on `conn`. -/
def Handles (conn : κ) (message : SessionMessage C) (env : SessionEnv) (event : Event κ C)
    (s : Server κ C D) : Prop :=
  event = .turn conn env ∧ (s.sockets conn).phase = .framed (.text (some message)) ∧
    (s.sockets conn).cancelled = false

end Server

end Handlers

end Cmp.Relay
