import Cmp.Relay.Handlers
import Mathlib.Data.List.MinMax

/-! What a freshly authenticated user is sent (`handlers/auth.rs`): the queued messages
in pages, the queued read receipts and the confirmations that are still open. The queue
holds texts, so a row is parsed and checked again before it is sent, and deleted if that
fails. Between two awaits of a delivery other connections go on, so what it has still to do
is kept as a list of errands. -/

namespace Cmp.Relay

open Cmp.Crypto Cmp.Protocol Cmp.Lib

variable {C D : Type}

/-- `protocol::InboundMessage`, with the timestamp that the relay adds. -/
structure TimedInbound (C : Type) extends InboundMessage C where
  timestamp : Nat

/-- What is put on the channel of a connection: replies, and what the relay sends
unasked. -/
inductive Outbound (C : Type)
  | reply (message : ServerMessage C)
  | incomingMessage (message : TimedInbound C)
  | queuedMessages (messages : List (TimedInbound C))
  | messageDelivered (messageIds : List MessageId)
  | incomingReadReceipt (senderId : UserId) (receiptId : MessageId)
      (envelope : EncryptedEnvelope C)
  | peerTyping (senderId : UserId)
  | preKeyLow (remaining : UInt32)

def MAX_QUEUED_MESSAGES : Nat := 1000
def MAX_QUEUED_MESSAGES_PER_PAGE : Nat := 64

/-! ## Texts -/

/-- What the relay takes from `serde_json`, `uuid` and SQLite: the JSON of an envelope and
the hyphenated form of an id, both with their parsers, and the text of `datetime('now')`
at a time. -/
structure Wire (C : Type) where
  envelopeJson : EncryptedEnvelope C → String
  parseEnvelope : String → Option (EncryptedEnvelope C)
  uuidText : MessageId → String
  parseUuid : String → Option MessageId
  datetime : Nat → String

/-- A JSON string of printable ASCII. -/
def jsonString (text : String) : String :=
  "\"" ++ String.ofList (text.toList.flatMap fun c =>
    if c = '"' ∨ c = '\\' then ['\\', c] else [c]) ++ "\""

def decimal (n : Nat) : String := String.ofList (Nat.toDigits 10 n)

def jsonArray (items : List String) : String := "[" ++ ",".intercalate items ++ "]"

/-- A JSON object in compact form, from the names of its fields and their JSON. -/
def jsonObject (fields : List (String × String)) : String :=
  "\x7b" ++ ",".intercalate (fields.map fun field => "\"" ++ field.1 ++ "\":" ++ field.2) ++
    "\x7d"

/-- The JSON of an `InboundMessage`. -/
def inboundJson (W : Wire C) (message : TimedInbound C) : String :=
  jsonObject [
    ("message_id", jsonString (W.uuidText message.messageId)),
    ("sender_id", jsonString message.senderId.text),
    ("envelope", W.envelopeJson message.envelope),
    ("timestamp", decimal message.timestamp)]

/-- The JSON of `QueuedMessages`. -/
def pageJson (W : Wire C) (messages : List (TimedInbound C)) : String :=
  jsonObject [
    ("type", jsonString "QueuedMessages"),
    ("messages", jsonArray (messages.map (inboundJson W)))]

/-- The size that `handle_send` checks before it queues a message. -/
def pageLen (W : Wire C) (message : InboundMessage C) (timestamp : Nat) : Nat :=
  (pageJson W [⟨message, timestamp⟩]).utf8ByteSize

/-- `str::parse::<i64>`. -/
def parseI64 (text : List Char) : Option Int :=
  let unsigned := if text.head? = some '+' then text.tail else text
  let value : Nat := unsigned.foldl (fun n c => 10 * n + (c.toNat - '0'.toNat)) 0
  if unsigned ≠ [] ∧ unsigned.all Char.isDigit ∧ value < 2 ^ 63 then some value else none

def monthDays : List Int := [0, 31, 59, 90, 120, 151, 181, 212, 243, 273, 304, 334]

/-- The end of `parse_sqlite_datetime`: seconds since 1970, of a date with `year ≥ 1970`
that SQLite writes with four digits. -/
def secondsSinceEpoch (year month day hour minute sec : Int) : Nat :=
  let days := (year - 1970) * 365 + (year - 1969).tdiv 4 - (year - 1901).tdiv 100 +
    (year - 1601).tdiv 400
  let isLeap := (year.tmod 4 = 0 ∧ year.tmod 100 ≠ 0) ∨ year.tmod 400 = 0
  let leapAdj : Int := if isLeap ∧ month > 2 then 1 else 0
  let mIdx := (max 0 (min (month - 1) 11)).toNat
  let total := (days + monthDays.getD mIdx 0 + day - 1 + leapAdj) * 86400 + hour * 3600 +
    minute * 60 + sec
  (total % 2 ^ 64).toNat

/-- `parse_sqlite_datetime`: 0 where the text has not the form `YYYY-MM-DD HH:MM:SS`. -/
def parseSqliteDatetime (text : String) : Nat :=
  match text.toList.splitOnP (fun c => c = '-' ∨ c = ' ' ∨ c = ':') with
  | [y, mo, d, h, mi, s] =>
    match parseI64 y, parseI64 mo, parseI64 d, parseI64 h, parseI64 mi, parseI64 s with
    | some year, some month, some day, some hour, some minute, some sec =>
      secondsSinceEpoch year month day hour minute sec
    | _, _, _, _, _, _ => 0
  | _ => 0

/-! ## Rows -/

/-- `db::queue::QueuedRow`. -/
structure QueuedRow where
  rowId : Nat
  messageId : String
  senderId : String
  envelopeJson : String
  createdAt : String

inductive QueuedEnvelopeError
  | unsupportedVersion (version : UInt32)
  | invalid
  deriving DecidableEq, Repr

def validateQueuedEnvelope (envelope : EncryptedEnvelope C) : Except QueuedEnvelopeError Unit :=
  if envelope.version ≠ PROTOCOL_VERSION then .error (.unsupportedVersion envelope.version)
  else
    match validateEnvelope envelope with
    | .error _ => .error .invalid
    | .ok () => .ok ()

def queuedRowToInbound (W : Wire C) (row : QueuedRow) :
    Except QueuedEnvelopeError (TimedInbound C) :=
  match W.parseEnvelope row.envelopeJson with
  | none => .error .invalid
  | some envelope =>
    match validateQueuedEnvelope envelope with
    | .error error => .error error
    | .ok () =>
      match UserId.new row.senderId with
      | .error _ => .error .invalid
      | .ok senderId =>
        match W.parseUuid row.messageId with
        | none => .error .invalid
        | some messageId =>
          .ok ⟨⟨messageId, senderId, envelope⟩, parseSqliteDatetime row.createdAt⟩

/-- A row of the queue as `get_next_pending` reads it. -/
def QueueRow.queued (W : Wire C) (row : QueueRow C) : QueuedRow where
  rowId := row.rowId
  messageId := W.uuidText row.messageId
  senderId := row.senderId.text
  envelopeJson := W.envelopeJson row.envelope
  createdAt := W.datetime row.createdAt

/-! ## Queued messages -/

/-- The loop of `deliver_queued_messages`: the page that is being filled, with its size, and
the pages sent. -/
structure Pass (C : Type) where
  page : List (TimedInbound C)
  pageBytes : Nat
  pages : List (List (TimedInbound C))

def emptyPageBytes (W : Wire C) : Nat := (pageJson W []).utf8ByteSize

def itemBytes (W : Wire C) (message : TimedInbound C) : Nat := (inboundJson W message).utf8ByteSize

def Pass.start (W : Wire C) : Pass C := ⟨[], emptyPageBytes W, []⟩

def Pass.push (W : Wire C) (message : TimedInbound C) (pass : Pass C) : Pass C :=
  { pass with
    page := pass.page ++ [message]
    pageBytes := pass.pageBytes + (if pass.page.isEmpty then 0 else 1) + itemBytes W message }

/-- The page goes out and an empty one takes its place. -/
def Pass.sendPage (W : Wire C) (pass : Pass C) : Pass C :=
  { pass with page := [], pageBytes := emptyPageBytes W, pages := pass.pages ++ [pass.page] }

def Pass.isFull (W : Wire C) (message : TimedInbound C) (pass : Pass C) : Bool :=
  decide (MAX_QUEUED_MESSAGES_PER_PAGE ≤ pass.page.length ∨
    pass.pageBytes + (if pass.page.isEmpty then 0 else 1) + itemBytes W message >
      MAX_QUEUED_PAGE_BYTES)

/-- What becomes of one row. -/
inductive RowFate (C : Type)
  | deliver (message : TimedInbound C)
  | remove
  | preserve

def rowFate (W : Wire C) (row : QueuedRow) : RowFate C :=
  match queuedRowToInbound W row with
  | .error (.unsupportedVersion _) => .preserve
  | .error .invalid => .remove
  | .ok message =>
    if emptyPageBytes W + itemBytes W message > MAX_QUEUED_PAGE_BYTES then .remove
    else .deliver message

/-- `get_next_pending`. -/
def getNextPending (userId : UserId) (afterRowId : Nat) (db : Db C D) : Option (QueueRow C) :=
  (db.messageQueue.rows.filter fun row =>
    decide (row.recipientId = userId ∧ afterRowId < row.rowId)).argmin QueueRow.rowId

/-- `delivery_by_sender` in `send_queued_page`: the ids of a page by their sender. -/
def deliveryBySender (messages : List (TimedInbound C)) : List (UserId × List MessageId) :=
  (messages.map (·.senderId)).dedup.map fun sender =>
    (sender, (messages.filter fun message => decide (message.senderId = sender)).map (·.messageId))

/-! ## Read receipts and confirmations -/

inductive QueuedReceiptAction (C : Type)
  | deliver (message : Outbound C)
  | preserve (version : UInt32)
  | deleteInvalid

/-- `queued_receipt_action` on a row of the table, whose texts are those of its fields. -/
def queuedReceiptAction (W : Wire C) (row : ReceiptRow C) : QueuedReceiptAction C :=
  match W.parseUuid (W.uuidText row.receiptId), UserId.new row.senderId.text,
      W.parseEnvelope (W.envelopeJson row.envelope) with
  | some receiptId, .ok senderId, some envelope =>
    match validateQueuedEnvelope envelope with
    | .ok () => .deliver (.incomingReadReceipt senderId receiptId envelope)
    | .error (.unsupportedVersion version) => .preserve version
    | .error .invalid => .deleteInvalid
  | _, _, _ => .deleteInvalid

/-- `receipts::pending`. -/
def pendingReceipts (userId : UserId) (db : Db C D) : List (ReceiptRow C) :=
  (db.readReceiptQueue.rows.filter fun row =>
    decide (row.recipientId = userId) && !row.acknowledged).take 1000

/-- `receipts::confirmed_for_sender`. -/
def confirmedForSender (userId : UserId) (db : Db C D) : List MessageId :=
  ((db.readReceiptQueue.rows.filter fun row =>
    decide (row.senderId = userId) && row.acknowledged).take 1000).map ReceiptRow.receiptId

/-- `deliver_receipt_confirmations`. -/
def deliverReceiptConfirmations (userId : UserId) (db : Db C D) : List (Outbound C) :=
  (confirmedForSender userId db).map fun id => .reply (.readReceiptSent id)

/-- `deliver_message_confirmations`. -/
def deliverMessageConfirmations (userId : UserId) (db : Db C D) : List (Outbound C) :=
  (pendingAcceptances userId MAX_QUEUE_PER_USER db).map fun id => .reply (.messageSent id)

/-- `deliver_prekey_status`. -/
def deliverPrekeyStatus (userId : UserId) (unixepoch : Nat) (db : Db C D) : List (Outbound C) :=
  (lowPrekeys userId unixepoch db).toList.map .preKeyLow

/-! ## Errands -/

/-- What the deliveries after a login have still to do, one await each. A `fetch` is a turn of
the loop of `deliver_queued_messages` with `visits` left; the loads read what the other
functions go through. -/
inductive Errand (C : Type)
  | fetch (visits cursor : Nat) (pass : Pass C)
  | removeRow (rowId : Nat)
  | sendPage (page : List (TimedInbound C))
  | loadReceipts
  | removeInvalid (receiptId : MessageId)
  | send (message : Outbound C)
  | loadConfirmations
  | loadAcceptances
  | loadStatus

/-- The deliveries of one login, to the user who has logged in. -/
structure Delivery (C : Type) where
  userId : UserId
  errands : List (Errand C)

/-- The four functions that `ws.rs` calls, the last of them after a response only. -/
def Delivery.start (W : Wire C) (userId : UserId) (deliverStatus : Bool) : Delivery C :=
  ⟨userId, [.fetch MAX_QUEUED_MESSAGES 0 (.start W), .loadReceipts, .loadAcceptances] ++
    if deliverStatus then [.loadStatus] else []⟩

/-- A function starts with this errand. -/
def Errand.isEntry : Errand C → Bool
  | .loadReceipts => true
  | .loadAcceptances => true
  | .loadStatus => true
  | _ => false

/-- A function that cannot send returns; the next one follows. -/
def returnEarly (errands : List (Errand C)) : List (Errand C) :=
  errands.dropWhile fun errand => !errand.isEntry

/-- What one await reads: whether the database answers, and its clock. -/
structure GreetEnv where
  succeeds : Bool
  unixepoch : Nat

/-- The end of `deliver_queued_messages`. -/
def lastPage (pass : Pass C) : List (Errand C) :=
  if pass.page.isEmpty then [] else [.sendPage pass.page]

/-- A turn of the loop of `deliver_queued_messages`. -/
def fetchNext (W : Wire C) (userId : UserId) (succeeds : Bool) (db : Db C D) :
    Nat → Nat → Pass C → List (Errand C)
  | 0, _, pass => lastPage pass
  | visits + 1, cursor, pass =>
    if succeeds then
      match getNextPending userId cursor db with
      | none => lastPage pass
      | some row =>
        match rowFate W (row.queued W) with
        | .preserve => []
        | .remove => [.removeRow row.rowId, .fetch visits row.rowId pass]
        | .deliver message =>
          if pass.isFull W message then
            [.sendPage pass.page, .fetch visits row.rowId ((pass.sendPage W).push W message)]
          else [.fetch visits row.rowId (pass.push W message)]
    else []

/-- A turn of the loop of `deliver_queued_receipts`. -/
def errandsFor (W : Wire C) (row : ReceiptRow C) : List (Errand C) :=
  match queuedReceiptAction W row with
  | .deliver message => [.send message]
  | .preserve _ => []
  | .deleteInvalid => [.removeInvalid row.receiptId]

/-- What comes in place of an errand that reads. -/
def Errand.loads (W : Wire C) (userId : UserId) (env : GreetEnv) (db : Db C D) :
    Errand C → List (Errand C)
  | .fetch visits cursor pass => fetchNext W userId env.succeeds db visits cursor pass
  | .loadReceipts =>
    (if env.succeeds then pendingReceipts userId db else []).flatMap (errandsFor W) ++
      [.loadConfirmations]
  | .loadConfirmations =>
    (if env.succeeds then deliverReceiptConfirmations userId db else []).map .send
  | .loadAcceptances =>
    (if env.succeeds then deliverMessageConfirmations userId db else []).map .send
  | .loadStatus =>
    (if env.succeeds then deliverPrekeyStatus userId env.unixepoch db else []).map .send
  | _ => []

end Cmp.Relay
