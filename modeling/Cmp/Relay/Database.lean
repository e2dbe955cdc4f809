import Cmp.Lib.Table
import Cmp.Lib.UInt32
import Cmp.Protocol.Types

/-! The database of the relay: the tables of `db/schema.rs` with their primary keys.
Envelopes stand for their JSON, `D` for the SHA-256 digests of it. A transaction maps
the database to a result and the database it commits; a rolled back one commits the
database it began with, a failed one nothing. Readings of the clock, by the handler or
by `unixepoch()`, are arguments. -/

namespace Cmp.Relay

open Cmp.Crypto Cmp.Protocol Cmp.Lib

/-- What `rusqlite` refuses. -/
inductive DbError
  | unavailable
  | constraint
  | noRows
  | outOfRange
  deriving DecidableEq, Repr

structure UserRow where
  userId : UserId
  identityKey : Bytes
  deriving DecidableEq

structure SignedPrekeyRow where
  userId : UserId
  keyId : UInt32
  publicKey : Bytes
  signature : Bytes
  deriving DecidableEq

structure PrekeyRow where
  userId : UserId
  keyId : UInt32
  publicKey : Bytes
  createdAt : Nat
  deriving DecidableEq

structure InventoryRow where
  userId : UserId
  highWater : Int
  deriving DecidableEq

structure FetchEventRow where
  requesterId : UserId
  targetId : UserId
  createdAt : Nat
  deriving DecidableEq

structure ReservationRow where
  requesterId : UserId
  targetId : UserId
  keyId : UInt32
  expiresAt : Nat
  deriving DecidableEq

/-- `rowId` is the `rowid` that SQLite gives the row. -/
structure QueueRow (C : Type) where
  rowId : Nat
  messageId : MessageId
  recipientId : UserId
  senderId : UserId
  envelope : EncryptedEnvelope C
  createdAt : Nat
  deriving DecidableEq

structure AcceptanceRow (D : Type) where
  messageId : MessageId
  recipientId : UserId
  senderId : UserId
  envelopeDigest : D
  acceptedAt : Nat
  deriving DecidableEq

structure ReceiptRow (C : Type) where
  receiptId : MessageId
  recipientId : UserId
  senderId : UserId
  envelope : EncryptedEnvelope C
  acknowledged : Bool
  deriving DecidableEq

def SignedPrekeyRow.key (row : SignedPrekeyRow) : UserId × UInt32 := (row.userId, row.keyId)

def PrekeyRow.key (row : PrekeyRow) : UserId × UInt32 := (row.userId, row.keyId)

def ReservationRow.key (row : ReservationRow) : UserId × UserId × UInt32 :=
  (row.requesterId, row.targetId, row.keyId)

/-- `acceptanceCount` is the one row of `message_acceptance_stats`. -/
structure Db (C D : Type) where
  users : Table UserRow.userId
  signedPrekeys : Table SignedPrekeyRow.key
  prekeys : Table PrekeyRow.key
  prekeyInventory : Table InventoryRow.userId
  prekeyFetchEvents : List FetchEventRow
  prekeyReservations : Table ReservationRow.key
  messageQueue : Table (QueueRow.messageId (C := C))
  messageAcceptances : Table (AcceptanceRow.messageId (D := D))
  acceptanceCount : Nat
  readReceiptQueue : Table (ReceiptRow.receiptId (C := C))

variable {C D : Type}

/-- A fresh database. -/
def Db.fresh : Db C D where
  users := .empty
  signedPrekeys := .empty
  prekeys := .empty
  prekeyInventory := .empty
  prekeyFetchEvents := []
  prekeyReservations := .empty
  messageQueue := .empty
  messageAcceptances := .empty
  acceptanceCount := 0
  readReceiptQueue := .empty

def Db.hasUser (db : Db C D) (userId : UserId) : Bool := (db.users.find? userId).isSome

end Cmp.Relay
