import Cmp.Relay.Delivery

/-! `db/schema.rs`: the database file and its upgrade. A file of an older version lacks tables
and a column; each migration is a transaction that sets the version, so that a crash leaves
the file at the version of the last one that was committed. -/

namespace Cmp.Relay

open Cmp.Crypto Cmp.Protocol Cmp.Lib

variable {C D : Type}

def CURRENT_VERSION : Nat := 8

/-! ## The file -/

structure UserText where
  userId : String
  identityKey : Bytes
  createdAt : String

structure SignedPrekeyText where
  userId : String
  keyId : Int
  publicKey : Bytes
  signature : Bytes
  createdAt : String

/-- `createdAt` is a column since version 5, and `none` before. -/
structure PrekeyText where
  userId : String
  keyId : Int
  publicKey : Bytes
  createdAt : Option Nat

structure QueuedText where
  messageId : String
  recipientId : String
  senderId : String
  envelope : String
  createdAt : String

structure ReceiptText where
  receiptId : String
  recipientId : String
  senderId : String
  envelope : String
  acknowledged : Int
  createdAt : String

structure FetchEventText where
  requesterId : String
  targetId : String
  createdAt : Int

structure InventoryText where
  userId : String
  highWater : Int

structure ReservationText where
  requesterId : String
  targetId : String
  keyId : Int
  expiresAt : Int

structure AcceptanceText (D : Type) where
  messageId : String
  recipientId : String
  senderId : String
  envelopeDigest : D
  acceptedAt : Nat

def SignedPrekeyText.key (row : SignedPrekeyText) : String × Int := (row.userId, row.keyId)

def PrekeyText.key (row : PrekeyText) : String × Int := (row.userId, row.keyId)

def ReservationText.key (row : ReservationText) : String × String × Int :=
  (row.requesterId, row.targetId, row.keyId)

/-- The database file: tables that exist are `some`. `prekeysDated` is whether `prekeys` has
the column `created_at`, `acceptanceStats` the `item_count` of the one row of its table. -/
structure Disk (D : Type) where
  userVersion : Nat
  users : Option (Table UserText.userId)
  signedPrekeys : Option (Table SignedPrekeyText.key)
  prekeys : Option (Table PrekeyText.key)
  messageQueue : Option (Table QueuedText.messageId)
  readReceiptQueue : Option (Table ReceiptText.receiptId)
  prekeyFetchEvents : Option (List FetchEventText)
  prekeyInventory : Option (Table InventoryText.userId)
  prekeysDated : Bool
  prekeyReservations : Option (Table ReservationText.key)
  messageAcceptances : Option (Table (AcceptanceText.messageId (D := D)))
  acceptanceStats : Option Nat

/-- A file that SQLite has just made. -/
def Disk.empty : Disk D :=
  ⟨0, none, none, none, none, none, none, none, false, none, none, none⟩

inductive SchemaError
  | noSuchTable
  | tableExists
  | duplicateColumn
  | constraint
  | invalidColumn
  | queuedVersion (version : UInt32)
  deriving DecidableEq, Repr

/-- What the migrations make of texts: a digest, and the time that `unixepoch()` reads, which is
`NULL` if the text is not one. -/
structure Texts (D : Type) where
  sha256 : String → D
  unixepoch : String → Option Int

/-! ## Migrations -/

/-- `CREATE TABLE IF NOT EXISTS`. -/
def createIfNotExists {α κ : Type} {key : α → κ} (table : Option (Table key)) :
    Option (Table key) :=
  some (table.getD .empty)

def migrateV1 (disk : Disk D) : Except SchemaError (Disk D) :=
  .ok { disk with
    users := createIfNotExists disk.users
    signedPrekeys := createIfNotExists disk.signedPrekeys
    prekeys := createIfNotExists disk.prekeys
    messageQueue := createIfNotExists disk.messageQueue
    userVersion := 1 }

def migrateV2 (disk : Disk D) : Except SchemaError (Disk D) :=
  .ok { disk with
    readReceiptQueue := createIfNotExists disk.readReceiptQueue
    userVersion := 2 }

def migrateV3 (disk : Disk D) : Except SchemaError (Disk D) :=
  .ok { disk with
    prekeyFetchEvents := some (disk.prekeyFetchEvents.getD [])
    userVersion := 3 }

/-- The row that version 4 adds for a user. -/
def firstInventory (prekeys : Table PrekeyText.key) (user : UserText) : InventoryText :=
  ⟨user.userId, (((prekeys.rows.filter fun prekey => decide (prekey.userId = user.userId)).map
    PrekeyText.keyId).max?).getD (-1)⟩

def migrateV4 (disk : Disk D) : Except SchemaError (Disk D) :=
  match disk.users, disk.prekeys with
  | some users, some prekeys =>
    .ok { disk with
      prekeyInventory := some ((disk.prekeyInventory.getD .empty).insertAllOrIgnore
        (users.rows.map (firstInventory prekeys)))
      userVersion := 4 }
  | _, _ => .error .noSuchTable

/-- The new column is `NULL` in all rows, so that all of them get the time. -/
def migrateV5 (unixepoch : Nat) (disk : Disk D) : Except SchemaError (Disk D) :=
  match disk.prekeys with
  | none => .error .noSuchTable
  | some prekeys =>
    if disk.prekeysDated then .error .duplicateColumn
    else
      .ok { disk with
        prekeys := some (prekeys.updateAll (fun row => { row with createdAt := some unixepoch })
          fun _ => rfl)
        prekeysDated := true
        userVersion := 5 }

def migrateV6 (disk : Disk D) : Except SchemaError (Disk D) :=
  match disk.prekeyInventory with
  | none => .error .noSuchTable
  | some inventory =>
    .ok { disk with
      prekeyInventory := some (inventory.updateAll
        (fun row => { row with highWater := max row.highWater LEGACY_HIGH_WATER }) fun _ => rfl)
      userVersion := 6 }

def migrateV7 (disk : Disk D) : Except SchemaError (Disk D) :=
  if disk.prekeyReservations.isSome then .error .tableExists
  else .ok { disk with prekeyReservations := some .empty, userVersion := 7 }

/-- `row.get::<_, u64>`. -/
def getU64 : Option Int → Option Nat
  | some (.ofNat n) => some n
  | _ => none

/-- The ledger row of a queued message. -/
def QueuedText.acceptance? (T : Texts D) (row : QueuedText) : Option (AcceptanceText D) :=
  (getU64 (T.unixepoch row.createdAt)).map fun acceptedAt =>
    ⟨row.messageId, row.recipientId, row.senderId, T.sha256 row.envelope, acceptedAt⟩

/-- The loop of `migrate_v8`, with the count of the rows. -/
def backfill (T : Texts D) : List QueuedText →
    Table (AcceptanceText.messageId (D := D)) × Nat →
    Except SchemaError (Table (AcceptanceText.messageId (D := D)) × Nat)
  | [], filled => .ok filled
  | row :: rows, (acceptances, count) =>
    match row.acceptance? T with
    | none => .error .invalidColumn
    | some acceptance =>
      match acceptances.insert acceptance with
      | none => .error .constraint
      | some acceptances => backfill T rows (acceptances, count + 1)

def migrateV8 (T : Texts D) (disk : Disk D) : Except SchemaError (Disk D) :=
  if disk.messageAcceptances.isSome ∨ disk.acceptanceStats.isSome then .error .tableExists
  else
    match disk.messageQueue with
    | none => .error .noSuchTable
    | some queue =>
      (backfill T queue.rows (.empty, 0)).map fun filled =>
        { disk with
          messageAcceptances := some filled.1
          acceptanceStats := some filled.2
          userVersion := CURRENT_VERSION }

/-- The migration to a version. -/
def migrate (T : Texts D) (unixepoch : Nat) : Nat → Disk D → Except SchemaError (Disk D)
  | 1 => migrateV1
  | 2 => migrateV2
  | 3 => migrateV3
  | 4 => migrateV4
  | 5 => migrateV5 unixepoch
  | 6 => migrateV6
  | 7 => migrateV7
  | 8 => migrateV8 T
  | _ => .ok

/-! ## The start of the relay -/

/-- The migrations up to a version; those that are not above the `version` of the file at the
start are passed over, and one that fails leaves the file as it is. -/
def migrateTo (T : Texts D) (unixepoch version : Nat) :
    Nat → Disk D → Except SchemaError Unit × Disk D
  | 0, disk => (.ok (), disk)
  | k + 1, disk =>
    match migrateTo T unixepoch version k disk with
    | (.error error, disk) => (.error error, disk)
    | (.ok (), disk) =>
      if version < k + 1 then
        match migrate T unixepoch (k + 1) disk with
        | .error error => (.error error, disk)
        | .ok disk => (.ok (), disk)
      else (.ok (), disk)

def Disk.queued (disk : Disk D) : List QueuedText := disk.messageQueue.elim [] Table.rows

def Disk.receipts (disk : Disk D) : List ReceiptText := disk.readReceiptQueue.elim [] Table.rows

/-- The queued envelopes, as texts. -/
def Disk.envelopes (disk : Disk D) : List String :=
  disk.queued.map QueuedText.envelope ++ disk.receipts.map ReceiptText.envelope

/-- The version of an envelope that parses and is not of this protocol. -/
def unsupportedVersion? (W : Wire C) (text : String) : Option UInt32 :=
  (W.parseEnvelope text).bind fun envelope =>
    if envelope.version ≠ PROTOCOL_VERSION then some envelope.version else none

def ensureQueuedProtocolVersions (W : Wire C) (disk : Disk D) : Except SchemaError Unit :=
  if disk.messageQueue.isNone ∨ disk.readReceiptQueue.isNone then .error .noSuchTable
  else
    match disk.envelopes.findSome? (unsupportedVersion? W) with
    | some version => .error (.queuedVersion version)
    | none => .ok ()

/-- `schema::initialize`. -/
def initializeSchema (W : Wire C) (T : Texts D) (unixepoch : Nat) (disk : Disk D) :
    Except SchemaError Unit × Disk D :=
  match migrateTo T unixepoch disk.userVersion CURRENT_VERSION disk with
  | (.error error, disk) => (.error error, disk)
  | (.ok (), disk) => (ensureQueuedProtocolVersions W disk, disk)

/-- What a crash leaves: the file after the migrations up to some version. Each start has its
own clock. -/
def crashed (T : Texts D) : List (Nat × Nat) → Disk D → Disk D
  | [], disk => disk
  | (unixepoch, last) :: starts, disk =>
    crashed T starts
      (migrateTo T unixepoch disk.userVersion (min last CURRENT_VERSION) disk).2

end Cmp.Relay
