import Cmp.Relay.Database

/-! `db/receipts.rs`: the queue of read receipts. A row stays until the recipient has
acknowledged it and the sender has confirmed that. -/

namespace Cmp.Relay

open Cmp.Crypto Cmp.Protocol Cmp.Lib

variable {C D : Type}

/-- `receipts::EnqueueResult`. -/
inductive ReceiptResult
  | inserted
  | duplicate
  | alreadyAcknowledged
  | collision
  | queueFull
  deriving DecidableEq, Repr

/-- `receipts::enqueue`. A recipient that is no user breaks the foreign key. -/
def enqueueReceipt (receiptId : MessageId) (recipientId senderId : UserId)
    (envelope : EncryptedEnvelope C) (maxQueuePerUser : Nat) (db : Db C D) :
    Except DbError (ReceiptResult × Db C D) :=
  match db.readReceiptQueue.find? receiptId with
  | some row =>
    .ok (if row.recipientId ≠ recipientId ∨ row.senderId ≠ senderId then .collision
      else if row.acknowledged then .alreadyAcknowledged
      else .duplicate, db)
  | none =>
    if db.readReceiptQueue.count
        (fun row => decide (row.recipientId = recipientId ∧ row.acknowledged = false)) ≥
        maxQueuePerUser then .ok (.queueFull, db)
    else if db.readReceiptQueue.count (fun row => decide (row.senderId = senderId)) ≥
        maxQueuePerUser then .ok (.queueFull, db)
    else if ¬db.hasUser recipientId then .error .constraint
    else
      match db.readReceiptQueue.insert ⟨receiptId, recipientId, senderId, envelope, false⟩ with
      | some queue => .ok (.inserted, { db with readReceiptQueue := queue })
      | none => .ok (.duplicate, db)

/-- The row of a receipt, acknowledged by its recipient. -/
def acknowledgeOne (recipientId : UserId) (receiptId : MessageId) (db : Db C D) : Db C D :=
  { db with
    readReceiptQueue := db.readReceiptQueue.update receiptId
      (fun row => if row.recipientId = recipientId then { row with acknowledged := true } else row)
      (fun row => by split <;> rfl) }

/-- `acknowledge`, with the receipts and senders to notify. -/
def acknowledge (recipientId : UserId) : List MessageId → Db C D →
    List (MessageId × UserId) × Db C D
  | [], db => ([], db)
  | receiptId :: rest, db =>
    match (db.readReceiptQueue.find? receiptId).filter
        fun row => decide (row.recipientId = recipientId) with
    | some row =>
      let (acknowledged, db') :=
        acknowledge recipientId rest (acknowledgeOne recipientId receiptId db)
      ((receiptId, row.senderId) :: acknowledged, db')
    | none => acknowledge recipientId rest db

def confirmSenderReceived (senderId : UserId) (receiptIds : List MessageId) (db : Db C D) :
    Db C D :=
  { db with
    readReceiptQueue := db.readReceiptQueue.deleteWhere fun row =>
      decide (row.receiptId ∈ receiptIds ∧ row.senderId = senderId) && row.acknowledged }

/-- `receipts::delete_invalid`. -/
def deleteInvalid (recipientId : UserId) (receiptId : MessageId) (db : Db C D) : Db C D :=
  { db with
    readReceiptQueue := db.readReceiptQueue.deleteWhere fun row =>
      decide (row.receiptId = receiptId ∧ row.recipientId = recipientId) }

/-! ## What the transactions leave alone -/

/-- A database that differs from `db` in its receipts only. -/
def Db.withReceipts (db : Db C D) (queue : Table (ReceiptRow.receiptId (C := C))) : Db C D :=
  { db with readReceiptQueue := queue }

theorem enqueueReceipt_cases {receiptId : MessageId} {recipientId senderId : UserId}
    {envelope : EncryptedEnvelope C} {maxQueuePerUser : Nat} {db db' : Db C D}
    {result : ReceiptResult}
    (h : enqueueReceipt receiptId recipientId senderId envelope maxQueuePerUser db =
      .ok (result, db')) :
    (result ≠ .inserted ∧ db' = db) ∨
    (result = .inserted ∧ ∃ queue,
      db.readReceiptQueue.insert ⟨receiptId, recipientId, senderId, envelope, false⟩ = some queue ∧
      db' = db.withReceipts queue) := by
  unfold enqueueReceipt at h
  split at h
  · cases h
    refine .inl ⟨?_, rfl⟩
    split
    · exact nofun
    split <;> exact nofun
  split at h
  · cases h
    exact .inl ⟨nofun, rfl⟩
  split at h
  · cases h
    exact .inl ⟨nofun, rfl⟩
  split at h
  · cases h
  split at h
  · next queue hqueue =>
    cases h
    exact .inr ⟨rfl, queue, hqueue, rfl⟩
  · cases h
    exact .inl ⟨nofun, rfl⟩

/-- Acknowledgements touch no other table. -/
theorem acknowledge_receipts (recipientId : UserId) :
    ∀ (receiptIds : List MessageId) (db : Db C D),
      ∃ queue, (acknowledge recipientId receiptIds db).2 = db.withReceipts queue := by
  intro receiptIds
  induction receiptIds with
  | nil => intro db; exact ⟨db.readReceiptQueue, rfl⟩
  | cons receiptId rest ih =>
    intro db
    unfold acknowledge
    split
    · exact ih (acknowledgeOne recipientId receiptId db)
    · exact ih db

end Cmp.Relay
