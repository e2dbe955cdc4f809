import Cmp.Relay.Queue
import Cmp.Relay.Receipts
import Cmp.Relay.Prekeys

/-! The transactions of the relay as data, what each of them can do to the database,
and the runs of the relay: transactions one after another, in any order. -/

namespace Cmp.Relay

open Cmp.Crypto Cmp.Protocol Cmp.Lib

variable {C D : Type}

inductive Transaction (C : Type)
  | registerAtomic (registration : Registration) (createdAt : UInt32 → Nat)
  | uploadPrekeys (userId : UserId) (prekeys : Batch) (maxPrekeysPerUser unixepoch : Nat)
      (createdAt : UInt32 → Nat)
  | rotateSignedPrekey (userId : UserId) (keyId : UInt32) (publicKey signature : Bytes)
  | fetchForRequester (requesterId targetId : UserId) (now : Nat) (limits : FetchLimits)
      (choice : Nat)
  | enqueue (request : EnqueueRequest C) (createdAt : Nat)
  | confirmAcceptances (senderId : UserId) (messageIds : List MessageId)
  | deleteMessages (recipientId : UserId) (messageIds : List MessageId)
  | deleteInvalidRow (recipientId : UserId) (rowId : Nat)
  | gcOldMessages (maxAgeDays now : Nat)
  | enqueueReceipt (receiptId : MessageId) (recipientId senderId : UserId)
      (envelope : EncryptedEnvelope C) (maxQueuePerUser : Nat)
  | acknowledge (recipientId : UserId) (receiptIds : List MessageId)
  | confirmSenderReceived (senderId : UserId) (receiptIds : List MessageId)
  | deleteInvalid (recipientId : UserId) (receiptId : MessageId)

/-- What a transaction returns. -/
inductive Answer
  | registered (result : Bool)
  | uploaded (result : UploadResult)
  | rotated (result : SignedPreKeyRotationResult)
  | fetched (result : FetchResult)
  | enqueued (result : EnqueueResult)
  | receiptQueued (result : ReceiptResult)
  | acknowledged (receipts : List (MessageId × UserId))
  | done

variable [DecidableEq D]

def Transaction.run (digest : EncryptedEnvelope C → D) :
    Transaction C → Db C D → Except DbError (Answer × Db C D)
  | .registerAtomic registration createdAt, db =>
    (Relay.registerAtomic registration createdAt db).map fun (r, db') => (.registered r, db')
  | .uploadPrekeys userId prekeys maxPrekeysPerUser unixepoch createdAt, db =>
    (Relay.uploadPrekeys userId prekeys maxPrekeysPerUser unixepoch createdAt db).map
      fun (r, db') => (.uploaded r, db')
  | .rotateSignedPrekey userId keyId publicKey signature, db =>
    (Relay.rotateSignedPrekey userId keyId publicKey signature db).map
      fun (r, db') => (.rotated r, db')
  | .fetchForRequester requesterId targetId now limits choice, db =>
    (Relay.fetchForRequester requesterId targetId now limits choice db).map
      fun (r, db') => (.fetched r, db')
  | .enqueue request createdAt, db =>
    (Relay.enqueue digest request createdAt db).map fun (r, db') => (.enqueued r, db')
  | .confirmAcceptances senderId messageIds, db =>
    .ok (.done, Relay.confirmAcceptances senderId messageIds db)
  | .deleteMessages recipientId messageIds, db =>
    .ok (.done, Relay.deleteMessages recipientId messageIds db)
  | .deleteInvalidRow recipientId rowId, db =>
    .ok (.done, Relay.deleteInvalidRow recipientId rowId db)
  | .gcOldMessages maxAgeDays now, db => .ok (.done, Relay.gcOldMessages maxAgeDays now db)
  | .enqueueReceipt receiptId recipientId senderId envelope maxQueuePerUser, db =>
    (Relay.enqueueReceipt receiptId recipientId senderId envelope maxQueuePerUser db).map
      fun (r, db') => (.receiptQueued r, db')
  | .acknowledge recipientId receiptIds, db =>
    let (receipts, db') := Relay.acknowledge recipientId receiptIds db
    .ok (.acknowledged receipts, db')
  | .confirmSenderReceived senderId receiptIds, db =>
    .ok (.done, Relay.confirmSenderReceived senderId receiptIds db)
  | .deleteInvalid recipientId receiptId, db =>
    .ok (.done, Relay.deleteInvalid recipientId receiptId db)

/-- The database after a transaction; one that fails changes nothing. -/
def Transaction.after (digest : EncryptedEnvelope C → D) (t : Transaction C) (db : Db C D) :
    Db C D :=
  match t.run digest db with
  | .ok (_, db') => db'
  | .error _ => db

def Transaction.answer? (digest : EncryptedEnvelope C → D) (t : Transaction C) (db : Db C D) :
    Option Answer :=
  match t.run digest db with
  | .ok (answer, _) => some answer
  | .error _ => none

variable {digest : EncryptedEnvelope C → D}

/-- What a transaction that returns `answer` makes of the database. -/
inductive Effect (digest : EncryptedEnvelope C → D) (db : Db C D) :
    Transaction C → Option Answer → Db C D → Prop
  | failed (t : Transaction C) : Effect digest db t none db
  | registered (registration : Registration) (createdAt : UInt32 → Nat) (result : Bool)
      (db' : Db C D) (h : Registered registration createdAt db result db') :
      Effect digest db (.registerAtomic registration createdAt) (some (.registered result)) db'
  | uploaded (userId : UserId) (prekeys : Batch) (maxPrekeysPerUser unixepoch : Nat)
      (createdAt : UInt32 → Nat) (result : UploadResult) (db' : Db C D)
      (h : Uploaded userId prekeys maxPrekeysPerUser unixepoch createdAt db result db') :
      Effect digest db (.uploadPrekeys userId prekeys maxPrekeysPerUser unixepoch createdAt)
        (some (.uploaded result)) db'
  | rotated (userId : UserId) (keyId : UInt32) (publicKey signature : Bytes)
      (result : SignedPreKeyRotationResult) (db' : Db C D)
      (h : Rotated userId keyId publicKey signature db result db') :
      Effect digest db (.rotateSignedPrekey userId keyId publicKey signature)
        (some (.rotated result)) db'
  | fetched (requesterId targetId : UserId) (now : Nat) (limits : FetchLimits) (choice : Nat)
      (result : FetchResult) (db' : Db C D)
      (h : Fetched requesterId targetId now limits choice db (.ok (result, db'))) :
      Effect digest db (.fetchForRequester requesterId targetId now limits choice)
        (some (.fetched result)) db'
  | enqueued (request : EnqueueRequest C) (createdAt : Nat) (result : EnqueueResult)
      (db' : Db C D) (h : Enqueued digest request createdAt db result db') :
      Effect digest db (.enqueue request createdAt) (some (.enqueued result)) db'
  | confirmed (senderId : UserId) (messageIds : List MessageId) :
      Effect digest db (.confirmAcceptances senderId messageIds) (some .done)
        (confirmAcceptances senderId messageIds db)
  | acked (recipientId : UserId) (messageIds : List MessageId) :
      Effect digest db (.deleteMessages recipientId messageIds) (some .done)
        (deleteMessages recipientId messageIds db)
  | dropped (recipientId : UserId) (rowId : Nat) :
      Effect digest db (.deleteInvalidRow recipientId rowId) (some .done)
        (deleteInvalidRow recipientId rowId db)
  | collected (maxAgeDays now : Nat) :
      Effect digest db (.gcOldMessages maxAgeDays now) (some .done)
        (gcOldMessages maxAgeDays now db)
  | receiptQueued (receiptId : MessageId) (recipientId senderId : UserId)
      (envelope : EncryptedEnvelope C) (maxQueuePerUser : Nat) (result : ReceiptResult)
      (db' : Db C D)
      (h : enqueueReceipt receiptId recipientId senderId envelope maxQueuePerUser db =
        .ok (result, db')) :
      Effect digest db (.enqueueReceipt receiptId recipientId senderId envelope maxQueuePerUser)
        (some (.receiptQueued result)) db'
  | acknowledged (recipientId : UserId) (receiptIds : List MessageId)
      (receipts : List (MessageId × UserId)) (queue : Table (ReceiptRow.receiptId (C := C))) :
      Effect digest db (.acknowledge recipientId receiptIds) (some (.acknowledged receipts))
        (db.withReceipts queue)
  | receiptConfirmed (senderId : UserId) (receiptIds : List MessageId)
      (queue : Table (ReceiptRow.receiptId (C := C))) :
      Effect digest db (.confirmSenderReceived senderId receiptIds) (some .done)
        (db.withReceipts queue)
  | receiptDropped (recipientId : UserId) (receiptId : MessageId)
      (queue : Table (ReceiptRow.receiptId (C := C))) :
      Effect digest db (.deleteInvalid recipientId receiptId) (some .done) (db.withReceipts queue)

theorem Transaction.effect (digest : EncryptedEnvelope C → D) (t : Transaction C) (db : Db C D) :
    Effect digest db t (t.answer? digest db) (t.after digest db) := by
  unfold Transaction.answer? Transaction.after
  cases t with
  | registerAtomic registration createdAt =>
    cases h : Relay.registerAtomic registration createdAt db with
    | error => simp only [Transaction.run, h, Except.map]; exact .failed _
    | ok r =>
      simp only [Transaction.run, h, Except.map]
      exact .registered registration createdAt _ _ (registerAtomic_cases h)
  | uploadPrekeys userId prekeys maxPrekeysPerUser unixepoch createdAt =>
    cases h : Relay.uploadPrekeys userId prekeys maxPrekeysPerUser unixepoch createdAt db with
    | error => simp only [Transaction.run, h, Except.map]; exact .failed _
    | ok r =>
      simp only [Transaction.run, h, Except.map]
      exact .uploaded _ _ _ _ _ _ _ (uploadPrekeys_cases h)
  | rotateSignedPrekey userId keyId publicKey signature =>
    cases h : Relay.rotateSignedPrekey userId keyId publicKey signature db with
    | error => simp only [Transaction.run, h, Except.map]; exact .failed _
    | ok r =>
      simp only [Transaction.run, h, Except.map]
      exact .rotated _ _ _ _ _ _ (rotateSignedPrekey_cases h)
  | fetchForRequester requesterId targetId now limits choice =>
    have hcases := fetchForRequester_cases requesterId targetId now limits choice db
    cases h : Relay.fetchForRequester requesterId targetId now limits choice db with
    | error => simp only [Transaction.run, h, Except.map]; exact .failed _
    | ok r =>
      rw [h] at hcases
      simp only [Transaction.run, h, Except.map]
      exact .fetched _ _ _ _ _ _ _ hcases
  | enqueue request createdAt =>
    obtain ⟨result, db', h, hcases⟩ := enqueue_cases digest request createdAt db
    simp only [Transaction.run, h, Except.map]
    exact .enqueued request createdAt result db' hcases
  | confirmAcceptances senderId messageIds => exact .confirmed senderId messageIds
  | deleteMessages recipientId messageIds => exact .acked recipientId messageIds
  | deleteInvalidRow recipientId rowId => exact .dropped recipientId rowId
  | gcOldMessages maxAgeDays now => exact .collected maxAgeDays now
  | enqueueReceipt receiptId recipientId senderId envelope maxQueuePerUser =>
    cases h : Relay.enqueueReceipt receiptId recipientId senderId envelope maxQueuePerUser db with
    | error => simp only [Transaction.run, h, Except.map]; exact .failed _
    | ok r =>
      simp only [Transaction.run, h, Except.map]
      exact .receiptQueued _ _ _ _ _ _ _ h
  | acknowledge recipientId receiptIds =>
    obtain ⟨queue, hqueue⟩ := acknowledge_receipts recipientId receiptIds db
    simp only [Transaction.run, hqueue]
    exact .acknowledged _ _ _ queue
  | confirmSenderReceived senderId receiptIds => exact .receiptConfirmed _ _ _
  | deleteInvalid recipientId receiptId => exact .receiptDropped _ _ _

/-- The transactions that write to the message queue or its ledger. -/
def Transaction.writesQueue : Transaction C → Bool
  | .enqueue .. => true
  | .confirmAcceptances .. => true
  | .deleteMessages .. => true
  | .deleteInvalidRow .. => true
  | .gcOldMessages .. => true
  | _ => false

theorem Effect.queue_eq {db db' : Db C D} {t : Transaction C} {answer : Option Answer}
    (h : Effect digest db t answer db') (ht : t.writesQueue = false) :
    db'.messageQueue = db.messageQueue ∧ db'.messageAcceptances = db.messageAcceptances := by
  cases h with
  | failed => exact ⟨rfl, rfl⟩
  | registered _ _ _ _ h | uploaded _ _ _ _ _ _ _ h | rotated _ _ _ _ _ _ h =>
    cases h <;> exact ⟨rfl, rfl⟩
  | fetched _ _ _ _ _ _ _ h => cases h <;> exact ⟨rfl, rfl⟩
  | receiptQueued _ _ _ _ _ _ _ h =>
    rcases enqueueReceipt_cases h with ⟨-, rfl⟩ | ⟨-, queue, -, rfl⟩ <;> exact ⟨rfl, rfl⟩
  | acknowledged | receiptConfirmed | receiptDropped => exact ⟨rfl, rfl⟩
  | _ => cases ht

/-- A row leaves the ledger only when its sender confirms it. -/
theorem Effect.acceptance_kept {db db' : Db C D} {t : Transaction C} {answer : Option Answer}
    (h : Effect digest db t answer db') {row : AcceptanceRow D}
    (hrow : row ∈ db.messageAcceptances) :
    row ∈ db'.messageAcceptances ∨
      ∃ messageIds, t = .confirmAcceptances row.senderId messageIds ∧
        row.messageId ∈ messageIds := by
  have hframe := h.queue_eq
  cases h with
  | failed => exact .inl hrow
  | enqueued request createdAt result db' h =>
    cases h with
    | refused | known => exact .inl hrow
    | inserted queue acceptances _ _ _ haccepted | ignored acceptances _ _ _ haccepted =>
      exact .inl ((Table.mem_insert haccepted).mpr (.inl hrow))
  | confirmed senderId messageIds =>
    cases hconfirms : confirmsAcceptance senderId messageIds row with
    | false => exact .inl (Table.mem_deleteWhere.mpr ⟨hrow, hconfirms⟩)
    | true =>
      obtain ⟨rfl, hid⟩ := of_decide_eq_true hconfirms
      exact .inr ⟨messageIds, rfl, hid⟩
  | acked | dropped | collected => exact .inl hrow
  | _ => exact .inl ((hframe rfl).2 ▸ hrow)

/-! ## Runs -/

/-- A transaction of a run with the database it found. -/
structure Entry (C D : Type) where
  before : Db C D
  transaction : Transaction C

def Entry.answer? (digest : EncryptedEnvelope C → D) (e : Entry C D) : Option Answer :=
  e.transaction.answer? digest e.before

/-- Runs from a fresh database whose transactions all satisfy `guard`, with their log. -/
inductive Run (digest : EncryptedEnvelope C → D) (guard : Db C D → Transaction C → Prop) :
    List (Entry C D) → Db C D → Prop
  | fresh : Run digest guard [] Db.fresh
  | transact {log : List (Entry C D)} {db : Db C D} (run : Run digest guard log db)
      (t : Transaction C) (hguard : guard db t) :
      Run digest guard (log ++ [⟨db, t⟩]) (t.after digest db)

/-- An invariant of database and log that holds at first and is kept by each transaction
that `guard` lets through holds in every run. -/
theorem Run.invariant {digest : EncryptedEnvelope C → D} {guard : Db C D → Transaction C → Prop}
    {I : List (Entry C D) → Db C D → Prop} (hfresh : I [] Db.fresh)
    (hstep : ∀ {log db t answer db'}, I log db → guard db t → t.answer? digest db = answer →
      Effect digest db t answer db' → I (log ++ [⟨db, t⟩]) db')
    {log : List (Entry C D)} {db : Db C D} (run : Run digest guard log db) : I log db := by
  induction run with
  | fresh => exact hfresh
  | transact run t hguard ih => exact hstep ih hguard rfl (t.effect digest _)

/-! ## Sequences of transactions -/

/-- The database after the first transactions of a sequence. -/
def Db.after (digest : EncryptedEnvelope C → D) (ts : Nat → Transaction C) (db : Db C D) :
    Nat → Db C D
  | 0 => db
  | n + 1 => (ts n).after digest (Db.after digest ts db n)

/-- What the transaction at `n` returns. -/
def Db.answer? (digest : EncryptedEnvelope C → D) (ts : Nat → Transaction C) (db : Db C D)
    (n : Nat) : Option Answer :=
  (ts n).answer? digest (db.after digest ts n)

theorem Db.after_effect (digest : EncryptedEnvelope C → D) (ts : Nat → Transaction C) (db : Db C D)
    (n : Nat) :
    Effect digest (db.after digest ts n) (ts n) (db.answer? digest ts n)
      (db.after digest ts (n + 1)) :=
  (ts n).effect digest _

end Cmp.Relay
