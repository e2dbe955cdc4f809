import Cmp.Relay.Transactions

/-! The life of one read receipt. Under an id there is nothing, a receipt that waits for its
recipient, or one that its recipient has acknowledged; a receipt is acknowledged by its
recipient only, and removed by its sender once it is acknowledged, or as invalid. Every
transaction makes such a move, or none. -/

namespace Cmp.Relay

open Cmp.Crypto Cmp.Protocol Cmp.Lib

variable {C D : Type}

/-- What is stored under a receipt id. -/
def Db.receipt? (db : Db C D) (id : MessageId) : Option (ReceiptRow C) :=
  db.readReceiptQueue.find? id

/-- The moves of the receipt `id` in a transaction. -/
inductive ReceiptMove (id : MessageId) (t : Transaction C) :
    Option (ReceiptRow C) → Option (ReceiptRow C) → Prop
  | kept (receipt : Option (ReceiptRow C)) : ReceiptMove id t receipt receipt
  | stored (recipientId senderId : UserId) (envelope : EncryptedEnvelope C) (maxQueuePerUser : Nat)
      (ht : t = .enqueueReceipt id recipientId senderId envelope maxQueuePerUser) :
      ReceiptMove id t none (some ⟨id, recipientId, senderId, envelope, false⟩)
  | acknowledged (row : ReceiptRow C) (receiptIds : List MessageId)
      (ht : t = .acknowledge row.recipientId receiptIds) (hid : id ∈ receiptIds) :
      ReceiptMove id t (some row) (some { row with acknowledged := true })
  | confirmed (row : ReceiptRow C) (receiptIds : List MessageId)
      (ht : t = .confirmSenderReceived row.senderId receiptIds) (hid : id ∈ receiptIds)
      (hacknowledged : row.acknowledged = true) : ReceiptMove id t (some row) none
  | dropped (row : ReceiptRow C) (ht : t = .deleteInvalid row.recipientId id) :
      ReceiptMove id t (some row) none

theorem Db.receipt?_eq_some {db : Db C D} {id : MessageId} {row : ReceiptRow C} :
    db.receipt? id = some row ↔ row ∈ db.readReceiptQueue ∧ row.receiptId = id :=
  Table.find?_eq_some

theorem receipt?_enqueueReceipt {receiptId : MessageId} {recipientId senderId : UserId}
    {envelope : EncryptedEnvelope C} {maxQueuePerUser : Nat} {db db' : Db C D}
    {result : ReceiptResult}
    (h : enqueueReceipt receiptId recipientId senderId envelope maxQueuePerUser db =
      .ok (result, db')) (id : MessageId) :
    ReceiptMove id (.enqueueReceipt receiptId recipientId senderId envelope maxQueuePerUser)
      (db.receipt? id) (db'.receipt? id) := by
  rcases enqueueReceipt_cases h with ⟨-, rfl⟩ | ⟨-, queue, hqueue, rfl⟩
  · exact .kept _
  · have hfound : (db.withReceipts queue).receipt? id =
        if receiptId = id then some ⟨receiptId, recipientId, senderId, envelope, false⟩
        else db.receipt? id := Table.find?_insert hqueue id
    rw [hfound]
    split
    · next hid =>
      subst hid
      have hnone : db.receipt? receiptId = none :=
        Table.find?_eq_none.mpr (Table.ne_of_insert hqueue)
      rw [hnone]
      exact .stored recipientId senderId envelope maxQueuePerUser rfl
    · exact .kept _

theorem enqueueReceipt_of_stored {id : MessageId} {recipientId senderId : UserId}
    {envelope : EncryptedEnvelope C} {maxQueuePerUser : Nat} {db : Db C D} {row : ReceiptRow C}
    (hrow : db.receipt? id = some row) :
    enqueueReceipt id recipientId senderId envelope maxQueuePerUser db =
      .ok (if row.recipientId ≠ recipientId ∨ row.senderId ≠ senderId then .collision
        else if row.acknowledged then .alreadyAcknowledged
        else .duplicate, db) := by
  unfold Db.receipt? at hrow
  unfold enqueueReceipt
  rw [hrow]

/-- A receipt that is reported as acknowledged is, between these two users. -/
theorem enqueueReceipt_alreadyAcknowledged {id : MessageId} {recipientId senderId : UserId}
    {envelope : EncryptedEnvelope C} {maxQueuePerUser : Nat} {db db' : Db C D}
    (h : enqueueReceipt id recipientId senderId envelope maxQueuePerUser db =
      .ok (.alreadyAcknowledged, db')) :
    ∃ row, db.receipt? id = some row ∧ row.recipientId = recipientId ∧ row.senderId = senderId ∧
      row.acknowledged = true := by
  cases hrow : db.receipt? id with
  | none =>
    unfold Db.receipt? at hrow
    unfold enqueueReceipt at h
    rw [hrow] at h
    dsimp only at h
    repeat' split at h
    all_goals cases h
  | some row =>
    rw [enqueueReceipt_of_stored hrow] at h
    split at h
    · cases h
    next hparties =>
    split at h
    · next hacknowledged =>
      rw [not_or, not_not, not_not] at hparties
      exact ⟨row, rfl, hparties.1, hparties.2, hacknowledged⟩
    · cases h

/-- The row of a receipt, with the flag set if the batch of its recipient names it. -/
def ReceiptRow.acknowledgedBy (recipientId : UserId) (receiptIds : List MessageId)
    (row : ReceiptRow C) : ReceiptRow C :=
  if row.receiptId ∈ receiptIds ∧ row.recipientId = recipientId then
    { row with acknowledged := true }
  else row

namespace ReceiptRow

variable (recipientId : UserId) (receiptIds : List MessageId) (row : ReceiptRow C)

theorem acknowledgedBy_parties :
    (row.acknowledgedBy recipientId receiptIds).recipientId = row.recipientId ∧
      (row.acknowledgedBy recipientId receiptIds).senderId = row.senderId := by
  unfold acknowledgedBy
  split <;> exact ⟨rfl, rfl⟩

/-- A batch is acknowledged one receipt after the other. -/
theorem acknowledgedBy_cons (receiptId : MessageId) :
    (row.acknowledgedBy recipientId [receiptId]).acknowledgedBy recipientId receiptIds =
      row.acknowledgedBy recipientId (receiptId :: receiptIds) := by
  unfold acknowledgedBy
  by_cases hrecipient : row.recipientId = recipientId
  · by_cases hid : row.receiptId = receiptId <;> simp [hrecipient, hid]
  · simp [hrecipient]

end ReceiptRow

theorem receipt?_acknowledgeOne (recipientId : UserId) (receiptId id : MessageId) (db : Db C D) :
    (acknowledgeOne recipientId receiptId db).receipt? id =
      (db.receipt? id).map (ReceiptRow.acknowledgedBy recipientId [receiptId]) := by
  have hfound := Table.find?_update db.readReceiptQueue receiptId id
    (fun row => if row.recipientId = recipientId then { row with acknowledged := true } else row)
    (fun row => by split <;> rfl)
  refine hfound.trans (Option.map_congr fun row hrow => ?_)
  obtain ⟨-, rfl⟩ := Table.find?_eq_some.mp hrow
  unfold ReceiptRow.acknowledgedBy
  by_cases hid : row.receiptId = receiptId
  · simp [hid]
  · simp [hid]

theorem receipt?_acknowledge (recipientId : UserId) (id : MessageId) :
    ∀ (receiptIds : List MessageId) (db : Db C D),
      (acknowledge recipientId receiptIds db).2.receipt? id =
        (db.receipt? id).map (ReceiptRow.acknowledgedBy recipientId receiptIds) := by
  intro receiptIds
  induction receiptIds with
  | nil =>
    intro db
    refine (Option.map_id_apply.symm).trans (Option.map_congr fun row _ => ?_)
    exact (if_neg fun h => absurd h.1 List.not_mem_nil).symm
  | cons receiptId rest ih =>
    intro db
    unfold acknowledge
    split
    · dsimp only
      rw [ih, receipt?_acknowledgeOne, Option.map_map]
      refine Option.map_congr fun row _ => ?_
      exact ReceiptRow.acknowledgedBy_cons recipientId rest row receiptId
    · next hnone =>
      rw [ih]
      refine Option.map_congr fun row hrow => ?_
      rw [← ReceiptRow.acknowledgedBy_cons]
      congr 1
      refine (if_neg ?_).symm
      rintro ⟨hid, hrecipient⟩
      obtain ⟨-, rfl⟩ := Db.receipt?_eq_some.mp hrow
      rw [Option.filter_eq_none_iff] at hnone
      refine hnone row ?_ (decide_eq_true hrecipient)
      rw [← List.mem_singleton.mp hid]
      exact hrow

/-- What `acknowledge` returns are receipts to the caller, with their senders. -/
theorem mem_acknowledge_answer {recipientId : UserId} {receipt : MessageId × UserId} :
    ∀ {receiptIds : List MessageId} {db : Db C D},
      receipt ∈ (acknowledge recipientId receiptIds db).1 →
      receipt.1 ∈ receiptIds ∧ ∃ row, db.receipt? receipt.1 = some row ∧
        row.recipientId = recipientId ∧ row.senderId = receipt.2 := by
  intro receiptIds
  induction receiptIds with
  | nil =>
    intro db h
    cases h
  | cons receiptId rest ih =>
    intro db h
    unfold acknowledge at h
    split at h
    · next row hfound =>
      obtain ⟨hrow, hrecipient⟩ := Option.filter_eq_some_iff.mp hfound
      rcases List.mem_cons.mp h with rfl | h
      · exact ⟨List.mem_cons_self, row, hrow, of_decide_eq_true hrecipient, rfl⟩
      · obtain ⟨hid, row', hrow', hparties⟩ := ih h
        rw [receipt?_acknowledgeOne, Option.map_eq_some_iff] at hrow'
        obtain ⟨before, hbefore, rfl⟩ := hrow'
        rw [(before.acknowledgedBy_parties recipientId [receiptId]).1,
          (before.acknowledgedBy_parties recipientId [receiptId]).2] at hparties
        exact ⟨List.mem_cons_of_mem _ hid, before, hbefore, hparties⟩
    · obtain ⟨hid, hrow⟩ := ih h
      exact ⟨List.mem_cons_of_mem _ hid, hrow⟩

/-! ## Transactions -/

/-- The transactions that write to the receipts. -/
def Transaction.writesReceipts : Transaction C → Bool
  | .enqueueReceipt .. => true
  | .acknowledge .. => true
  | .confirmSenderReceived .. => true
  | .deleteInvalid .. => true
  | _ => false

theorem Effect.receipts_eq [DecidableEq D] {digest : EncryptedEnvelope C → D} {db db' : Db C D}
    {t : Transaction C} {answer : Option Answer} (h : Effect digest db t answer db')
    (ht : t.writesReceipts = false) : db'.readReceiptQueue = db.readReceiptQueue := by
  cases h with
  | failed => rfl
  | registered _ _ _ _ h | uploaded _ _ _ _ _ _ _ h | rotated _ _ _ _ _ _ h => cases h <;> rfl
  | fetched _ _ _ _ _ _ _ h | enqueued _ _ _ _ h => cases h <;> rfl
  | confirmed | acked | dropped | collected => rfl
  | _ => cases ht

/-- What a transaction makes of the receipt `id`. -/
theorem Transaction.receiptMove [DecidableEq D] (digest : EncryptedEnvelope C → D)
    (t : Transaction C) (db : Db C D) (id : MessageId) :
    ReceiptMove id t (db.receipt? id) ((t.after digest db).receipt? id) := by
  cases ht : t.writesReceipts with
  | false =>
    have heq : (t.after digest db).receipt? id = db.receipt? id :=
      congrArg (Table.find? · id) ((t.effect digest db).receipts_eq ht)
    rw [heq]
    exact .kept _
  | true =>
    cases t with
    | enqueueReceipt receiptId recipientId senderId envelope maxQueuePerUser =>
      have heffect := (Transaction.enqueueReceipt receiptId recipientId senderId envelope
        maxQueuePerUser).effect digest db
      generalize Transaction.after digest _ db = db' at heffect ⊢
      generalize Transaction.answer? digest _ db = answer at heffect
      cases heffect with
      | failed => exact .kept _
      | receiptQueued _ _ _ _ _ _ _ h => exact receipt?_enqueueReceipt h id
    | acknowledge recipientId receiptIds =>
      have hfound : ((Transaction.acknowledge recipientId receiptIds).after digest db).receipt? id =
          (db.receipt? id).map (ReceiptRow.acknowledgedBy recipientId receiptIds) :=
        receipt?_acknowledge recipientId id receiptIds db
      rw [hfound]
      cases hrow : db.receipt? id with
      | none => exact .kept _
      | some row =>
        obtain ⟨-, rfl⟩ := Db.receipt?_eq_some.mp hrow
        unfold ReceiptRow.acknowledgedBy
        rw [Option.map_some]
        split
        · next h =>
          obtain ⟨hid, rfl⟩ := h
          exact .acknowledged row receiptIds rfl hid
        · exact .kept _
    | confirmSenderReceived senderId receiptIds =>
      have hfound :
        ((Transaction.confirmSenderReceived senderId receiptIds).after digest db).receipt?
          id = (db.receipt? id).filter fun row =>
            !(decide (row.receiptId ∈ receiptIds ∧ row.senderId = senderId) && row.acknowledged) :=
        Table.find?_deleteWhere _ _ _
      rw [hfound]
      cases hrow : db.receipt? id with
      | none => exact .kept _
      | some row =>
        obtain ⟨-, rfl⟩ := Db.receipt?_eq_some.mp hrow
        rw [Option.filter_some]
        split
        · exact .kept _
        · next h =>
          simp only [Bool.not_eq_true', Bool.not_eq_false, Bool.and_eq_true,
            decide_eq_true_eq] at h
          obtain ⟨⟨hid, rfl⟩, hacknowledged⟩ := h
          exact .confirmed row receiptIds rfl hid hacknowledged
    | deleteInvalid recipientId receiptId =>
      have hfound :
        ((Transaction.deleteInvalid recipientId receiptId).after digest db).receipt? id =
          (db.receipt? id).filter fun row =>
            !decide (row.receiptId = receiptId ∧ row.recipientId = recipientId) :=
        Table.find?_deleteWhere _ _ _
      rw [hfound]
      cases hrow : db.receipt? id with
      | none => exact .kept _
      | some row =>
        obtain ⟨-, rfl⟩ := Db.receipt?_eq_some.mp hrow
        rw [Option.filter_some]
        split
        · exact .kept _
        · next h =>
          simp only [Bool.not_eq_true', Bool.not_eq_false, decide_eq_true_eq] at h
          obtain ⟨rfl, rfl⟩ := h
          exact .dropped row rfl
    | _ => cases ht

end Cmp.Relay
