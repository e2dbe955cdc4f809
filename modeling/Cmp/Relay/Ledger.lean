import Cmp.Relay.Acceptance
import Cmp.Relay.Upgrade

/-! The count of the ledger. `message_acceptance_stats` holds the number of the rows of
`message_acceptances`: a message that is accepted adds one to both, and a confirmation takes
from both what it deletes. -/

namespace Cmp.Relay

open Cmp.Crypto Cmp.Protocol Cmp.Lib

variable {C D : Type}

/-- The loop of `confirm_acceptances`, with the rows deleted so far. -/
def deleteAcceptances (senderId : UserId) : List MessageId →
    Table (AcceptanceRow.messageId (D := D)) × Nat → Table (AcceptanceRow.messageId (D := D)) × Nat
  | [], state => state
  | messageId :: messageIds, (acceptances, deleted) =>
    let isConfirmed (row : AcceptanceRow D) :=
      decide (row.senderId = senderId ∧ row.messageId = messageId)
    deleteAcceptances senderId messageIds
      (acceptances.deleteWhere isConfirmed, deleted + acceptances.count isConfirmed)

/-- The loop deletes what the batch confirms, each row once. -/
theorem deleteAcceptances_eq (senderId : UserId) (messageIds : List MessageId) :
    ∀ (acceptances : Table (AcceptanceRow.messageId (D := D))) (deleted : Nat),
      deleteAcceptances senderId messageIds (acceptances, deleted) =
        (acceptances.deleteWhere (confirmsAcceptance senderId messageIds),
          deleted + acceptances.count (confirmsAcceptance senderId messageIds)) := by
  induction messageIds with
  | nil =>
    intro acceptances deleted
    have hnone : (confirmsAcceptance senderId [] : AcceptanceRow D → Bool) = fun _ => false := by
      funext row
      exact decide_eq_false fun h => List.not_mem_nil h.2
    rw [hnone]
    unfold deleteAcceptances Table.deleteWhere Table.count
    simp
  | cons messageId messageIds ih =>
    intro acceptances deleted
    have hsplit : (confirmsAcceptance senderId (messageId :: messageIds) :
        AcceptanceRow D → Bool) = fun row =>
          decide (row.senderId = senderId ∧ row.messageId = messageId) ||
            confirmsAcceptance senderId messageIds row := by
      funext row
      unfold confirmsAcceptance
      rw [← Bool.decide_or, decide_eq_decide, List.mem_cons]
      exact and_or_left
    rw [deleteAcceptances, ih, hsplit, Table.deleteWhere_deleteWhere, Nat.add_assoc,
      Table.count_deleteWhere]

/-- The count is that of the ledger. -/
def Db.Accounted (db : Db C D) : Prop := db.acceptanceCount = db.messageAcceptances.rows.length

/-- What a confirmation deletes is counted. -/
theorem Db.Accounted.deleted_le {db : Db C D} (h : db.Accounted) (senderId : UserId)
    (messageIds : List MessageId) :
    (deleteAcceptances senderId messageIds (db.messageAcceptances, 0)).2 ≤ db.acceptanceCount := by
  have hlength := db.messageAcceptances.length_deleteWhere (confirmsAcceptance senderId messageIds)
  rw [deleteAcceptances_eq, h]
  omega

theorem Db.Accounted.confirm {db : Db C D} (h : db.Accounted) (senderId : UserId)
    (messageIds : List MessageId) : (confirmAcceptances senderId messageIds db).Accounted := by
  have hlength := db.messageAcceptances.length_deleteWhere (confirmsAcceptance senderId messageIds)
  unfold Db.Accounted confirmAcceptances at *
  dsimp only
  omega

/-- A message that is accepted adds its row. -/
theorem Db.Accounted.accept {db : Db C D} (h : db.Accounted) {request : EnqueueRequest C}
    {queue : Table (QueueRow.messageId (C := C))} {envelopeDigest : D}
    {acceptances : Table (AcceptanceRow.messageId (D := D))}
    (haccepted : db.messageAcceptances.insert (request.acceptance envelopeDigest) =
      some acceptances) : (request.admitted db queue acceptances).Accounted := by
  have hrows := Table.rows_insert haccepted
  show db.acceptanceCount + 1 = acceptances.rows.length
  rw [hrows, List.length_append, List.length_singleton, h]

variable [DecidableEq D]

theorem Effect.accounted {digest : EncryptedEnvelope C → D} {db db' : Db C D} {t : Transaction C}
    {answer : Option Answer} (h : Effect digest db t answer db') (hdb : db.Accounted) :
    db'.Accounted := by
  cases h with
  | registered _ _ _ _ h | uploaded _ _ _ _ _ _ _ h | rotated _ _ _ _ _ _ h => cases h <;> exact hdb
  | fetched _ _ _ _ _ _ _ h => cases h <;> exact hdb
  | enqueued request createdAt result db' h =>
    cases h with
    | refused | known => exact hdb
    | inserted queue acceptances _ _ _ haccepted | ignored acceptances _ _ _ haccepted =>
      exact hdb.accept haccepted
  | confirmed senderId messageIds => exact hdb.confirm senderId messageIds
  | receiptQueued _ _ _ _ _ _ _ h =>
    rcases enqueueReceipt_cases h with ⟨-, rfl⟩ | ⟨-, queue, -, rfl⟩ <;> exact hdb
  | _ => exact hdb

theorem Db.Accounted.after {db : Db C D} (h : db.Accounted) (digest : EncryptedEnvelope C → D)
    (ts : Nat → Transaction C) (n : Nat) : (db.after digest ts n).Accounted := by
  induction n with
  | zero => exact h
  | succ n ih => exact (db.after_effect digest ts n).accounted ih

/-! ## Where the relay starts -/

/-- The database that a file of the current version holds: its texts are those of the ids and
envelopes. -/
structure Db.HeldBy (W : Wire C) (disk : Disk D) (db : Db C D) : Prop where
  version : disk.userVersion = CURRENT_VERSION
  users : disk.users.map (·.rows.map fun row => (row.userId, row.identityKey)) =
    some (db.users.rows.map fun row => (row.userId.text, row.identityKey))
  signedPrekeys : disk.signedPrekeys.map (·.rows.map fun row =>
      (row.userId, row.keyId, row.publicKey, row.signature)) =
    some (db.signedPrekeys.rows.map fun row =>
      (row.userId.text, (row.keyId.toNat : Int), row.publicKey, row.signature))
  prekeys : disk.prekeys.map (·.rows.map fun row =>
      (row.userId, row.keyId, row.publicKey, row.createdAt)) =
    some (db.prekeys.rows.map fun row =>
      (row.userId.text, (row.keyId.toNat : Int), row.publicKey, some row.createdAt))
  prekeyInventory : disk.prekeyInventory.map (·.rows.map fun row => (row.userId, row.highWater)) =
    some (db.prekeyInventory.rows.map fun row => (row.userId.text, row.highWater))
  prekeyFetchEvents : disk.prekeyFetchEvents.map (·.map fun row =>
      (row.requesterId, row.targetId, row.createdAt)) =
    some (db.prekeyFetchEvents.map fun row =>
      (row.requesterId.text, row.targetId.text, (row.createdAt : Int)))
  prekeyReservations : disk.prekeyReservations.map (·.rows.map fun row =>
      (row.requesterId, row.targetId, row.keyId, row.expiresAt)) =
    some (db.prekeyReservations.rows.map fun row =>
      (row.requesterId.text, row.targetId.text, (row.keyId.toNat : Int), (row.expiresAt : Int)))
  messageQueue : disk.messageQueue.map Table.rows =
    some (db.messageQueue.rows.map fun row =>
      ⟨W.uuidText row.messageId, row.recipientId.text, row.senderId.text,
        W.envelopeJson row.envelope, W.datetime row.createdAt⟩)
  messageAcceptances : disk.messageAcceptances.map Table.rows =
    some (db.messageAcceptances.rows.map fun row =>
      ⟨W.uuidText row.messageId, row.recipientId.text, row.senderId.text, row.envelopeDigest,
        row.acceptedAt⟩)
  acceptanceStats : disk.acceptanceStats = some db.acceptanceCount
  readReceiptQueue : disk.readReceiptQueue.map (·.rows.map fun row =>
      (row.receiptId, row.recipientId, row.senderId, row.envelope, row.acknowledged)) =
    some (db.readReceiptQueue.rows.map fun row =>
      (W.uuidText row.receiptId, row.recipientId.text, row.senderId.text,
        W.envelopeJson row.envelope, if row.acknowledged then (1 : Int) else 0))

/-- The relay has upgraded an older file to the one that holds the database. -/
def Db.Migrated (W : Wire C) (T : Texts D) (db : Db C D) : Prop :=
  ∃ disk starts unixepoch disk', Conforms T disk ∧ disk.userVersion < CURRENT_VERSION ∧
    initializeSchema W T unixepoch (crashed T starts disk) = (.ok (), disk') ∧
    db.HeldBy W disk'

omit [DecidableEq D] in
theorem Db.Migrated.accounted {W : Wire C} {T : Texts D} {db : Db C D}
    (h : db.Migrated W T) : db.Accounted := by
  obtain ⟨disk, starts, unixepoch, disk', hconforms, hold, hstart, hheld⟩ := h
  obtain ⟨reached, hrun, hcurrent, hupgraded⟩ :=
    Upgraded.started T starts unixepoch hconforms (le_of_lt hold)
  unfold initializeSchema at hstart
  rw [hrun] at hstart
  cases (Prod.mk.inj hstart).2
  obtain ⟨queue, ledger, -, hledger, -, hstats⟩ := hupgraded.ledgered hold hcurrent
  have hrows := hheld.messageAcceptances
  rw [hledger, Option.map_some, Option.some.injEq] at hrows
  have hcount := Option.some.inj (hheld.acceptanceStats.symm.trans hstats)
  unfold Db.Accounted
  rw [hcount, hrows, List.length_map]

/-- The count is the number of rows of the ledger, from a fresh database or a migrated one on. -/
theorem ledger_accounted (W : Wire C) (T : Texts D) (ts : Nat → Transaction C)
    (start : Db C D) (hstart : start = Db.fresh ∨ start.Migrated W T) :
    let digest := fun envelope => T.sha256 (W.envelopeJson envelope)
    let db := start.after digest ts
    ∀ n,
      (db n).acceptanceCount = (db n).messageAcceptances.rows.length ∧
      -- a confirmation deletes no more than is counted
      (∀ senderId messageIds,
        let deleted := deleteAcceptances senderId messageIds ((db n).messageAcceptances, 0)
        deleted.2 ≤ (db n).acceptanceCount ∧
          confirmAcceptances senderId messageIds (db n) =
            { db n with
              messageAcceptances := deleted.1
              acceptanceCount := (db n).acceptanceCount - deleted.2 }) ∧
      -- a message that is not accepted changes nothing
      ∀ request createdAt result db', enqueue digest request createdAt (db n) = .ok (result, db') →
        result.isAccepted = false → db' = db n := by
  intro digest db n
  have haccounted : (db n).Accounted := by
    refine Db.Accounted.after ?_ digest ts n
    rcases hstart with rfl | hmigrated
    · rfl
    · exact hmigrated.accounted
  refine ⟨haccounted, fun senderId messageIds =>
    ⟨haccounted.deleted_le senderId messageIds, ?_⟩, ?_⟩
  · rw [deleteAcceptances_eq, Nat.zero_add]
    rfl
  · intro request createdAt result db' henqueue hresult
    obtain ⟨result', db'', heq, hcases⟩ := enqueue_cases digest request createdAt (db n)
    cases henqueue.symm.trans heq
    cases hcases with
    | refused => rfl
    | known | inserted | ignored => cases hresult

/-- Alice sends Bob a byte, and confirms it with its id twice in the batch. -/
def sentAndConfirmed : Nat → Transaction Bytes
  | 0 => bobRegisters
  | 1 => .enqueue (byteTo 7) 50
  | _ => .confirmAcceptances alice [⟨1⟩, ⟨1⟩]

theorem ledger_accounted_alice :
    ((Db.fresh : Db Bytes String).after (fun e => oneText.envelopeJson e) sentAndConfirmed
      2).messageAcceptances.rows.length = 1 ∧
    ((Db.fresh : Db Bytes String).after (fun e => oneText.envelopeJson e) sentAndConfirmed
      3).acceptanceCount =
    ((Db.fresh : Db Bytes String).after (fun e => oneText.envelopeJson e) sentAndConfirmed
      3).messageAcceptances.rows.length :=
  ⟨rfl, (ledger_accounted oneText sameTime sentAndConfirmed Db.fresh (.inl rfl) 3).1⟩

end Cmp.Relay
