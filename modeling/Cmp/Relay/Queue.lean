import Cmp.Relay.Database

/-! `db/queue.rs`: the message queue and the ledger of accepted messages. The queue row
goes with the acknowledgement of the recipient, the ledger row with that of the sender. -/

namespace Cmp.Relay

open Cmp.Crypto Cmp.Protocol Cmp.Lib

variable {C D : Type}

structure EnqueueRequest (C : Type) where
  messageId : MessageId
  recipientId : UserId
  senderId : UserId
  envelope : EncryptedEnvelope C
  maxQueuePerUser : Nat
  signedPrekeyId : Option UInt32
  oneTimePrekeyId : Option UInt32
  now : Nat

inductive EnqueueResult
  | inserted
  | duplicate
  | queueFull
  | recipientNotFound
  | prekeyReservationInvalid
  | signedPrekeyExpired
  | messageIdConflict
  | acceptanceLedgerFull
  deriving DecidableEq, Repr

def MAX_GLOBAL_ACCEPTANCES : Nat := 1000000

/-- The answer for an id that the ledger holds. -/
def classifyExisting [DecidableEq D] (request : EnqueueRequest C) (envelopeDigest : D)
    (db : Db C D) : Option EnqueueResult :=
  (db.messageAcceptances.find? request.messageId).map fun row =>
    if row.recipientId = request.recipientId ∧ row.senderId = request.senderId ∧
        row.envelopeDigest = envelopeDigest then .duplicate
    else .messageIdConflict

/-- The reservation a request claims. -/
def EnqueueRequest.claims (request : EnqueueRequest C) (keyId : UInt32) (row : ReservationRow) :
    Bool :=
  decide (row.requesterId = request.senderId ∧ row.targetId = request.recipientId ∧
    row.keyId = keyId ∧ request.now ≤ row.expiresAt)

def claimPrekeyReservation (request : EnqueueRequest C) (db : Db C D) :
    Option EnqueueResult × Db C D :=
  if db.messageAcceptances.count (fun row => decide (row.senderId = request.senderId)) ≥
      MAX_PENDING_OUTBOUND_ITEMS then (some .acceptanceLedgerFull, db)
  else if ¬db.acceptanceCount < MAX_GLOBAL_ACCEPTANCES then (some .acceptanceLedgerFull, db)
  else
    let db :=
      { db with
        acceptanceCount := db.acceptanceCount + 1
        prekeyReservations :=
          db.prekeyReservations.deleteWhere fun row => decide (row.expiresAt < request.now) }
    if request.signedPrekeyId.any fun keyId =>
        (db.signedPrekeys.find? (request.recipientId, keyId)).isNone then
      (some .signedPrekeyExpired, db)
    else
      match request.oneTimePrekeyId with
      | none => (none, db)
      | some keyId =>
        if db.prekeyReservations.count (request.claims keyId) = 0 then
          (some .prekeyReservationInvalid, db)
        else
          (none, { db with
            prekeyReservations := db.prekeyReservations.deleteWhere (request.claims keyId) })

/-- The `rowid` of a new row is one more than the largest in the table, so that of a last row
that is deleted is used again. -/
def Db.nextRowId (db : Db C D) : Nat :=
  (db.messageQueue.rows.map QueueRow.rowId).max?.getD 0 + 1

/-- The queue row of a request; `createdAt` is the clock of the database. -/
def EnqueueRequest.row (request : EnqueueRequest C) (db : Db C D) (createdAt : Nat) :
    QueueRow C :=
  ⟨db.nextRowId, request.messageId, request.recipientId, request.senderId, request.envelope,
    createdAt⟩

def EnqueueRequest.acceptance (request : EnqueueRequest C) (envelopeDigest : D) :
    AcceptanceRow D :=
  ⟨request.messageId, request.recipientId, request.senderId, envelopeDigest, request.now⟩

def enqueue [DecidableEq D] (digest : EncryptedEnvelope C → D) (request : EnqueueRequest C)
    (createdAt : Nat) (db : Db C D) : Except DbError (EnqueueResult × Db C D) :=
  match classifyExisting request (digest request.envelope) db with
  | some result => .ok (result, db)
  | none =>
    if ¬db.hasUser request.recipientId then .ok (.recipientNotFound, db)
    else if db.messageQueue.count (fun row => decide (row.recipientId = request.recipientId)) ≥
        request.maxQueuePerUser then .ok (.queueFull, db)
    else
      match claimPrekeyReservation request db with
      | (some result, _) => .ok (result, db)
      | (none, claimed) =>
        let queue := claimed.messageQueue.insert (request.row db createdAt)
        match claimed.messageAcceptances.insert (request.acceptance (digest request.envelope)) with
        | none => .error .constraint
        | some acceptances =>
          .ok (if queue.isSome then .inserted else .duplicate,
            { claimed with
              messageQueue := queue.getD claimed.messageQueue
              messageAcceptances := acceptances })

/-- `pending_acceptances`: what the sender has not confirmed, oldest first. -/
def pendingAcceptances (senderId : UserId) (limit : Nat) (db : Db C D) : List MessageId :=
  (((db.messageAcceptances.rows.filter fun row => decide (row.senderId = senderId)).mergeSort
    fun a b => decide (a.acceptedAt ≤ b.acceptedAt)).take limit).map AcceptanceRow.messageId

/-- The ledger rows that a sender confirms. -/
def confirmsAcceptance (senderId : UserId) (messageIds : List MessageId) (row : AcceptanceRow D) :
    Bool :=
  decide (row.senderId = senderId ∧ row.messageId ∈ messageIds)

def confirmAcceptances (senderId : UserId) (messageIds : List MessageId) (db : Db C D) : Db C D :=
  { db with
    messageAcceptances := db.messageAcceptances.deleteWhere (confirmsAcceptance senderId messageIds)
    acceptanceCount :=
      db.acceptanceCount - db.messageAcceptances.count (confirmsAcceptance senderId messageIds) }

/-- The queue rows that a recipient acknowledges. -/
def acksMessage (recipientId : UserId) (messageIds : List MessageId) (row : QueueRow C) : Bool :=
  decide (row.messageId ∈ messageIds ∧ row.recipientId = recipientId)

def deleteMessages (recipientId : UserId) (messageIds : List MessageId) (db : Db C D) : Db C D :=
  { db with messageQueue := db.messageQueue.deleteWhere (acksMessage recipientId messageIds) }

/-- Deletes what has the `rowid` now. -/
def deleteInvalidRow (recipientId : UserId) (rowId : Nat) (db : Db C D) : Db C D :=
  { db with
    messageQueue := db.messageQueue.deleteWhere fun row =>
      decide (row.rowId = rowId ∧ row.recipientId = recipientId) }

def GC_MAX_AGE_DAYS : Nat := 30

/-- Older than `max_age_days`. -/
def isExpired (maxAgeDays now : Nat) (row : QueueRow C) : Bool :=
  decide (row.createdAt < now - maxAgeDays * 24 * 60 * 60)

def gcOldMessages (maxAgeDays now : Nat) (db : Db C D) : Db C D :=
  { db with messageQueue := db.messageQueue.deleteWhere (isExpired maxAgeDays now) }

/-! ## What `enqueue` does -/

/-- The database after the ledger has made room for a request and its reservation is
claimed. -/
def EnqueueRequest.claimed (request : EnqueueRequest C) (db : Db C D) : Db C D :=
  let unexpired := db.prekeyReservations.deleteWhere fun row => decide (row.expiresAt < request.now)
  { db with
    acceptanceCount := db.acceptanceCount + 1
    prekeyReservations :=
      request.oneTimePrekeyId.elim unexpired fun keyId =>
        unexpired.deleteWhere (request.claims keyId) }

/-- What a request needs: the signed prekey it names, and a reservation for the one-time
prekey it names. -/
structure EnqueueRequest.Backed (request : EnqueueRequest C) (db : Db C D) : Prop where
  signedPrekey : ∀ keyId, request.signedPrekeyId = some keyId →
    ∃ row ∈ db.signedPrekeys, row.userId = request.recipientId ∧ row.keyId = keyId
  reservation : ∀ keyId, request.oneTimePrekeyId = some keyId →
    ∃ row ∈ db.prekeyReservations, request.claims keyId row = true

def EnqueueResult.isAccepted : EnqueueResult → Bool
  | .inserted => true
  | .duplicate => true
  | _ => false

theorem claimPrekeyReservation_cases (request : EnqueueRequest C) (db : Db C D) :
    (∃ result db', claimPrekeyReservation request db = (some result, db') ∧
      result.isAccepted = false) ∨
    (claimPrekeyReservation request db = (none, request.claimed db) ∧ request.Backed db) := by
  unfold claimPrekeyReservation
  split
  · exact .inl ⟨_, _, rfl, rfl⟩
  split
  · exact .inl ⟨_, _, rfl, rfl⟩
  dsimp only
  split
  · exact .inl ⟨_, _, rfl, rfl⟩
  next hsigned =>
    have hspk : ∀ keyId, request.signedPrekeyId = some keyId →
        ∃ row ∈ db.signedPrekeys, row.userId = request.recipientId ∧ row.keyId = keyId := by
      intro keyId hid
      rw [hid, Option.any_some, Bool.not_eq_true, Option.isNone_eq_false_iff,
        Table.find?_isSome] at hsigned
      obtain ⟨row, hrow, hkey⟩ := hsigned
      exact ⟨row, hrow, Prod.mk.inj hkey⟩
    split
    · next hnone =>
      refine .inr ⟨?_, hspk, fun keyId hid => by cases hnone.symm.trans hid⟩
      simp only [EnqueueRequest.claimed, hnone, Option.elim_none]
    · next keyId hsome =>
      split
      · exact .inl ⟨_, _, rfl, rfl⟩
      next hcount =>
        refine .inr ⟨?_, hspk, fun keyId' hid => ?_⟩
        · simp only [EnqueueRequest.claimed, hsome, Option.elim_some]
        · cases hsome.symm.trans hid
          obtain ⟨row, hrow, hclaims⟩ := Table.count_pos.mp (Nat.pos_of_ne_zero hcount)
          exact ⟨row, Table.mem_of_mem_deleteWhere hrow, hclaims⟩

/-- The database with the ledger row of a request, and with `queue` as its queue. -/
def EnqueueRequest.admitted (request : EnqueueRequest C) (db : Db C D)
    (queue : Table (QueueRow.messageId (C := C)))
    (acceptances : Table (AcceptanceRow.messageId (D := D))) : Db C D :=
  { request.claimed db with messageQueue := queue, messageAcceptances := acceptances }

/-- The ways `enqueue` can end. -/
inductive Enqueued (digest : EncryptedEnvelope C → D) (request : EnqueueRequest C)
    (createdAt : Nat) (db : Db C D) [DecidableEq D] : EnqueueResult → Db C D → Prop
  | refused (result : EnqueueResult) (hresult : result.isAccepted = false) :
      Enqueued digest request createdAt db result db
  | known (row : AcceptanceRow D) (hrow : row ∈ db.messageAcceptances)
      (hid : row.messageId = request.messageId) (hrecipient : row.recipientId = request.recipientId)
      (hsender : row.senderId = request.senderId)
      (hdigest : row.envelopeDigest = digest request.envelope) :
      Enqueued digest request createdAt db .duplicate db
  | inserted (queue : Table (QueueRow.messageId (C := C)))
      (acceptances : Table (AcceptanceRow.messageId (D := D)))
      (hbacked : request.Backed db) (huser : db.hasUser request.recipientId = true)
      (hqueue : db.messageQueue.insert (request.row db createdAt) = some queue)
      (haccepted : db.messageAcceptances.insert (request.acceptance (digest request.envelope)) =
        some acceptances) :
      Enqueued digest request createdAt db .inserted (request.admitted db queue acceptances)
  | ignored (acceptances : Table (AcceptanceRow.messageId (D := D)))
      (hbacked : request.Backed db) (huser : db.hasUser request.recipientId = true)
      (hqueue : db.messageQueue.insert (request.row db createdAt) = none)
      (haccepted : db.messageAcceptances.insert (request.acceptance (digest request.envelope)) =
        some acceptances) :
      Enqueued digest request createdAt db .duplicate
        (request.admitted db db.messageQueue acceptances)

theorem enqueue_cases [DecidableEq D] (digest : EncryptedEnvelope C → D)
    (request : EnqueueRequest C) (createdAt : Nat) (db : Db C D) :
    ∃ result db', enqueue digest request createdAt db = .ok (result, db') ∧
      Enqueued digest request createdAt db result db' := by
  unfold enqueue classifyExisting
  cases hfind : db.messageAcceptances.find? request.messageId with
  | some row =>
    obtain ⟨hrow, hid⟩ := Table.find?_eq_some.mp hfind
    simp only [Option.map_some]
    split
    · next hsame => exact ⟨_, _, rfl, .known row hrow hid hsame.1 hsame.2.1 hsame.2.2⟩
    · exact ⟨_, _, rfl, .refused _ rfl⟩
  | none =>
    simp only [Option.map_none]
    split
    · exact ⟨_, _, rfl, .refused _ rfl⟩
    next huser =>
    split
    · exact ⟨_, _, rfl, .refused _ rfl⟩
    rcases claimPrekeyReservation_cases request db with
      ⟨result, claimed, hclaim, hresult⟩ | ⟨hclaim, hbacked⟩
    · rw [hclaim]
      exact ⟨_, _, rfl, .refused _ hresult⟩
    · rw [hclaim]
      cases haccepted :
          db.messageAcceptances.insert (request.acceptance (digest request.envelope)) with
      | none =>
        obtain ⟨row, hrow, hid⟩ := Table.insert_eq_none.mp haccepted
        exact absurd hid (Table.find?_eq_none.mp hfind row hrow)
      | some acceptances =>
        have huser' := not_not.mp huser
        cases hqueue : db.messageQueue.insert (request.row db createdAt) with
        | none =>
          refine ⟨_, _, ?_, .ignored acceptances hbacked huser' hqueue haccepted⟩
          simp only [EnqueueRequest.claimed, EnqueueRequest.admitted, haccepted, hqueue]
          rfl
        | some queue =>
          refine ⟨_, _, ?_, .inserted queue acceptances hbacked huser' hqueue haccepted⟩
          simp only [EnqueueRequest.claimed, EnqueueRequest.admitted, haccepted, hqueue]
          rfl

end Cmp.Relay
