import Cmp.Relay.Deliverability
import Cmp.Relay.ReceiptMoves
import Mathlib.Data.Countable.Basic
import Mathlib.Logic.Equiv.List
import Mathlib.Tactic.DeriveCountable

/-! Read receipts in every run of the process, whatever its connections do between two awaits and
however often it starts again. A receipt is stored by its sender, acknowledged by its recipient and
removed when its sender has confirmed that; `ReadReceiptSent` comes from three places, a receipt
that is sent again, an acknowledgement and a login, and in each of them the receipt is acknowledged
and goes to its sender. -/

namespace Cmp.Relay

open Cmp.Crypto Cmp.Protocol Cmp.Lib

variable {K Sec C D κ : Type}

/-! ## Requests -/

/-- What the texts of a row are read back as. -/
structure Wire.Lawful (W : Wire C) : Prop where
  envelope : ∀ envelope, W.parseEnvelope (W.envelopeJson envelope) = some envelope
  uuid : ∀ id, W.parseUuid (W.uuidText id) = some id

variable {row : ReceiptRow C}

theorem queuedReceiptAction_of_valid {W : Wire C} (hW : W.Lawful)
    (hvalid : validateEnvelope row.envelope = .ok ()) :
    queuedReceiptAction W row =
      .deliver (.incomingReadReceipt row.senderId row.receiptId row.envelope) := by
  simp only [queuedReceiptAction, hW.uuid, hW.envelope, UserId.new_text,
    validateQueuedEnvelope_ok hvalid]

variable {message : ClientMessage C}

section Handlers

variable {S : IdentitySuite K Sec C} {pageLen : InboundMessage C → Nat → Nat} {userId : UserId}
  {env : RelayEnv} {db : Db C D} {digest : EncryptedEnvelope C → D} {fails : Bool}

/-- A receipt that comes to the database has passed the checks. -/
theorem handleReadReceipt_checked {recipientId : UserId} {id : MessageId}
    {envelope : EncryptedEnvelope C} {t : Transaction C}
    {respond : Option Answer → Option (ServerMessage C)}
    (h : handleMessage S pageLen userId env db (.sendReadReceipt recipientId id envelope) =
      .transact t respond) : validateEnvelope envelope = .ok () := by
  simp only [handleMessage, handleReadReceipt] at h
  split at h
  · cases h
  · next hvalid => exact hvalid

variable [DecidableEq D]

theorem Effect.acknowledge_of_answer {db' : Db C D} {t : Transaction C}
    {receipts : List (MessageId × UserId)}
    (h : Effect digest db t (some (.acknowledged receipts)) db') :
    ∃ recipientId receiptIds, t = .acknowledge recipientId receiptIds := by
  cases h
  exact ⟨_, _, rfl⟩

/-- The reply `ReadReceiptSent` is given for a receipt of the user that is acknowledged. -/
theorem handleMessage_readReceiptSent {message : ClientMessage C} {id : MessageId}
    (h : ((handleMessage S pageLen userId env db message).run digest fails db).1 =
      some (.readReceiptSent id)) :
    ∃ row, db.receipt? id = some row ∧ row.senderId = userId ∧ row.acknowledged = true := by
  obtain ⟨recipientId, envelope, rfl⟩ := handleMessage_answers.run h
  simp only [handleMessage, handleReadReceipt] at h
  split at h
  · cases h
  unfold Handling.run at h
  dsimp only at h
  split at h
  · cases h
  have heffect := (Transaction.enqueueReceipt id recipientId userId envelope
    MAX_QUEUE_PER_USER).effect digest db
  generalize Transaction.answer? digest _ db = answer at h heffect
  generalize Transaction.after digest _ db = db' at heffect
  cases heffect with
  | failed => cases h
  | receiptQueued _ _ _ _ _ result _ hqueued =>
    cases result with
    | alreadyAcknowledged =>
      obtain ⟨row, hrow, -, hsender, hacknowledged⟩ := enqueueReceipt_alreadyAcknowledged hqueued
      exact ⟨row, hrow, hsender, hacknowledged⟩
    | _ => cases h

/-- What the database reports as acknowledged is acknowledged by the user of the request. -/
theorem handleMessage_acknowledged {message : ClientMessage C}
    {receipts : List (MessageId × UserId)}
    (h : (handleMessage S pageLen userId env db message).answer? digest fails db =
      some (.acknowledged receipts)) {receipt : MessageId × UserId}
        (hreceipt : receipt ∈ receipts) :
    ∃ ackId receiptIds row, message = .ackReadReceipt ackId receiptIds ∧ receipt.1 ∈ receiptIds ∧
      db.receipt? receipt.1 = some row ∧ row.recipientId = userId ∧ row.senderId = receipt.2 ∧
      ((handleMessage S pageLen userId env db message).run digest fails db).2.receipt? receipt.1 =
        some { row with acknowledged := true } := by
  cases hhandling : handleMessage S pageLen userId env db message with
  | reply => rw [hhandling] at h; cases h
  | transact t respond =>
    rw [hhandling] at h
    have hserves := handleMessage_serves hhandling
    unfold Handling.answer? at h
    dsimp only at h
    split at h
    · cases h
    next hfails =>
    have heffect := t.effect digest db
    rw [h] at heffect
    obtain ⟨recipientId, receiptIds, rfl⟩ := heffect.acknowledge_of_answer
    obtain ⟨rfl, ackId, rfl⟩ := hserves
    cases h
    obtain ⟨hid, row, hrow, hrecipient, hsender⟩ := mem_acknowledge_answer hreceipt
    refine ⟨ackId, receiptIds, row, rfl, hid, hrow, hrecipient, hsender, ?_⟩
    unfold Handling.run
    dsimp only
    rw [if_neg hfails]
    refine (receipt?_acknowledge recipientId receipt.1 receiptIds db).trans ?_
    rw [hrow, Option.map_some, ReceiptRow.acknowledgedBy, if_pos]
    exact ⟨(Db.receipt?_eq_some.mp hrow).2 ▸ hid, hrecipient⟩

end Handlers

/-! ## One step -/

namespace AsyncServer

variable [DecidableEq κ] [DecidableEq D] {R : Deployment K Sec C D} {a : AsyncServer κ C D}

/-- The moves of the receipt `id` in an event. -/
inductive ReceiptStep (a : AsyncServer κ C D) (event : Event κ C) (id : MessageId) :
    Option (ReceiptRow C) → Option (ReceiptRow C) → Prop
  | kept (receipt : Option (ReceiptRow C)) : ReceiptStep a event id receipt receipt
  | stored (conn : κ) (recipientId senderId : UserId) (envelope : EncryptedEnvelope C)
      (env : SessionEnv)
      (hasks : a.Asks conn senderId (.sendReadReceipt recipientId id envelope) env event)
      (hvalid : validateEnvelope envelope = .ok ()) :
      ReceiptStep a event id none (some ⟨id, recipientId, senderId, envelope, false⟩)
  | acknowledged (conn : κ) (row : ReceiptRow C) (ackId : MessageId) (receiptIds : List MessageId)
      (env : SessionEnv)
      (hasks : a.Asks conn row.recipientId (.ackReadReceipt ackId receiptIds) env event)
      (hid : id ∈ receiptIds) :
      ReceiptStep a event id (some row) (some { row with acknowledged := true })
  | confirmed (conn : κ) (row : ReceiptRow C) (receiptIds : List MessageId) (env : SessionEnv)
      (hasks : a.Asks conn row.senderId (.ackReadReceiptSent receiptIds) env event)
      (hid : id ∈ receiptIds) (hacknowledged : row.acknowledged = true) :
      ReceiptStep a event id (some row) none
  | dropped (conn : κ) (row : ReceiptRow C) (rest : List (Errand C))
      (hphase : (a.server.sockets conn).phase =
        .greeting ⟨row.recipientId, .removeInvalid id :: rest⟩) :
      ReceiptStep a event id (some row) none

variable (R) in
theorem step_receipt (event : Event κ C) (a : AsyncServer κ C D) (id : MessageId) :
    ReceiptStep a event id (a.server.db.receipt? id)
      ((a.step R event).server.db.receipt? id) := by
  have hstored := step_stored (R := R) event a
  generalize (a.step R event).server.db = db' at hstored ⊢
  cases hstored with
  | kept => exact .kept _
  | requested conn userId message env hasks t respond hhandling hfails =>
    have hserves := handleMessage_serves hhandling
    have hmove := t.receiptMove R.digest a.server.db id
    generalize a.server.db.receipt? id = before,
      (t.after R.digest a.server.db).receipt? id = later at hmove ⊢
    cases hmove with
    | kept => exact .kept _
    | stored recipientId senderId envelope maxQueuePerUser ht =>
      subst ht
      obtain ⟨rfl, rfl⟩ := hserves
      exact .stored conn recipientId senderId envelope env hasks
        (handleReadReceipt_checked hhandling)
    | acknowledged row receiptIds ht hid =>
      subst ht
      obtain ⟨rfl, ackId, rfl⟩ := hserves
      exact .acknowledged conn row ackId receiptIds env hasks hid
    | confirmed row receiptIds ht hid hacknowledged =>
      subst ht
      obtain ⟨rfl, rfl⟩ := hserves
      exact .confirmed conn row receiptIds env hasks hid hacknowledged
    | dropped row ht =>
      subst ht
      exact hserves.elim
  | registered registration createdAt =>
    have hsame := (Transaction.effect R.digest (.registerAtomic registration createdAt)
      a.server.db).receipts_eq rfl
    unfold Db.receipt?
    rw [hsame]
    exact .kept _
  | cleared => exact .kept _
  | dropped conn userId receiptId rest hphase =>
    have hmove := (Transaction.deleteInvalid userId receiptId).receiptMove R.digest a.server.db id
    have hdb : (Transaction.deleteInvalid userId receiptId).after R.digest a.server.db =
      deleteInvalid userId receiptId a.server.db := rfl
    rw [hdb] at hmove
    generalize a.server.db.receipt? id = before,
      (deleteInvalid userId receiptId a.server.db).receipt? id = later at hmove ⊢
    cases hmove with
    | kept => exact .kept _
    | stored _ _ _ _ ht | acknowledged _ _ ht | confirmed _ _ ht => cases ht
    | dropped row ht =>
      cases ht
      exact .dropped conn row rest hphase
  | collected => exact .kept _

end AsyncServer

/-! ## What is owed

`Due id recipientId senderId` stands for a receipt that its recipient has acknowledged. -/

section Owed

variable (Due : MessageId → UserId → UserId → Prop)

/-- A `ReadReceiptSent` to a user is due. -/
def Outbound.Owed (userId : UserId) (message : Outbound C) : Prop :=
  ∀ id, message = .reply (.readReceiptSent id) → ∃ recipientId, Due id recipientId userId

/-- What a handler goes on to confirm is due. -/
structure Call.Owed (call : Call C) : Prop where
  reply : ∀ reply, call.reply = some reply → (Outbound.reply reply).Owed Due call.userId
  pushed : ∀ receipts, call.answer = some (.acknowledged receipts) →
    ∀ receipt ∈ receipts, Due receipt.1 call.userId receipt.2

def Errand.Owed (userId : UserId) : Errand C → Prop
  | .send message => message.Owed Due userId
  | _ => True

/-- Whatever the process has acknowledged or is about to confirm is due, and handlers work for the
user of their connection. -/
structure AsyncServer.Owed (a : AsyncServer κ C D) : Prop where
  rows : ∀ row ∈ a.server.db.readReceiptQueue, row.acknowledged = true →
    Due row.receiptId row.recipientId row.senderId
  calls : ∀ conn call, a.calls conn = some call →
    (a.server.session conn).authedUser = some call.userId ∧ call.Owed Due
  deliveries : ∀ conn delivery, (a.server.sockets conn).phase = .greeting delivery →
    (a.server.session conn).authedUser = some delivery.userId ∧
      ∀ errand ∈ delivery.errands, errand.Owed Due delivery.userId

theorem AsyncServer.Owed.boot {db : Db C D} (h : ∀ row, row ∉ db.readReceiptQueue) :
    (AsyncServer.boot db : AsyncServer κ C D).Owed Due := by
  refine ⟨fun row hrow => absurd hrow (h row), fun conn call hcall => ?_,
    fun conn delivery hdelivery => ?_⟩
  · cases hcall
  · cases hdelivery

end Owed

namespace AsyncServer

variable [DecidableEq κ] [DecidableEq D] {R : Deployment K Sec C D} {a : AsyncServer κ C D}
  {Due : MessageId → UserId → UserId → Prop}

/-- What an event sends. -/
theorem step_confirms (hregistry : a.server.Registry) (h : a.Owed Due) {event : Event κ C}
    (hrunning : event ≠ .restart) :
    Server.Puts (fun conn message => ∀ id, message = .reply (.readReceiptSent id) →
        ∃ userId recipientId, (a.server.session conn).authedUser = some userId ∧
          Due id recipientId userId) a.server (a.step R event).server := by
  have hstepped := step_stepped R event a
  generalize a.step R event = b at hstepped
  cases hstepped with
  | idle | called => exact .of_sent fun _ => rfl
  | served serverEvent hevent hunasked =>
    intro conn
    obtain ⟨new, hnew, hconfirming⟩ := Server.step_puts (R := R) hunasked conn
    refine ⟨new, hnew, fun message hmessage id hid => ?_⟩
    obtain ⟨userId, rest, hphase⟩ := hconfirming message hmessage id hid
    obtain ⟨huser, howed⟩ := h.deliveries conn _ hphase
    obtain ⟨recipientId, hdue⟩ := howed _ List.mem_cons_self id hid
    exact ⟨userId, recipientId, huser, hdue⟩
  | resumed conn call hresume hcall =>
    obtain ⟨huser, howed⟩ := h.calls conn call hcall
    have hpushed := Server.pushes_sends call.userId call.env call.answer a.server call.message
    refine Server.Puts.trans (.mono hpushed.sent fun other message hP id hid => ?_) ?_
    · obtain ⟨receipts, senderId, entry, hanswer, hreceipt, hentry, rfl⟩ := hP.2 id hid
      exact ⟨senderId, call.userId, hregistry senderId entry hentry,
        howed.pushed receipts hanswer _ hreceipt⟩
    · dsimp only
      unfold respond
      cases hreply : call.reply with
      | none => exact .setSocket_sent rfl
      | some reply =>
        refine .trySend rfl fun id hid => ?_
        obtain ⟨recipientId, hdue⟩ := howed.reply reply hreply id hid
        exact ⟨call.userId, recipientId, huser, hdue⟩
  | restarted hrestart => exact absurd hrestart hrunning

variable (R) in
/-- In this event the recipient of a stored receipt acknowledges it. -/
def Acknowledges (id : MessageId) (recipientId senderId : UserId) (event : Event κ C)
    (a : AsyncServer κ C D) : Prop :=
  ∃ conn ackId receiptIds env row,
    a.Asks conn recipientId (.ackReadReceipt ackId receiptIds) env event ∧ id ∈ receiptIds ∧
    a.server.db.receipt? id = some row ∧ row.recipientId = recipientId ∧ row.senderId = senderId ∧
    (a.step R event).server.db.receipt? id = some { row with acknowledged := true }

/-- In this event the sender of a receipt confirms its `ReadReceiptSent`. -/
def Confirms (id : MessageId) (senderId : UserId) (event : Event κ C) (a : AsyncServer κ C D) :
    Prop :=
  ∃ conn receiptIds env,
    a.Asks conn senderId (.ackReadReceiptSent receiptIds) env event ∧ id ∈ receiptIds

namespace Owed

variable {Due' : MessageId → UserId → UserId → Prop} {event : Event κ C}

theorem rows_step (h : a.Owed Due)
    (hmono : ∀ id recipientId senderId, Due id recipientId senderId → Due' id recipientId senderId)
    (hnow : ∀ id recipientId senderId, Acknowledges R id recipientId senderId event a →
      Due' id recipientId senderId) :
    ∀ row ∈ (a.step R event).server.db.readReceiptQueue, row.acknowledged = true →
      Due' row.receiptId row.recipientId row.senderId := by
  intro row hrow hacknowledged
  have hstep := step_receipt R event a row.receiptId
  have hlater := Db.receipt?_eq_some.mpr ⟨hrow, rfl⟩
  rw [hlater] at hstep
  generalize hbefore : a.server.db.receipt? row.receiptId = before at hstep
  generalize hsome : some row = later at hstep
  cases hstep with
  | kept =>
    rw [← hsome] at hbefore
    exact hmono _ _ _ (h.rows row (Db.receipt?_eq_some.mp hbefore).1 hacknowledged)
  | stored =>
    rw [Option.some.inj hsome] at hacknowledged
    cases hacknowledged
  | acknowledged conn old ackId receiptIds env hasks hid =>
    have heq := Option.some.inj hsome
    rw [heq] at hlater hbefore hid ⊢
    exact hnow _ _ _ ⟨conn, ackId, receiptIds, env, old, hasks, hid, hbefore, rfl, rfl, hlater⟩
  | confirmed | dropped => cases hsome

/-- What the call of this event will confirm: receipts that were acknowledged before, and those
that it has acknowledged. -/
theorem call (h : a.Owed Due)
    (hmono : ∀ id recipientId senderId, Due id recipientId senderId → Due' id recipientId senderId)
    (hnow : ∀ id recipientId senderId, Acknowledges R id recipientId senderId event a →
      Due' id recipientId senderId) {conn : κ} {userId : UserId} {message : ClientMessage C}
    {env : SessionEnv} (hasks : a.Asks conn userId message env event) {call : Call C}
    (hcall : (a.call R conn userId message env).calls conn = some call) : call.Owed Due' := by
  have hstep := step_of_asks (R := R) hasks
  unfold AsyncServer.call at hcall
  dsimp only at hcall
  rw [Function.update_self] at hcall
  cases hcall
  refine ⟨fun reply hreply id hid => ?_, fun receipts hreceipts receipt hreceipt => ?_⟩
  · cases hid
    obtain ⟨row, hrow, rfl, hacknowledged⟩ := handleMessage_readReceiptSent hreply
    obtain ⟨hmem, rfl⟩ := Db.receipt?_eq_some.mp hrow
    exact ⟨row.recipientId, hmono _ _ _ (h.rows row hmem hacknowledged)⟩
  · obtain ⟨ackId, receiptIds, row, rfl, hid, hrow, hrecipient, hsender, hlater⟩ :=
      handleMessage_acknowledged hreceipts hreceipt
    refine hnow _ _ _ ⟨conn, ackId, receiptIds, env, row, hasks, hid, hrow, hrecipient, hsender, ?_⟩
    rw [hstep]
    exact hlater

theorem step (h : a.Owed Due)
    (hmono : ∀ id recipientId senderId, Due id recipientId senderId → Due' id recipientId senderId)
    (hnow : ∀ id recipientId senderId, Acknowledges R id recipientId senderId event a →
      Due' id recipientId senderId) : (a.step R event).Owed Due' := by
  have hmessage : ∀ {userId : UserId} {message : Outbound C}, message.Owed Due userId →
      message.Owed Due' userId := by
    intro userId message howed id hid
    obtain ⟨recipientId, hdue⟩ := howed id hid
    exact ⟨recipientId, hmono _ _ _ hdue⟩
  refine ⟨h.rows_step hmono hnow, fun conn call hcall => ?_, fun conn delivery hdelivery => ?_⟩
  · obtain ⟨hevent, hold | ⟨userId, message, env, hasks, hnew, hsame⟩⟩ := calls_step hcall
    · obtain ⟨huser, howed⟩ := h.calls conn call hold
      refine ⟨authed_step hevent huser, ?_, ?_⟩
      · exact fun reply hreply => hmessage (howed.reply reply hreply)
      · exact fun receipts hreceipts receipt hreceipt =>
          hmono _ _ _ (howed.pushed receipts hreceipts receipt hreceipt)
    · refine ⟨authed_step hevent (hasks.2.2.1.trans (congrArg some hsame.symm)), ?_⟩
      exact h.call hmono hnow hasks hnew
  · obtain ⟨hevent, hfollows⟩ := step_follows hdelivery
    refine ⟨?_, fun errand herrand => ?_⟩
    · rcases hfollows.user with ⟨old, hold⟩ | huser
      · exact authed_step hevent (h.deliveries conn _ hold).1
      · exact huser
    cases errand with
    | send message =>
      rcases hfollows.errands _ herrand with ⟨old, hold, hmem⟩ | hloaded
      · exact hmessage ((h.deliveries conn _ hold).2 _ hmem)
      · intro id hid
        obtain ⟨row, hrow, rfl, hsender, hacknowledged⟩ := hloaded id hid
        exact ⟨row.recipientId, hsender ▸ hmono _ _ _ (h.rows row hrow hacknowledged)⟩
    | _ => trivial

end Owed

/-! ## Deliverable receipts -/

/-- Every receipt can be sent, and no delivery has found one that it has to delete. -/
structure Deliverable (W : Wire C) (a : AsyncServer κ C D) : Prop where
  rows : ∀ row ∈ a.server.db.readReceiptQueue, ∃ message,
    queuedReceiptAction W row = .deliver message
  errands : ∀ conn delivery, (a.server.sockets conn).phase = .greeting delivery →
    ∀ id, Errand.removeInvalid id ∉ delivery.errands

namespace Deliverable

omit [DecidableEq κ] [DecidableEq D] in
theorem boot {W : Wire C} {db : Db C D} (h : ∀ row, row ∉ db.readReceiptQueue) :
    (AsyncServer.boot db : AsyncServer κ C D).Deliverable W := by
  refine ⟨fun row hrow => absurd hrow (h row), fun conn delivery hdelivery => ?_⟩
  cases hdelivery

theorem step (hwire : R.wire.Lawful) (h : a.Deliverable R.wire) (event : Event κ C) :
    (a.step R event).Deliverable R.wire := by
  refine ⟨fun row hrow => ?_, fun conn delivery hdelivery id hid => ?_⟩
  · have hstep := step_receipt R event a row.receiptId
    rw [Db.receipt?_eq_some.mpr ⟨hrow, rfl⟩] at hstep
    generalize hbefore : a.server.db.receipt? row.receiptId = before at hstep
    generalize hsome : some row = later at hstep
    cases hstep with
    | kept =>
      rw [← hsome] at hbefore
      exact h.rows row (Db.receipt?_eq_some.mp hbefore).1
    | stored conn recipientId senderId envelope env hasks hvalid =>
      rw [Option.some.inj hsome]
      exact ⟨_, queuedReceiptAction_of_valid hwire hvalid⟩
    | acknowledged conn old =>
      -- the flag is not looked at
      rw [Option.some.inj hsome]
      exact h.rows old (Db.receipt?_eq_some.mp hbefore).1
    | confirmed => cases hsome
      | dropped => cases hsome
  · rcases (step_follows hdelivery).2.errands _ hid with ⟨old, hold, hmem⟩ | hloaded
    · exact h.errands conn _ hold id hmem
    · obtain ⟨row, hrow, -, hinvalid⟩ := hloaded
      obtain ⟨message, hdeliver⟩ := h.rows row hrow
      cases hinvalid.symm.trans hdeliver

/-- A receipt stays, is acknowledged, or is removed as its sender confirms it. -/
theorem row_step (h : a.Deliverable R.wire) (event : Event κ C)
    (hrow : row ∈ a.server.db.readReceiptQueue) :
    row ∈ (a.step R event).server.db.readReceiptQueue ∨
    { row with acknowledged := true } ∈ (a.step R event).server.db.readReceiptQueue ∨
    (∀ other ∈ (a.step R event).server.db.readReceiptQueue, other.receiptId ≠ row.receiptId) ∧
      row.acknowledged = true ∧ a.Confirms row.receiptId row.senderId event := by
  have hstep := step_receipt R event a row.receiptId
  rw [Db.receipt?_eq_some.mpr ⟨hrow, rfl⟩] at hstep
  generalize hlater : (a.step R event).server.db.receipt? row.receiptId = later at hstep
  generalize hsome : some row = before at hstep
  cases hstep with
  | kept =>
    rw [← hsome] at hlater
    exact .inl (Db.receipt?_eq_some.mp hlater).1
  | stored => cases hsome
  | acknowledged conn old =>
    cases hsome
    exact .inr (.inl (Db.receipt?_eq_some.mp hlater).1)
  | confirmed conn old receiptIds env hasks hid hacknowledged =>
    cases hsome
    exact .inr (.inr ⟨Table.find?_eq_none.mp hlater, hacknowledged, conn, receiptIds, env, hasks,
      hid⟩)
  | dropped conn old rest hdelivery =>
    exact absurd List.mem_cons_self (h.errands conn _ hdelivery row.receiptId)

end Deliverable

/-! ## Whole runs -/

section Runs

variable (R) (events : Nat → Event κ C) (a : AsyncServer κ C D)

/-- Before the event `n` the recipient has acknowledged the receipt. -/
def Acknowledged (n : Nat) (id : MessageId) (recipientId senderId : UserId) : Prop :=
  ∃ m < n, (a.after R events m).Acknowledges R id recipientId senderId (events m)

variable {R events a}

/-- What holds all through a run that starts without receipts. -/
structure Kept (R : Deployment K Sec C D) (events : Nat → Event κ C) (a : AsyncServer κ C D)
    (n : Nat) : Prop where
  registry : (a.after R events n).server.Registry
  deliverable : (a.after R events n).Deliverable R.wire
  owed : (a.after R events n).Owed (Acknowledged R events a n)

theorem kept (hwire : R.wire.Lawful) {db : Db C D} (hdb : db.readReceiptQueue = .empty)
    (events : Nat → Event κ C) (n : Nat) : Kept R events (boot db) n := by
  induction n with
  | zero =>
    have hnone : ∀ row : ReceiptRow C, row ∉ db.readReceiptQueue := by
      intro row
      rw [hdb]
      exact Table.notMem_empty row
    exact ⟨.boot db, .boot hnone, .boot _ hnone⟩
  | succ n ih =>
    refine ⟨registry_step ih.registry (events n), ih.deliverable.step hwire (events n), ?_⟩
    refine ih.owed.step ?_ ?_
    · rintro id recipientId senderId ⟨m, hm, hacknowledges⟩
      exact ⟨m, Nat.lt_succ_of_lt hm, hacknowledges⟩
    · intro id recipientId senderId hacknowledges
      exact ⟨n, Nat.lt_succ_self n, hacknowledges⟩

/-- A process that starts again has put nothing on its new channels. -/
theorem puts_of_restart {n : Nat} (h : events n = .restart) (conn : κ) :
    puts R events a n conn = [] := by
  unfold puts
  rw [after_succ, h]
  exact List.drop_nil

/-- `ReadReceiptSent` goes to the sender of a receipt that its recipient has acknowledged. -/
theorem Kept.confirmed {n : Nat} (h : Kept R events a n) {conn : κ} {id : MessageId}
    (hput : .reply (.readReceiptSent id) ∈ puts R events a n conn) :
    ∃ userId recipientId,
      ((a.after R events n).server.session conn).authedUser = some userId ∧
      Acknowledged R events a n id recipientId userId := by
  by_cases hrestart : events n = .restart
  · rw [puts_of_restart hrestart] at hput
    cases hput
  · exact mem_puts (step_confirms h.registry h.owed hrestart) hput id rfl

end Runs

end AsyncServer

/-! ## A receipt of Alice

There are countably many envelopes, so they can be numbered and written as strokes. -/

instance countableUInt8 : Countable UInt8 :=
  Function.Injective.countable (f := UInt8.toNat) fun _ _ => UInt8.toNat_inj.mp

instance countableUInt32 : Countable UInt32 :=
  Function.Injective.countable (f := UInt32.toNat) fun _ _ => UInt32.toNat_inj.mp

instance : Countable Key32 := inferInstanceAs (Countable { _l : List UInt8 // _ })

instance {α : Type} [Countable α] : Countable (B64Text α) := by
  refine Function.Injective.countable (f := fun text => (text.decoded, text.length)) ?_
  rintro ⟨_, _⟩ ⟨_, _⟩ h
  simpa using h

deriving instance Countable for ProtoRatchetHeader
deriving instance Countable for MessageHeader
deriving instance Countable for Term
deriving instance Countable for Ciphertext

instance : Countable (EncryptedEnvelope Ciphertext) := by
  refine Function.Injective.countable
    (f := fun envelope => (envelope.version, envelope.header, envelope.ciphertext)) ?_
  rintro ⟨_, _⟩ ⟨_, _⟩ h
  simpa using h

end Cmp.Relay
