import Cmp.Relay.Sending

/-! The deliveries after a login, one await at a time. An errand sends, deletes or reads, and
what is read decides which errands come in its place: a row that cannot be sent is deleted in
a later step than the one that has read it. -/

namespace Cmp.Relay

open Cmp.Crypto Cmp.Protocol Cmp.Lib

variable {K Sec C D κ : Type}

/-- A page of queued messages, or the word to their sender. -/
def Outbound.isPage : Outbound C → Bool
  | .queuedMessages _ => true
  | .messageDelivered _ => true
  | _ => false

/-! ## What is read -/

theorem mem_pendingReceipts {userId : UserId} {db : Db C D} {row : ReceiptRow C}
    (h : row ∈ pendingReceipts userId db) : row ∈ db.readReceiptQueue :=
  List.mem_of_mem_filter (List.mem_of_mem_take h)

theorem mem_deliverReceiptConfirmations {userId : UserId} {db : Db C D} {message : Outbound C}
    (h : message ∈ deliverReceiptConfirmations userId db) :
    ∃ row ∈ db.readReceiptQueue, message = .reply (.readReceiptSent row.receiptId) ∧
      row.senderId = userId ∧ row.acknowledged = true := by
  obtain ⟨id, hid, rfl⟩ := List.mem_map.mp h
  obtain ⟨row, hrow, rfl⟩ := List.mem_map.mp hid
  obtain ⟨hmem, hparts⟩ := List.mem_filter.mp (List.mem_of_mem_take hrow)
  rw [Bool.and_eq_true, decide_eq_true_eq] at hparts
  exact ⟨row, hmem, rfl, hparts⟩

theorem getNextPending_eq_some {userId : UserId} {cursor : Nat} {db : Db C D} {row : QueueRow C}
    (h : getNextPending userId cursor db = some row) :
    row ∈ db.messageQueue ∧ row.recipientId = userId := by
  obtain ⟨hmem, hrow⟩ := List.mem_filter.mp (List.argmin_mem h)
  exact ⟨hmem, (of_decide_eq_true hrow).1⟩

/-- A receipt goes out as itself. -/
theorem queuedReceiptAction_deliver {W : Wire C} {row : ReceiptRow C} {message : Outbound C}
    (h : queuedReceiptAction W row = .deliver message) :
    ∃ senderId receiptId envelope, message = .incomingReadReceipt senderId receiptId envelope := by
  unfold queuedReceiptAction at h
  split at h
  · split at h <;> cases h
    exact ⟨_, _, _, rfl⟩
  · cases h

/-- A deletion is of a row that the database holds and that cannot be sent; a `ReadReceiptSent`
is for a receipt of the user that is acknowledged. -/
def Errand.Loaded (W : Wire C) (userId : UserId) (db : Db C D) : Errand C → Prop
  | .removeRow rowId => ∃ row ∈ db.messageQueue, row.rowId = rowId ∧ row.recipientId = userId ∧
      rowFate W (row.queued W) = .remove
  | .removeInvalid receiptId => ∃ row ∈ db.readReceiptQueue, row.receiptId = receiptId ∧
      queuedReceiptAction W row = .deleteInvalid
  | .send message => ∀ id, message = .reply (.readReceiptSent id) →
      ∃ row ∈ db.readReceiptQueue, row.receiptId = id ∧ row.senderId = userId ∧
        row.acknowledged = true
  | _ => True

section Loaded

variable {W : Wire C} {userId : UserId} {db : Db C D} {errand : Errand C}

theorem Delivery.start_loaded {status : Bool} (h : errand ∈ (start W userId status).errands) :
    errand.Loaded W userId db := by
  unfold start at h
  dsimp only at h
  simp only [List.mem_append, List.mem_cons, List.not_mem_nil, or_false] at h
  rcases h with (rfl | rfl | rfl) | h
  · trivial
  · trivial
  · trivial
  · split at h
    · rw [List.mem_singleton.mp h]
      trivial
    · cases h

theorem lastPage_loaded {pass : Pass C} (h : errand ∈ lastPage pass) :
    errand.Loaded W userId db := by
  unfold lastPage at h
  split at h
  · cases h
  · rw [List.mem_singleton.mp h]
    trivial

/-- A row that a turn of the loop deletes later is one that it has fetched. -/
theorem fetchNext_loaded {succeeds : Bool} {visits cursor : Nat} {pass : Pass C}
    (h : errand ∈ fetchNext W userId succeeds db visits cursor pass) :
    errand.Loaded W userId db := by
  unfold fetchNext at h
  split at h
  · exact lastPage_loaded h
  split at h
  · split at h
    · exact lastPage_loaded h
    next row hfetched =>
    split at h
    · cases h
    · next hfate =>
      obtain ⟨hmem, huser⟩ := getNextPending_eq_some hfetched
      rcases List.mem_cons.mp h with rfl | h
      · exact ⟨row, hmem, rfl, huser, hfate⟩
      · rw [List.mem_singleton.mp h]
        trivial
    · split at h
      · rcases List.mem_cons.mp h with rfl | h
        · trivial
        · rw [List.mem_singleton.mp h]
          trivial
      · rw [List.mem_singleton.mp h]
        trivial
  · cases h

theorem errandsFor_loaded {row : ReceiptRow C} (hrow : row ∈ db.readReceiptQueue)
    (h : errand ∈ errandsFor W row) : errand.Loaded W userId db := by
  unfold errandsFor at h
  split at h
  · next hdeliver =>
    obtain ⟨_, _, _, rfl⟩ := queuedReceiptAction_deliver hdeliver
    rw [List.mem_singleton.mp h]
    exact fun id hid => (by cases hid)
  · cases h
  · next hinvalid =>
    rw [List.mem_singleton.mp h]
    exact ⟨row, hrow, rfl, hinvalid⟩

/-- What comes in place of an errand is backed by the database that it has read. -/
theorem Errand.loads_loaded {env : GreetEnv} {first : Errand C}
    (h : errand ∈ first.loads W userId env db) : errand.Loaded W userId db := by
  have hmap : ∀ {messages : List (Outbound C)},
      errand ∈ (if env.succeeds then messages else []).map .send →
      ∃ message ∈ messages, errand = .send message := by
    intro messages h
    obtain ⟨message, hmessage, rfl⟩ := List.mem_map.mp h
    split at hmessage
    · exact ⟨message, hmessage, rfl⟩
    · cases hmessage
  cases first with
  | fetch visits cursor pass => exact fetchNext_loaded h
  | loadReceipts =>
    rcases List.mem_append.mp h with h | h
    · obtain ⟨row, hrow, h⟩ := List.mem_flatMap.mp h
      split at hrow
      · exact errandsFor_loaded (mem_pendingReceipts hrow) h
      · cases hrow
    · rw [List.mem_singleton.mp h]
      trivial
  | loadConfirmations =>
    obtain ⟨message, hmessage, rfl⟩ := hmap h
    obtain ⟨row, hrow, rfl, hsender, hacknowledged⟩ := mem_deliverReceiptConfirmations hmessage
    rintro id ⟨⟩
    exact ⟨row, hrow, rfl, hsender, hacknowledged⟩
  | loadAcceptances | loadStatus =>
    obtain ⟨message, hmessage, rfl⟩ := hmap h
    obtain ⟨_, -, rfl⟩ := List.mem_map.mp hmessage
    exact fun id hid => (by cases hid)
  | _ => cases h

end Loaded

/-! ## What an errand does -/

namespace Server

variable [DecidableEq κ]

theorem send_sends (conn : κ) (message : Outbound C) (s : Server κ C D) :
    Sends (fun other sent => other = conn ∧ sent = message) s (s.send conn message) := by
  obtain ⟨new, hnew, hmem⟩ := Channel.send_sent message (s.sockets conn).channel
  exact .setChannel hnew fun sent hsent => ⟨rfl, hmem sent hsent⟩

theorem sendQueuedPage_sends (conn : κ) (messages : List (TimedInbound C)) (s : Server κ C D) :
    Sends (fun _ message => message.isPage = true) s (s.sendQueuedPage conn messages) := by
  have hpage : Sends (fun _ message => message.isPage = true) s
      (s.send conn (.queuedMessages messages)) :=
    (send_sends conn (.queuedMessages messages) s).mono fun _ message hmessage => by
      rw [hmessage.2]
      rfl
  exact hpage.trans (foldl_sends (fun _ _ => sendTo_sends fun _ _ => rfl) _ _)

/-- The ways an await of the deliveries can end. -/
inductive Greeted (W : Wire C) (s : Server κ C D) (conn : κ) : Server κ C D → Prop
  | resting : Greeted W s conn s
  | finished (userId : UserId) (hphase : (s.sockets conn).phase = .greeting ⟨userId, []⟩) :
      Greeted W s conn ((s.setSession conn
        { s.session conn with deliverPrekeyStatus := false }).setPhase conn .reading)
  | sent (userId : UserId) (errand : Errand C) (rest errands : List (Errand C)) (s' : Server κ C D)
      (hphase : (s.sockets conn).phase = .greeting ⟨userId, errand :: rest⟩)
      (hsends : Sends (fun other message => message.isPage = true ∨
        other = conn ∧ errand = .send message) s s')
      (herrands : errands ⊆ rest) :
      Greeted W s conn (s'.setPhase conn (.greeting ⟨userId, errands⟩))
  | removed (userId : UserId) (errand : Errand C) (rest : List (Errand C)) (db : Db C D)
      (hphase : (s.sockets conn).phase = .greeting ⟨userId, errand :: rest⟩)
      (hdb : db = s.db ∨
        (∃ rowId, errand = .removeRow rowId ∧ db = deleteInvalidRow userId rowId s.db) ∨
        ∃ receiptId, errand = .removeInvalid receiptId ∧ db = deleteInvalid userId receiptId s.db) :
      Greeted W s conn ({ s with db := db }.setPhase conn (.greeting ⟨userId, rest⟩))
  | loaded (userId : UserId) (errand : Errand C) (rest errands : List (Errand C))
      (hphase : (s.sockets conn).phase = .greeting ⟨userId, errand :: rest⟩)
      (hloaded : ∀ errand ∈ errands, errand.Loaded W userId s.db) :
      Greeted W s conn (s.setPhase conn (.greeting ⟨userId, errands ++ rest⟩))

theorem greet_greeted (R : Deployment K Sec C D) (conn : κ) (env : GreetEnv) (s : Server κ C D) :
    Greeted R.wire s conn (s.greet R conn env) := by
  have hearly : ∀ rest : List (Errand C), returnEarly rest ⊆ rest := fun rest =>
    (List.dropWhile_sublist _).subset
  unfold greet
  split
  · next userId hphase => exact .finished userId hphase
  · next userId errand rest hphase =>
    dsimp only
    split
    · next page =>
      split
      · exact .sent userId _ rest rest _ hphase ((sendQueuedPage_sends conn page s).mono
          fun _ _ => .inl) (List.Subset.refl rest)
      · exact .sent userId _ rest _ s hphase .refl (hearly rest)
    · next message =>
      split
      · exact .sent userId _ rest rest _ hphase ((send_sends conn message s).mono
          fun _ _ hsent => .inr ⟨hsent.1, hsent.2 ▸ rfl⟩) (List.Subset.refl rest)
      · exact .sent userId _ rest _ s hphase .refl (hearly rest)
    · next rowId =>
      refine .removed userId _ rest _ hphase ?_
      split
      · exact .inr (.inl ⟨rowId, rfl, rfl⟩)
      · exact .inl rfl
    · next receiptId =>
      refine .removed userId _ rest _ hphase ?_
      split
      · exact .inr (.inr ⟨receiptId, rfl, rfl⟩)
      · exact .inl rfl
    · exact .loaded userId errand rest _ hphase fun _ h => Errand.loads_loaded h
  · exact .resting

end Server

end Cmp.Relay
