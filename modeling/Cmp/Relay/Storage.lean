import Cmp.Relay.Steps

/-! What an event of the process does to the database. A request makes one transaction, a
registration another; the deliveries after a login delete rows that they could not send, one
in a step, and a timer deletes the messages that are too old. -/

namespace Cmp.Relay

open Cmp.Crypto Cmp.Protocol Cmp.Lib

variable {K Sec C D κ : Type}

/-! ## Rows of the queue -/

theorem Db.lt_nextRowId {db : Db C D} {row : QueueRow C} (h : row ∈ db.messageQueue) :
    row.rowId < db.nextRowId :=
  Nat.lt_succ_of_le (List.le_max?_getD_of_mem (List.mem_map_of_mem h))

section Effects

variable [DecidableEq D] {digest : EncryptedEnvelope C → D} {db db' : Db C D} {t : Transaction C}
  {answer : Option Answer} {row : QueueRow C}

/-- A new row has a new `rowid`, and the ledger did not hold its message. -/
theorem Effect.queue_new (h : Effect digest db t answer db') (hrow : row ∈ db'.messageQueue) :
    row ∈ db.messageQueue ∨ row.rowId = db.nextRowId ∧
      ∀ accepted ∈ db.messageAcceptances, accepted.messageId ≠ row.messageId := by
  have hframe := h.queue_eq
  cases h with
  | failed => exact .inl hrow
  | enqueued request createdAt result db' h =>
    cases h with
    | refused | known => exact .inl hrow
    | inserted queue acceptances _ _ hqueue haccepted =>
      rcases (Table.mem_insert hqueue).mp hrow with hrow | rfl
      · exact .inl hrow
      · exact .inr ⟨rfl, Table.ne_of_insert haccepted⟩
    | ignored => exact .inl hrow
  | confirmed => exact .inl hrow
  | acked | dropped | collected => exact .inl (Table.mem_of_mem_deleteWhere hrow)
  | _ => exact .inl ((hframe rfl).1 ▸ hrow)

/-- A row leaves the queue when its recipient acknowledges it, as an invalid one, or for its
age. -/
theorem Effect.queue_kept (h : Effect digest db t answer db') (hrow : row ∈ db.messageQueue) :
    row ∈ db'.messageQueue ∨
      (∃ messageIds, t = .deleteMessages row.recipientId messageIds ∧ row.messageId ∈ messageIds) ∨
      t = .deleteInvalidRow row.recipientId row.rowId ∨ ∃ maxAgeDays now,
        t = .gcOldMessages maxAgeDays now ∧ isExpired maxAgeDays now row = true := by
  have hframe := h.queue_eq
  cases h with
  | failed => exact .inl hrow
  | enqueued request createdAt result db' h =>
    cases h with
    | refused | known => exact .inl hrow
    | inserted queue acceptances _ _ hqueue _ =>
      exact .inl ((Table.mem_insert hqueue).mpr (.inl hrow))
    | ignored => exact .inl hrow
  | confirmed => exact .inl hrow
  | acked recipientId messageIds =>
    cases hacks : acksMessage recipientId messageIds row with
    | false => exact .inl (Table.mem_deleteWhere.mpr ⟨hrow, hacks⟩)
    | true =>
      obtain ⟨hid, rfl⟩ := of_decide_eq_true hacks
      exact .inr (.inl ⟨messageIds, rfl, hid⟩)
  | dropped recipientId rowId =>
    by_cases hnamed : row.rowId = rowId ∧ row.recipientId = recipientId
    · obtain ⟨rfl, rfl⟩ := hnamed
      exact .inr (.inr (.inl rfl))
    · exact .inl (Table.mem_deleteWhere.mpr ⟨hrow, decide_eq_false hnamed⟩)
  | collected maxAgeDays now =>
    cases hexpired : isExpired maxAgeDays now row with
    | false => exact .inl (Table.mem_deleteWhere.mpr ⟨hrow, hexpired⟩)
    | true => exact .inr (.inr (.inr ⟨maxAgeDays, now, rfl, hexpired⟩))
  | _ => exact .inl ((hframe rfl).1 ▸ hrow)

end Effects

/-! ## Events -/

namespace Server

variable {s : Server κ C D} [DecidableEq D] (R : Deployment K Sec C D)

/-- The ways an event can end for the database: `asks` are the requests that it may bring there,
and `collects` the times at which it may collect old messages. -/
inductive Stored (s : Server κ C D) (asks : κ → UserId → ClientMessage C → SessionEnv → Prop)
    (collects : Nat → Prop) : Db C D → Prop
  | kept : Stored s asks collects s.db
  | requested (conn : κ) (userId : UserId) (message : ClientMessage C) (env : SessionEnv)
      (hasks : asks conn userId message env) (t : Transaction C)
      (respond : Option Answer → Option (ServerMessage C))
      (hhandling : Relay.handleMessage R.suite (pageLen R.wire) userId env.toRelayEnv s.db message =
        .transact t respond) (hfails : env.fails = false) :
      Stored s asks collects (t.after R.digest s.db)
  | registered (registration : Registration) (createdAt : UInt32 → Nat) :
      Stored s asks collects
        ((Transaction.registerAtomic registration createdAt).after R.digest s.db)
  | cleared (conn : κ) (userId : UserId) (rowId : Nat) (rest : List (Errand C))
      (hphase : (s.sockets conn).phase = .greeting ⟨userId, .removeRow rowId :: rest⟩) :
      Stored s asks collects (deleteInvalidRow userId rowId s.db)
  | dropped (conn : κ) (userId : UserId) (receiptId : MessageId) (rest : List (Errand C))
      (hphase : (s.sockets conn).phase = .greeting ⟨userId, .removeInvalid receiptId :: rest⟩) :
      Stored s asks collects (deleteInvalid userId receiptId s.db)
  | collected (now : Nat) (hcollects : collects now) :
      Stored s asks collects (gcOldMessages GC_MAX_AGE_DAYS now s.db)

variable {R}

theorem Stored.mono {asks asks' : κ → UserId → ClientMessage C → SessionEnv → Prop}
    {collects collects' : Nat → Prop} {db' : Db C D} (h : Stored R s asks collects db')
    (hasks : ∀ conn userId message env, asks conn userId message env →
      asks' conn userId message env)
    (hcollects : ∀ now, collects now → collects' now) : Stored R s asks' collects' db' := by
  cases h with
  | kept => exact .kept
  | requested conn userId message env h t respond hhandling hfails =>
    exact .requested conn userId message env (hasks _ _ _ _ h) t respond hhandling hfails
  | registered registration createdAt => exact .registered registration createdAt
  | cleared conn userId rowId rest hphase => exact .cleared conn userId rowId rest hphase
  | dropped conn userId receiptId rest hphase => exact .dropped conn userId receiptId rest hphase
  | collected now h => exact .collected now (hcollects now h)

section Rows

variable {asks : κ → UserId → ClientMessage C → SessionEnv → Prop} {collects : Nat → Prop}
  {db' : Db C D} {row : QueueRow C}

theorem Stored.queue_new (h : Stored R s asks collects db') (hrow : row ∈ db'.messageQueue) :
    row ∈ s.db.messageQueue ∨ row.rowId = s.db.nextRowId ∧
      ∀ accepted ∈ s.db.messageAcceptances, accepted.messageId ≠ row.messageId := by
  cases h with
  | kept => exact .inl hrow
  | requested | registered => exact (Transaction.effect R.digest _ s.db).queue_new hrow
  | cleared => exact .inl (Table.mem_of_mem_deleteWhere hrow)
  | dropped => exact .inl hrow
  | collected => exact .inl (Table.mem_of_mem_deleteWhere hrow)

/-- A row leaves the queue by a request of its recipient, by a delivery to the recipient, or for
its age. -/
theorem Stored.queue_kept (h : Stored R s asks collects db') (hrow : row ∈ s.db.messageQueue) :
    row ∈ db'.messageQueue ∨
      (∃ conn ackId messageIds env, asks conn row.recipientId (.ack ackId messageIds) env ∧
        row.messageId ∈ messageIds) ∨
      (∃ conn rest, (s.sockets conn).phase =
        .greeting ⟨row.recipientId, .removeRow row.rowId :: rest⟩) ∨
      ∃ now, collects now ∧ isExpired GC_MAX_AGE_DAYS now row = true := by
  cases h with
  | kept => exact .inl hrow
  | requested conn userId message env hasks t respond hhandling hfails =>
    have hserves := handleMessage_serves hhandling
    rcases (t.effect R.digest s.db).queue_kept hrow with
      hkept | ⟨messageIds, rfl, hid⟩ | rfl | ⟨maxAgeDays, now, rfl, -⟩
    · exact .inl hkept
    · obtain ⟨rfl, ackId, rfl⟩ := hserves
      exact .inr (.inl ⟨conn, ackId, messageIds, env, hasks, hid⟩)
    · exact hserves.elim
    · exact hserves.elim
  | registered registration createdAt =>
    exact .inl (((Transaction.registerAtomic registration createdAt).effect R.digest
      s.db).queue_eq rfl |>.1 ▸ hrow)
  | cleared conn userId rowId rest hphase =>
    rcases ((Transaction.deleteInvalidRow userId rowId).effect R.digest s.db).queue_kept hrow with
      hkept | ⟨messageIds, h, -⟩ | h | ⟨maxAgeDays, now, h, -⟩
    · exact .inl hkept
    · cases h
    · cases h
      exact .inr (.inr (.inl ⟨conn, rest, hphase⟩))
    · cases h
  | dropped => exact .inl hrow
  | collected now hcollects =>
    cases hexpired : isExpired GC_MAX_AGE_DAYS now row with
    | false => exact .inl (Table.mem_deleteWhere.mpr ⟨hrow, hexpired⟩)
    | true => exact .inr (.inr (.inr ⟨now, hcollects, hexpired⟩))

end Rows

/-- In this event a request of `userId` is handled on `conn`. -/
def Asks (event : Event κ C) (s : Server κ C D) (conn : κ) (userId : UserId)
    (message : ClientMessage C) (env : SessionEnv) : Prop :=
  s.Handles conn (.request message) env event ∧ (s.session conn).authedUser = some userId

variable [DecidableEq κ]

theorem handleRegister_stored {asks : κ → UserId → ClientMessage C → SessionEnv → Prop}
    {collects : Nat → Prop} (conn : κ) (userId : UserId) (bundle : PreKeyBundle)
    (oneTimePrekeys : List PublicOneTimePreKey) (env : SessionEnv) :
    Stored R s asks collects (s.handleRegister R conn userId bundle oneTimePrekeys env).2.db := by
  unfold handleRegister
  split
  · exact .kept
  have hdb : Stored R s asks collects ((Relay.handleRegister R.suite userId bundle oneTimePrekeys
      env.toRelayEnv).run R.digest env.fails s.db).2 := by
    rcases handleRegister_cases R.suite userId bundle oneTimePrekeys env.toRelayEnv with
      ⟨reply, hhandling, -⟩ | ⟨registration, rfl, -, -, -, -, -, -, hhandling⟩
    · rw [hhandling]
      exact .kept
    · rw [hhandling]
      unfold Handling.run
      dsimp only
      split
      · exact .kept
      · exact .registered registration _
  dsimp only
  split
  · exact hdb
  · exact hdb

theorem handleMessage_stored {event : Event κ C} {collects : Nat → Prop} {conn : κ}
    {message : SessionMessage C} {env : SessionEnv} (h : s.Handles conn message env event) :
    Stored R s (s.Asks event) collects (s.handleMessage R conn message env).2.db := by
  cases message with
  | register userId bundle oneTimePrekeys =>
    exact handleRegister_stored conn userId bundle oneTimePrekeys env
  | authChallenge userId =>
    simp only [handleMessage, handleAuthChallenge]
    repeat' split
    all_goals exact .kept
  | authResponse signature =>
    simp only [handleMessage, handleAuthResponse]
    repeat' split
    all_goals exact .kept
  | typing recipientId =>
    simp only [handleMessage]
    split
    · exact .kept
    · rw [(sendTo_sends (P := fun _ _ => True) fun _ _ => trivial).db]
      exact .kept
  | request message =>
    simp only [handleMessage]
    split
    · exact .kept
    · next userId huser =>
      simp only [handleRequest]
      rw [(pushes_sends _ _ _ _ _).db]
      cases hhandling : Relay.handleMessage R.suite (pageLen R.wire) userId env.toRelayEnv s.db
          message with
      | reply => exact .kept
      | transact t respond =>
        unfold Handling.run
        cases hfails : env.fails with
        | true => exact .kept
        | false => exact .requested conn userId message env ⟨h, huser⟩ t respond hhandling hfails

theorem step_stored (event : Event κ C) (s : Server κ C D) :
    Stored R s (s.Asks event) (fun now => event = .collect now) (s.step R event).db := by
  cases event with
  | poll conn next =>
    unfold step poll
    dsimp only
    repeat' split
    all_goals exact .kept
  | turn conn env =>
    unfold step turn
    dsimp only
    split
    · next frame hphase =>
      split
      · exact .kept
      next hcancelled =>
      split
      · exact .kept
      · exact .kept
      · exact .kept
      · exact handleMessage_stored ⟨rfl, hphase, eq_false_of_ne_true hcancelled⟩
    · exact .kept
  | greet conn env =>
    have hgreeted := greet_greeted R conn env s
    generalize hgreet : s.greet R conn env = s' at hgreeted
    rw [show s.step R (.greet conn env) = s' from hgreet]
    cases hgreeted with
    | resting | finished => exact .kept
    | sent userId errand rest errands s' hphase hsends =>
      have hdb : (s'.setPhase conn (.greeting ⟨userId, errands⟩)).db = s.db := hsends.db
      rw [hdb]
      exact .kept
    | removed userId errand rest db hphase hdb =>
      rcases hdb with rfl | ⟨rowId, rfl, rfl⟩ | ⟨receiptId, rfl, rfl⟩
      · exact .kept
      · exact .cleared conn userId rowId rest hphase
      · exact .dropped conn userId receiptId rest hphase
    | loaded => exact .kept
  | notify conn =>
    unfold step notifyDisplaced
    dsimp only
    split <;> exact .kept
  | cleanUp conn =>
    obtain ⟨online, honline⟩ := s.unregister_eq conn
    unfold step cleanUp
    dsimp only
    split
    · rw [honline]
      exact .kept
    · exact .kept
  | write conn | hangUp conn => exact .kept
  | collect now => exact .collected now rfl

end Server

end Cmp.Relay
