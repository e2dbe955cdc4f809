import Cmp.Relay.Deliverability

/-! A message that is sent again after it was acknowledged. The relay knows the retry by its
ledger, where a message stays until its sender has confirmed `MessageSent`; the queue row is
gone since the acknowledgement. The retry is answered as a duplicate, and pushed to the
recipient once more if the recipient is online when the handler comes to the push. -/

namespace Cmp.Relay

open Cmp.Crypto Cmp.Protocol Cmp.Lib

variable {K Sec C D κ : Type}

/-- What the writer has taken from the channel. -/
def Channel.written (channel : Channel C) : List (Outbound C) := channel.sent.take channel.taken

/-- A message with this id is pushed. -/
def IsPush (id : MessageId) : Outbound C → Bool
  | .incomingMessage message => decide (message.messageId = id)
  | _ => false

/-! ## Ledger and queue -/

/-- A row leaves the ledger when its sender confirms it. -/
theorem Server.Stored.acceptance_kept [DecidableEq D] {R : Deployment K Sec C D}
    {s : Server κ C D} {asks : κ → UserId → ClientMessage C → SessionEnv → Prop}
    {collects : Nat → Prop} {db' : Db C D} (h : Server.Stored R s asks collects db')
    {row : AcceptanceRow D} (hrow : row ∈ s.db.messageAcceptances) :
    row ∈ db'.messageAcceptances ∨ ∃ conn env messageIds,
      asks conn row.senderId (.ackMessageSent messageIds) env ∧ row.messageId ∈ messageIds := by
  cases h with
  | kept => exact .inl hrow
  | requested conn userId message env hasks t respond hhandling hfails =>
    rcases (t.effect R.digest s.db).acceptance_kept hrow with hkept | ⟨messageIds, rfl, hid⟩
    · exact .inl hkept
    · obtain ⟨rfl, rfl⟩ := handleMessage_serves hhandling
      exact .inr ⟨conn, env, messageIds, hasks, hid⟩
  | registered registration createdAt =>
    have hframe := ((Transaction.registerAtomic registration createdAt).effect R.digest
      s.db).queue_eq rfl
    exact .inl (hframe.2 ▸ hrow)
  | cleared | dropped | collected => exact .inl hrow

section Requests

variable [DecidableEq D] {digest : EncryptedEnvelope C → D} {db : Db C D}
  {sender recipient : UserId} {id : MessageId} {envelope : EncryptedEnvelope C}
  {createdAt now : Nat}

theorem ledger_of_messageSent
    (h : (enqueueReply id ((Transaction.enqueue (sendRequest sender recipient id envelope now)
      createdAt).answer? digest db) : Option (ServerMessage C)) = some (.messageSent id)) :
    ∃ row ∈ ((Transaction.enqueue (sendRequest sender recipient id envelope now) createdAt).after
      digest db).messageAcceptances, row.messageId = id ∧ row.senderId = sender := by
  have heffect := (Transaction.enqueue (sendRequest sender recipient id envelope now)
    createdAt).effect digest db
  generalize Transaction.answer? digest _ db = answer at h heffect
  generalize Transaction.after digest _ db = db' at heffect ⊢
  cases heffect with
  | failed => cases h
  | enqueued _ _ result _ henqueued =>
    have hsent : result.isAccepted = true := by
      cases result <;> first | rfl | cases h
    cases henqueued with
    | refused _ hresult => cases hresult.symm.trans hsent
    | known row hrow hid _ hsender _ => exact ⟨row, hrow, hid, hsender⟩
    | inserted queue acceptances _ _ _ haccepted | ignored acceptances _ _ _ haccepted =>
      exact ⟨_, (Table.mem_insert haccepted).mpr (.inr rfl), rfl, rfl⟩

/-- A message that is in the ledger is not inserted once more. -/
theorem duplicate_of_ledger {row : AcceptanceRow D} (hrow : row ∈ db.messageAcceptances)
    (hid : row.messageId = id) {result : EnqueueResult} (haccepted : result.isAccepted = true)
    (h : (Transaction.enqueue (sendRequest sender recipient id envelope now) createdAt).answer?
      digest db = some (.enqueued result)) : result = .duplicate := by
  have heffect := (Transaction.enqueue (sendRequest sender recipient id envelope now)
    createdAt).effect digest db
  rw [h] at heffect
  generalize Transaction.after digest _ db = db' at heffect
  cases heffect with
  | enqueued _ _ _ _ henqueued =>
    cases henqueued with
    | refused _ hresult => cases hresult.symm.trans haccepted
    | known => rfl
    | inserted queue acceptances _ _ _ hinsert =>
      exact absurd hid (Table.ne_of_insert hinsert row hrow)
    | ignored => rfl

end Requests

namespace AsyncServer

/-! ## Retries -/

section Runs

variable [DecidableEq κ] [DecidableEq D] (R : Deployment K Sec C D) (events : Nat → Event κ C)
  (a : AsyncServer κ C D)

/-- In the event `n` a request of `userId` comes to its database call, and its handler is going
to answer `reply`. -/
def Answered (n : Nat) (userId : UserId) (message : ClientMessage C) (reply : ServerMessage C) :
    Prop :=
  ∃ conn env, (a.after R events n).Asks conn userId message env (events n) ∧
    ((a.after R events (n + 1)).calls conn).bind Call.reply = some reply

/-- The message `id` is accepted in the event `i` and acknowledged in `j`. It is sent again on
`conn` in the event `k`, and in `p` the handler goes on. Until then its sender has not confirmed
`MessageSent`. -/
structure AckedRetry (sender recipient : UserId) (id : MessageId) (envelope : EncryptedEnvelope C)
    (conn : κ) (i j k p : Nat) : Prop where
  accepted_lt : i < j
  acked_lt : j < k
  retried_lt : k < p
  accepted : Answered R events a i sender (.sendMessage recipient id envelope) (.messageSent id)
  acked : ∃ ackId messageIds, id ∈ messageIds ∧
    Answered R events a j recipient (.ack ackId messageIds) (.ackSuccess ackId messageIds)
  retried : ∃ env, (a.after R events k).Asks conn sender (.sendMessage recipient id envelope) env
    (events k)
  waits : ∀ m, k < m → m < p → events m ≠ .resume conn ∧ events m ≠ .restart
  resumed : events p = .resume conn
  unconfirmed : ∀ m caller messageIds env, i < m → m < p →
    (a.after R events m).Asks caller sender (.ackMessageSent messageIds) env (events m) →
    id ∉ messageIds

/-- Whenever a handler goes on for a message that the database has answered with `Duplicate`, and
of which the recipient has no row in the queue, the recipient is not online. -/
def RetriesFindNobody : Prop :=
  ∀ n conn call recipient id envelope, events n = .resume conn →
    (a.after R events n).calls conn = some call →
    call.message = .sendMessage recipient id envelope →
    call.answer = some (.enqueued .duplicate) →
    (∀ row ∈ (a.after R events n).server.db.messageQueue,
      ¬(row.messageId = id ∧ row.recipientId = recipient)) →
    (a.after R events n).server.online recipient = none

end Runs

section Proofs

variable [DecidableEq κ] [DecidableEq D] {R : Deployment K Sec C D} {events : Nat → Event κ C}
  {a : AsyncServer κ C D} {event : Event κ C} {sender recipient : UserId} {id : MessageId}
  {envelope : EncryptedEnvelope C} {conn : κ} {call : Call C} {i j k p : Nat}

/-- A call waits until its handler goes on or the process ends. -/
theorem calls_kept (h : a.calls conn = some call) (hresume : event ≠ .resume conn)
    (hrestart : event ≠ .restart) : (a.step R event).calls conn = some call := by
  have hstepped := step_stepped R event a
  generalize a.step R event = b at hstepped
  cases hstepped with
  | idle => exact h
  | called caller userId message env hasks =>
    have hne : conn ≠ caller := by
      rintro rfl
      cases h.symm.trans hasks.2.2.2
    exact (Function.update_of_ne hne _ _).trans h
  | served => exact h
  | resumed caller done hevent =>
    have hne : conn ≠ caller := by
      rintro rfl
      exact hresume hevent
    exact (Function.update_of_ne hne _ _).trans h
  | restarted hevent => exact absurd hevent hrestart

/-- A message that is answered `MessageSent` is in the ledger. -/
theorem Answered.ledger
    (h : Answered R events a i sender (.sendMessage recipient id envelope) (.messageSent id)) :
    ∃ row ∈ (a.after R events (i + 1)).server.db.messageAcceptances,
      row.messageId = id ∧ row.senderId = sender := by
  obtain ⟨conn, env, hasks, hreply⟩ := h
  rw [after_succ, step_of_asks hasks] at hreply ⊢
  simp only [AsyncServer.call, Function.update_self, Option.bind_some, Relay.handleMessage,
    handleSend] at hreply ⊢
  split at hreply
  · cases hreply
  split at hreply
  · cases hreply
  next hvalid hfits =>
  rw [if_neg hfits]
  unfold Handling.run at hreply ⊢
  dsimp only at hreply ⊢
  split at hreply
  · cases hreply
  next hfails =>
  rw [if_neg hfails]
  exact ledger_of_messageSent hreply

/-- Up to the retry the message stays in the ledger. -/
theorem AckedRetry.ledger (h : AckedRetry R events a sender recipient id envelope conn i j k p)
    {m : Nat} (hlt : i < m) (hle : m ≤ p) :
    ∃ row ∈ (a.after R events m).server.db.messageAcceptances,
      row.messageId = id ∧ row.senderId = sender := by
  induction m, hlt using Nat.le_induction with
  | base => exact h.accepted.ledger
  | succ m hlt ih =>
    obtain ⟨row, hrow, rfl, rfl⟩ := ih (by omega)
    rcases (step_stored (R := R) (events m) (a.after R events m)).acceptance_kept hrow with
      hkept | ⟨caller, env, messageIds, hasks, hid⟩
    · exact ⟨row, hkept, rfl, rfl⟩
    · exact absurd hid (h.unconfirmed m caller messageIds env hlt (by omega) hasks)

/-- An acknowledgement takes the row out of the queue. -/
theorem Answered.dequeued {ackId : MessageId} {messageIds : List MessageId}
    (h : Answered R events a j recipient (.ack ackId messageIds) (.ackSuccess ackId messageIds)) :
    ∀ row ∈ (a.after R events (j + 1)).server.db.messageQueue,
      ¬(row.messageId ∈ messageIds ∧ row.recipientId = recipient) := by
  obtain ⟨conn, env, hasks, hreply⟩ := h
  rw [after_succ, step_of_asks hasks] at hreply ⊢
  simp only [AsyncServer.call, Function.update_self, Option.bind_some, Relay.handleMessage,
    handleAck] at hreply ⊢
  split at hreply
  · cases hreply
  next hbatch =>
  rw [if_neg hbatch]
  unfold Handling.run at hreply ⊢
  dsimp only at hreply ⊢
  split at hreply
  · cases hreply
  next hfails =>
  rw [if_neg hfails]
  intro row hrow
  exact of_decide_eq_false (Table.mem_deleteWhere.mp hrow).2

/-- From the acknowledgement to the retry the recipient has no row of the message. -/
theorem AckedRetry.dequeued (h : AckedRetry R events a sender recipient id envelope conn i j k p)
    {m : Nat} (hlt : j < m) (hle : m ≤ p) :
    ∀ row ∈ (a.after R events m).server.db.messageQueue,
      ¬(row.messageId = id ∧ row.recipientId = recipient) := by
  induction m, hlt using Nat.le_induction with
  | base =>
    obtain ⟨ackId, messageIds, hid, hacked⟩ := h.acked
    intro row hrow ⟨hrowId, hrecipient⟩
    exact hacked.dequeued row hrow ⟨hrowId ▸ hid, hrecipient⟩
  | succ m hlt ih =>
    intro row hrow hsame
    rcases (step_stored (R := R) (events m) (a.after R events m)).queue_new hrow with
      hold | ⟨-, hnew⟩
    · exact ih (by omega) row hold hsame
    · obtain ⟨accepted, haccepted, hid, -⟩ :=
        h.ledger (lt_trans h.accepted_lt hlt) (Nat.le_of_succ_le hle)
      exact hnew accepted haccepted (hid.trans hsame.1.symm)

/-- The call of the retry waits, and its answer lets a push through only as a duplicate. -/
theorem AckedRetry.waiting (h : AckedRetry R events a sender recipient id envelope conn i j k p) :
    ∃ call, (a.after R events p).calls conn = some call ∧
      call.message = .sendMessage recipient id envelope ∧
      ∀ result, call.answer = some (.enqueued result) → result.isAccepted = true →
        result = .duplicate := by
  obtain ⟨env, hasks⟩ := h.retried
  obtain ⟨row, hrow, hid, -⟩ :=
    h.ledger (lt_trans h.accepted_lt h.acked_lt) (le_of_lt h.retried_lt)
  have hcalled : ∃ call, (a.after R events (k + 1)).calls conn = some call ∧
      call.message = .sendMessage recipient id envelope ∧
      ∀ result, call.answer = some (.enqueued result) → result.isAccepted = true →
        result = .duplicate := by
    rw [after_succ, step_of_asks hasks]
    refine ⟨_, Function.update_self _ _ _, rfl, fun result hanswer haccepted => ?_⟩
    exact duplicate_of_ledger hrow hid haccepted (handleSend_checked hanswer).2.2.2
  obtain ⟨call, hcall, hmessage, hanswer⟩ := hcalled
  refine ⟨call, ?_, hmessage, hanswer⟩
  have hwaits : ∀ m, k < m → m ≤ p → (a.after R events m).calls conn = some call := by
    intro m hlt hle
    induction m, hlt using Nat.le_induction with
    | base => exact hcall
    | succ m hlt ih =>
      obtain ⟨hresume, hrestart⟩ := h.waits m hlt hle
      exact calls_kept (ih (Nat.le_of_succ_le hle)) hresume hrestart
  exact hwaits p h.retried_lt le_rfl

omit [DecidableEq D] in
/-- A message that is not accepted, or that finds nobody: the reply is all that is sent. -/
theorem resume_offline (hcall : a.calls conn = some call)
    (hmessage : call.message = .sendMessage recipient id envelope)
    (hoffline : ∀ result, call.answer = some (.enqueued result) → result.isAccepted = true →
      a.server.online recipient = none) :
    Server.Puts (fun _ message => IsPush id message = false) a.server (a.resume conn).server := by
  have hpushes : a.server.pushes call.userId call.env call.answer call.message = a.server := by
    rw [hmessage]
    unfold Server.pushes
    dsimp only
    split
    · next result hanswer =>
      split
      · next haccepted =>
        simp only [Server.sendTo, hoffline result hanswer haccepted]
        rfl
      · rfl
    · rfl
  unfold resume
  simp only [hcall, hpushes, respond]
  cases call.reply with
  | none => exact .setSocket_sent rfl
  | some reply => exact .trySend rfl rfl

end Proofs

variable [DecidableEq κ] [DecidableEq D] (R : Deployment K Sec C D)

/-- When retries of what is acknowledged find nobody online, none of them is pushed. -/
theorem acknowledged_not_pushed (events : Nat → Event κ C) (a : AsyncServer κ C D)
    (hnobody : RetriesFindNobody R events a) {sender recipient : UserId} {id : MessageId}
    {envelope : EncryptedEnvelope C} {conn : κ} {i j k p : Nat}
    (h : AckedRetry R events a sender recipient id envelope conn i j k p) (other : κ) :
    ∀ message ∈ puts R events a p other, IsPush id message = false := by
  obtain ⟨call, hcall, hmessage, hduplicate⟩ := h.waiting
  have hputs := resume_offline hcall hmessage fun result hanswer haccepted => by
    rw [hduplicate result hanswer haccepted] at hanswer
    exact hnobody p conn call recipient id envelope h.resumed hcall hmessage hanswer
      (h.dequeued (lt_trans h.acked_lt h.retried_lt) le_rfl)
  have hstep : (a.after R events p).resume conn = a.after R events (p + 1) := by
    rw [after_succ, h.resumed]
    rfl
  rw [hstep] at hputs
  exact fun message hput => mem_puts hputs hput

end AsyncServer

/-! ## A retry that is pushed -/

/-- Bob hangs up. -/
def bobLeaves : List (AsyncServer.Event (Fin 3) Ciphertext) :=
  [.server (.poll bobConn none), .server (.cleanUp bobConn)]

/-- Bob and Alice register. Alice sends a message, which Bob reads and acknowledges; the
connection of Alice fails before `MessageSent` is written. Alice logs in on another one and sends
the message again, and Bob may leave before the handler goes on. -/
def retryEvents (leaves : Bool) : List (AsyncServer.Event (Fin 3) Ciphertext) :=
  registerOn bobConn bob (key32 9) (key32 8) ++ registerOn aliceConn alice (key32 10) (key32 11) ++
  aliceWrites ++ [.server (.hangUp aliceConn), writeOn bobConn] ++
  requestOn bobConn (.ack ⟨2⟩ [⟨1⟩]) ++
  [writeOn bobConn, .server (.poll aliceConn none), .server (.cleanUp aliceConn)] ++
  loginOn nextConn alice (key32 10) ++ List.replicate 8 (greetOn nextConn) ++
  frameOn nextConn (.request (.sendMessage bob ⟨1⟩ sampleRatchet)) ++
  (if leaves then bobLeaves else []) ++ [.resume nextConn]

abbrev RetryState (leaves : Bool) (n : Nat) : AsyncServer (Fin 3) Ciphertext Unit :=
  (AsyncServer.boot .fresh).after ratchetRelay (eventAt (retryEvents leaves)) n

/-- Where the handler of the retry goes on. -/
def retryPush (leaves : Bool) : Nat := if leaves then 45 else 43

def idleBefore (conn : Fin 3) : AsyncServer.Event (Fin 3) Ciphertext → Bool
  | .resume other => decide (other ≠ conn)
  | .restart => false
  | .server _ => true

/-- A confirmation of `MessageSent` has been read. -/
def readsConfirmation : Phase C → Bool
  | .framed (.text (some (.request (.ackMessageSent _)))) => true
  | _ => false

set_option maxRecDepth 20000 in
theorem retry_acked (leaves : Bool) :
    AsyncServer.AckedRetry ratchetRelay (eventAt (retryEvents leaves)) (.boot .fresh) alice bob
      ⟨1⟩ sampleRatchet nextConn 17 22 42 (retryPush leaves) where
  accepted_lt := by decide
  acked_lt := by decide
  retried_lt := by cases leaves <;> decide
  accepted := by
    refine ⟨aliceConn, sampleSessionEnv, ⟨?_, ⟨rfl, ?_, ?_⟩, ?_, ?_⟩, ?_⟩
    all_goals cases leaves <;> with_unfolding_all rfl
  acked := by
    refine ⟨⟨2⟩, [⟨1⟩], List.mem_cons_self, bobConn, sampleSessionEnv,
      ⟨?_, ⟨rfl, ?_, ?_⟩, ?_, ?_⟩, ?_⟩
    all_goals cases leaves <;> with_unfolding_all rfl
  retried := by
    refine ⟨sampleSessionEnv, ?_, ⟨rfl, ?_, ?_⟩, ?_, ?_⟩
    all_goals cases leaves <;> with_unfolding_all rfl
  waits := by
    have hidle : ∀ m < retryPush leaves, 42 < m →
        idleBefore nextConn (eventAt (retryEvents leaves) m) = true := by
      cases leaves <;> decide +kernel
    intro m hlt hle
    have hm := hidle m hle hlt
    refine ⟨fun h => ?_, fun h => ?_⟩
    · rw [h] at hm
      exact absurd hm (by decide)
    · rw [h] at hm
      cases hm
  resumed := by cases leaves <;> rfl
  unconfirmed := by
    have hreads : ∀ m < retryPush leaves, ∀ conn,
        readsConfirmation ((RetryState leaves m).server.sockets conn).phase = false := by
      cases leaves <;> decide +kernel
    intro m caller messageIds env _ hlt hasks
    have hm := hreads m hlt caller
    rw [hasks.2.1.2.1] at hm
    cases hm

/-- The relay's `MessageSent` for a message. -/
def isMessageSent (id : MessageId) : Outbound C → Bool
  | .reply (.messageSent messageId) => decide (messageId = id)
  | _ => false

set_option maxRecDepth 20000 in
/-- Bob has acknowledged the message, and no `MessageSent` has been written; the retry is
pushed to Bob. -/
theorem acknowledged_pushed_again :
    AsyncServer.AckedRetry ratchetRelay (eventAt (retryEvents false)) (.boot .fresh) alice bob ⟨1⟩
      sampleRatchet nextConn 17 22 42 43 ∧
    (∀ conn, ((RetryState false 42).server.sockets conn).channel.written.all
      fun message => !isMessageSent ⟨1⟩ message) ∧
    ∃ message ∈ AsyncServer.puts ratchetRelay (eventAt (retryEvents false)) (.boot .fresh) 43
      bobConn, IsPush ⟨1⟩ message = true := by
  refine ⟨retry_acked false, by decide +kernel, List.any_eq_true.mp ?_⟩
  decide +kernel

/-- The handler that goes on here has no duplicate, or one that finds nobody. -/
def findsNobody (a : AsyncServer (Fin 3) Ciphertext Unit) :
    AsyncServer.Event (Fin 3) Ciphertext → Bool
  | .resume conn =>
    match a.calls conn with
    | some ⟨_, .sendMessage recipientId _ _, _, some (.enqueued .duplicate), _⟩ =>
      (a.server.online recipientId).isNone
    | _ => true
  | _ => true

set_option maxRecDepth 20000 in
theorem bobLeaves_nobody : AsyncServer.RetriesFindNobody ratchetRelay (eventAt (retryEvents true))
    (.boot .fresh) := by
  have hfinds : ∀ n < 46,
      findsNobody (RetryState true n) (eventAt (retryEvents true) n) = true := by
    decide +kernel
  rintro n conn ⟨userId, message, env, answer, reply⟩ recipient id envelope hevent hcall hmessage
    hanswer -
  cases hmessage
  cases hanswer
  have hlt : n < 46 := by
    by_contra hge
    have hdone : eventAt (retryEvents true) n = writeOn bobConn := by
      unfold eventAt
      rw [List.getD_eq_getElem?_getD, List.getElem?_eq_none (not_lt.mp hge)]
      rfl
    cases hdone.symm.trans hevent
  have hfound := hfinds n hlt
  unfold findsNobody at hfound
  rw [hevent] at hfound
  dsimp only at hfound
  rw [hcall] at hfound
  exact Option.isNone_iff_eq_none.mp hfound

/-- The same run, but that Bob leaves before the push: it finds nobody. -/
theorem acknowledged_not_pushed_offline :
    (AsyncServer.puts ratchetRelay (eventAt (retryEvents true)) (.boot .fresh) 45 bobConn).any
      (IsPush ⟨1⟩) = false := by
  rw [List.any_eq_false]
  intro message hmessage
  rw [AsyncServer.acknowledged_not_pushed ratchetRelay (eventAt (retryEvents true)) (.boot .fresh)
    bobLeaves_nobody (retry_acked true) bobConn message hmessage]
  exact Bool.false_ne_true

end Cmp.Relay
