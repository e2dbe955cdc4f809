import Cmp.Client.Handlers

/-! What a client sends. An operation adds to the outbox only items it makes and returns
only messages that stand there, so that a message goes out only while its item waits,
and no longer once its `MessageSent` has been confirmed. -/

namespace Cmp.Client

open Cmp.Crypto Cmp.Protocol Cmp.Lib Cmp.Lib.Action

variable {K Sec C : Type} {α β : Type}

/-! ## What an operation files and returns -/

/-- What a call that found `m` leaves in the outbox and returns. -/
structure Traffic (m : Manager K Sec C) (makes : PendingOutbound C → Prop)
    (messages : α → List (ClientMessage C))
    (result : EStateM.Result ManagerError (Manager K Sec C) α) : Prop where
  items : ∀ item ∈ (finalState result).pendingOutbound, item ∈ m.pendingOutbound ∨ makes item
  returned : ∀ a m', result = .ok a m' → ∀ message ∈ messages a, message ∈ m'.pendingMessages

section

variable {S : IdentitySuite K Sec C} {texts : List MessageId → Bytes} {m m' : Manager K Sec C}
  {makes : PendingOutbound C → Prop}

namespace Traffic

theorem error (messages : α → List (ClientMessage C)) (err : ManagerError)
    (h : ∀ item ∈ m'.pendingOutbound, item ∈ m.pendingOutbound ∨ makes item) :
    Traffic m makes messages (.error err m') :=
  ⟨h, fun _ _ hok => by cases hok⟩

theorem ok {messages : α → List (ClientMessage C)} {a : α}
    (h : ∀ item ∈ m'.pendingOutbound, item ∈ m.pendingOutbound ∨ makes item)
    (hreturned : ∀ message ∈ messages a, message ∈ m'.pendingMessages) :
    Traffic m makes messages (.ok a m') :=
  ⟨h, fun _ _ hok => by cases hok; exact hreturned⟩

/-- A call that returns no messages and makes no items. -/
theorem silent {result : EStateM.Result ManagerError (Manager K Sec C) α}
    (h : ∀ item ∈ (finalState result).pendingOutbound, item ∈ m.pendingOutbound) :
    Traffic m makes (fun _ => []) result :=
  ⟨fun item hitem => .inl (h item hitem), fun _ _ _ _ hmessage => absurd hmessage List.not_mem_nil⟩

theorem map {f : α → List (ClientMessage C)} {x : ManagerM K Sec C α}
    (h : Traffic m makes f (x.run m)) : Traffic m makes id ((f <$> x).run m) := by
  refine ⟨?_, fun a m' hok => ?_⟩
  · rw [finalState_map]
    exact h.items
  · rw [run_map] at hok
    cases hr : x.run m with
    | ok a' m'' =>
      rw [hr] at hok
      cases hok
      exact h.returned a' m' hr
    | error err m'' =>
      rw [hr] at hok
      cases hok

end Traffic

theorem mem_filed {item item' : PendingOutbound C}
    (h : item' ∈ (m.filed item).pendingOutbound) : item' ∈ m.pendingOutbound ∨ item' = item := by
  rcases List.mem_append.mp h with h | h
  · exact .inl h
  · exact .inr (List.mem_singleton.mp h)

theorem mem_pendingMessages_filed (item : PendingOutbound C) (m : Manager K Sec C) :
    item.toClientMessage ∈ (m.filed item).pendingMessages :=
  List.mem_map_of_mem (List.mem_append_right _ (List.mem_singleton_self item))

/-- A call that files the item it returns. -/
theorem Traffic.filed {item : PendingOutbound C} (hmakes : makes item)
    (hm : m'.pendingOutbound = m.pendingOutbound) :
    Traffic m makes (fun message => [message])
      (.ok item.toClientMessage (m'.filed item)) := by
  refine .ok (fun item' hitem => ?_) fun message hmessage => ?_
  · rcases mem_filed hitem with h | rfl
    · exact .inl (hm ▸ h)
    · exact .inr hmakes
  · rw [List.mem_singleton.mp hmessage]
    exact mem_pendingMessages_filed item m'

/-- A call that returns no message. -/
theorem Traffic.unanswered (hitems : ∀ item ∈ m'.pendingOutbound, item ∈ m.pendingOutbound ∨
    makes item) : Traffic m makes Option.toList (.ok none m') :=
  .ok hitems fun _ h => absurd h List.not_mem_nil

theorem EncryptResult.traffic {peerId : UserId} {plaintext : Bytes}
    {item : EncryptedEnvelope C → PendingOutbound C}
    {result : EStateM.Result ManagerError (Manager K Sec C) (ClientMessage C)}
    (h : EncryptResult S m peerId plaintext item result)
    (hmakes : ∀ envelope, makes (item envelope)) :
    Traffic m makes (fun message => [message]) result := by
  cases h with
  | failed err => exact .error _ err fun _ => .inl
  | filed original message ratchet => exact .filed (hmakes _) rfl

theorem queueItem_traffic (bytes : Nat) (item : PendingOutbound C) (fails : Bool)
    (hmakes : makes item) :
    Traffic m makes (fun message => [message])
      ((do
        let m ← get
        ofExcept (ensureCapacity m.pendingOutbound bytes)
        pushAndPersist item fails popOutbound : ManagerM K Sec C (ClientMessage C)).run m) := by
  rcases queueItem_cases bytes item fails m with ⟨err, h⟩ | ⟨-, -, h⟩
  · exact h ▸ .error _ err fun _ => .inl
  · exact h ▸ .filed hmakes rfl

theorem queuePrekeyReplenishment_traffic (hm : m.Sound) (env : UploadEnv Sec)
    (hmakes : ∀ generated, makes (env.item generated)) :
    Traffic m makes (fun message => [message]) ((queuePrekeyReplenishment S env).run m) := by
  rcases queuePrekeyReplenishment_cases S env m hm with
    ⟨err, h⟩ | ⟨upload, hupload, -, h⟩ | ⟨generated, nextId, -, -, h⟩
  · exact h ▸ .error _ err fun _ => .inl
  · rw [h]
    refine .ok (fun _ => .inl) fun message hmessage => ?_
    rw [List.mem_singleton.mp hmessage]
    exact List.mem_map_of_mem hupload
  · exact h ▸ .filed (hmakes generated) rfl

theorem confirmPrekeysUploaded_traffic (hm : m.Sound) (uploadId : MessageId) (accepted : Bool)
    (remaining : UInt32) (env : UploadEnv Sec) (fails : Bool)
    (hmakes : ∀ generated, makes (env.item generated)) :
    Traffic m makes Option.toList
      ((confirmPrekeysUploaded S uploadId accepted remaining env fails).run m) := by
  have hanswer := confirmPrekeysUploaded_cases S uploadId accepted remaining env fails m
  generalize EStateM.run (confirmPrekeysUploaded S uploadId accepted remaining env fails) m =
    result at hanswer
  cases hanswer with
  | unknown => exact .unanswered fun _ => .inl
  | failed err => exact .error _ err fun _ => .inl
  | undone err _ hunsound => exact absurd hm hunsound
  | confirmed index => exact .unanswered fun _ h => .inl (List.mem_of_mem_eraseIdx h)
  | resent index prekeys hitem _ _ upload hupload =>
    refine .ok (fun _ h => .inl (List.mem_of_mem_eraseIdx h)) fun message hmessage => ?_
    rw [List.mem_singleton.mp hmessage]
    exact List.mem_map_of_mem hupload
  | replaced index prekeys hitem _ _ generated nextId =>
    refine .ok (fun item h => ?_) fun message hmessage => ?_
    · rcases mem_filed (List.mem_of_mem_eraseIdx h) with h | rfl
      · exact .inl h
      · exact .inr (hmakes generated)
    · rw [List.mem_singleton.mp hmessage]
      refine List.mem_map_of_mem ?_
      unfold Manager.unfiled Manager.filed fileGenerated
      simp only [eraseIdx_append hitem]
      exact List.mem_append_right _ (List.mem_singleton_self _)
  | kept err generated nextId =>
    refine .error _ err fun item h => ?_
    rcases mem_filed h with h | rfl
    · exact .inl h
    · exact .inr (hmakes generated)
  | rejected index => exact .unanswered fun _ h => .inl (List.mem_of_mem_eraseIdx h)

theorem confirmSignedPrekeyRotated_traffic (rotationId : MessageId)
    (accepted previouslyAccepted : Bool) (currentKeyId : UInt32) (now : Nat) (drawn : Sec)
    (newId : MessageId) (fails : Bool)
    (hmakes : ∀ spk : SignedPreKey Sec, makes (rotationItem newId spk)) :
    Traffic m makes Option.toList
      ((confirmSignedPrekeyRotated S rotationId accepted previouslyAccepted currentKeyId now drawn
        newId fails).run m) := by
  have hanswer := confirmSignedPrekeyRotated_cases S rotationId accepted previouslyAccepted
    currentKeyId now drawn newId fails m
  generalize EStateM.run (confirmSignedPrekeyRotated S rotationId accepted previouslyAccepted
    currentKeyId now drawn newId fails) m = result at hanswer
  cases hanswer with
  | unknown => exact .unanswered fun _ => .inl
  | failed err => exact .error _ err fun _ => .inl
  | confirmed index => exact .unanswered fun _ h => .inl (List.mem_of_mem_eraseIdx h)
  | replaced index candidateKeyId publicKey signature hitem =>
    obtain ⟨hlt, -⟩ := List.getElem?_eq_some_iff.mp hitem
    refine .ok (fun item h => ?_) fun message hmessage => ?_
    · rcases List.mem_or_eq_of_mem_set h with h | rfl
      · exact .inl h
      · exact .inr (hmakes _)
    · rw [List.mem_singleton.mp hmessage]
      exact List.mem_map_of_mem (List.mem_set hlt _)

/-- An operation that makes no item. -/
theorem Traffic.quiet (hm : m.Sound) {op : Op Sec C} {call : ManagerM K Sec C α}
    (hcall : perform S texts op = (fun _ => []) <$> call) (hquiet : ∀ item, ¬op.Makes item) :
    Traffic m op.Makes id ((perform S texts op).run m) := by
  have hkept := (perform_outcome (S := S) texts hm op).kept hquiet
  rw [hcall, finalState_map] at hkept
  rw [hcall]
  exact .map (.silent fun item => hkept.mem)

/-- **An operation files only what it makes and returns only what it filed.** -/
theorem perform_traffic (texts : List MessageId → Bytes) (hm : m.Sound) (op : Op Sec C) :
    Traffic m op.Makes id ((perform S texts op).run m) := by
  cases op with
  | encryptMessage peerId recipientId messageId plaintext fails =>
    exact .map ((encryptMessage_result S peerId recipientId messageId plaintext fails m).traffic
      fun envelope => ⟨envelope, rfl⟩)
  | encryptReadReceipt peerId recipientId messageIds receiptId fails =>
    exact .map ((encryptReadReceipt_result S texts peerId recipientId messageIds receiptId fails
      m).traffic fun envelope => ⟨envelope, rfl⟩)
  | queueAck messageIds ackId fails | queueReadReceiptAck receiptIds ackId fails =>
    exact .map (queueItem_traffic _ _ fails rfl)
  | queueSignedPrekeyRotation now drawn rotationId fails =>
    refine .map ⟨fun item hitem => ?_, fun _ _ _ _ h => absurd h List.not_mem_nil⟩
    rcases queueSignedPrekeyRotation_cases S now drawn rotationId fails m with
      h | ⟨current, keyId, nextKeyId, -, -, -, -, h⟩
    · rw [h] at hitem
      exact .inl hitem
    · rw [h] at hitem
      rcases mem_filed hitem with hitem | rfl
      · exact .inl hitem
      · exact .inr (beq_self_eq_true rotationId)
  | confirmSignedPrekeyRotated rotationId accepted previouslyAccepted currentKeyId now drawn newId
      fails =>
    exact .map (confirmSignedPrekeyRotated_traffic rotationId accepted previouslyAccepted
      currentKeyId now drawn newId fails fun _ => beq_self_eq_true newId)
  | queuePrekeyReplenishment env =>
    exact .map (queuePrekeyReplenishment_traffic hm env fun _ => beq_self_eq_true env.uploadId)
  | confirmPrekeysUploaded uploadId accepted remaining env fails =>
    exact .map (confirmPrekeysUploaded_traffic hm uploadId accepted remaining env fails
      fun _ => beq_self_eq_true env.uploadId)
  | _ => exact .quiet hm rfl fun _ => id

end

/-! ## Messages and their confirmations -/

/-- The message with this id waits in the outbox. -/
def Manager.Awaits (m : Manager K Sec C) (id : MessageId) : Prop :=
  ∃ item ∈ m.pendingOutbound, isMessage id item = true

def sendsId (id : MessageId) : ClientMessage C → Bool
  | .sendMessage _ messageId _ => messageId == id
  | _ => false

def confirmsId (id : MessageId) : ClientMessage C → Bool
  | .ackMessageSent messageIds => messageIds.contains id
  | _ => false

/-- The id under which an event encrypts a message. -/
def Event.composes : Event Sec C → Option MessageId
  | .enter _ _ _ env _ => some env.id
  | _ => none

/-- The ids of a client are those it has used, and nothing is sent under an id that has
been confirmed. -/
structure IdsInOrder (used : List MessageId) (m : Manager K Sec C) (sent : List (ClientMessage C)) :
    Prop where
  awaited : ∀ id, m.Awaits id → id ∈ used
  sends : ∀ id, ∀ message ∈ sent, sendsId id message = true → id ∈ used
  confirms : ∀ id, ∀ message ∈ sent, confirmsId id message = true → id ∈ used
  waiting : ∀ id, m.Awaits id → ∀ message ∈ sent, confirmsId id message = false
  order : ∀ id, sent.Pairwise fun a b => confirmsId id a = true → sendsId id b = false

section

variable {S : IdentitySuite K Sec C} {texts : List MessageId → Bytes} {m m' : Manager K Sec C}
  {used : List MessageId} {sent : List (ClientMessage C)} {id : MessageId}

theorem sendsId_toClientMessage (item : PendingOutbound C) :
    sendsId id item.toClientMessage = isMessage id item := by
  cases item <;> rfl

theorem confirmsId_toClientMessage (item : PendingOutbound C) :
    confirmsId id item.toClientMessage = false := by
  cases item <;> rfl

theorem awaits_of_pending {message : ClientMessage C} (h : message ∈ m.pendingMessages)
    (hsends : sendsId id message = true) : m.Awaits id := by
  obtain ⟨item, hitem, rfl⟩ := List.mem_map.mp h
  exact ⟨item, hitem, by rw [← sendsId_toClientMessage]; exact hsends⟩

theorem confirmsId_of_pending {message : ClientMessage C} (h : message ∈ m.pendingMessages) :
    confirmsId id message = false := by
  obtain ⟨item, -, rfl⟩ := List.mem_map.mp h
  exact confirmsId_toClientMessage item

/-- Only the encryption under an id makes it wait. -/
theorem Op.Makes.isMessage {op : Op Sec C} {item : PendingOutbound C} (h : op.Makes item)
    (hitem : Client.isMessage id item = true) :
    ∃ peerId recipientId plaintext fails,
      op = .encryptMessage peerId recipientId id plaintext fails := by
  cases item with
  | message recipientId messageId envelope =>
    have hid : messageId = id := eq_of_beq hitem
    cases op with
    | encryptMessage peerId recipientId' messageId' plaintext fails =>
      obtain ⟨envelope', h⟩ := h
      cases h
      exact ⟨peerId, recipientId, plaintext, fails, by rw [hid]⟩
    | encryptReadReceipt peerId recipientId' messageIds receiptId fails =>
      obtain ⟨envelope', h⟩ := h
      cases h
    | _ => cases h
  | _ => cases hitem

theorem awaits_perform (hm : m.Sound) (op : Op Sec C)
    (h : (finalState ((perform S texts op).run m)).Awaits id) :
    m.Awaits id ∨ ∃ peerId recipientId plaintext fails,
      op = .encryptMessage peerId recipientId id plaintext fails := by
  obtain ⟨item, hitem, hid⟩ := h
  rcases (perform_traffic texts hm op).items item hitem with hitem | hmakes
  · exact .inl ⟨item, hitem, hid⟩
  · exact .inr (hmakes.isMessage hid)

variable {messages : List (ClientMessage C)}

/-- A confirmed message waits no longer: its id names one item of the outbox. -/
theorem not_awaits_of_confirmed {fails : Bool} (hm : m.OutboxKept)
    (h : (perform S texts (.confirmMessageSent id fails)).run m = .ok messages m') :
    ¬m'.Awaits id := by
  rintro ⟨item, hitem, hid⟩
  have hfinal := congrArg finalState h
  rw [perform, finalState_map] at hfinal
  rcases confirmSent_cases (isMessage id) id fails correlationId_of_isMessage m with
    ⟨err, hrun⟩ | ⟨hnone, hrun⟩ | ⟨index, item', hitem', -, hid', hrun⟩
  · rw [perform, run_map, confirmMessageSent, hrun] at h
    cases h
  · rw [confirmMessageSent, hrun] at hfinal
    cases hfinal
    exact Bool.false_ne_true ((hnone item hitem).symm.trans hid)
  · rw [confirmMessageSent, hrun] at hfinal
    cases hfinal
    have hkey := eraseIdx_eq_filter PendingOutbound.correlationId hm.memory_nodup hitem'
    change item ∈ m.pendingOutbound.eraseIdx index at hitem
    rw [hkey] at hitem
    obtain ⟨-, hne⟩ := List.mem_filter.mp hitem
    exact of_decide_eq_true hne ((correlationId_of_isMessage item hid).trans hid'.symm)

namespace IdsInOrder

theorem start (h : m.pendingOutbound = []) : IdsInOrder [] m [] where
  awaited id hid := by
    obtain ⟨item, hitem, -⟩ := hid
    rw [h] at hitem
    exact absurd hitem List.not_mem_nil
  sends id message hmessage := absurd hmessage List.not_mem_nil
  confirms id message hmessage := absurd hmessage List.not_mem_nil
  waiting id hid message hmessage := absurd hmessage List.not_mem_nil
  order id := .nil

/-- Messages may get lost, ids may be used. -/
theorem lose (h : IdsInOrder used m sent) {rest : List (ClientMessage C)}
    (hrest : rest.Sublist sent) : IdsInOrder used m rest where
  awaited := h.awaited
  sends id message hmessage := h.sends id message (hrest.subset hmessage)
  confirms id message hmessage := h.confirms id message (hrest.subset hmessage)
  waiting id hid message hmessage := h.waiting id hid message (hrest.subset hmessage)
  order id := (h.order id).sublist hrest

theorem use (h : IdsInOrder used m sent) {used' : List MessageId} (hused : used ⊆ used') :
    IdsInOrder used' m sent :=
  ⟨fun id hid => hused (h.awaited id hid), fun id message hm hid =>
    hused (h.sends id message hm hid),
    fun id message hm hid => hused (h.confirms id message hm hid), h.waiting, h.order⟩

/-- The outbox may lose messages, or get one under a used id that is not confirmed. -/
theorem outbox (h : IdsInOrder used m sent)
    (hm' : ∀ id, m'.Awaits id →
      m.Awaits id ∨ id ∈ used ∧ ∀ message ∈ sent, confirmsId id message = false) :
    IdsInOrder used m' sent where
  awaited id hid := by
    rcases hm' id hid with hid | ⟨hid, -⟩
    · exact h.awaited id hid
    · exact hid
  sends := h.sends
  confirms := h.confirms
  waiting id hid := by
    rcases hm' id hid with hid | ⟨-, hid⟩
    · exact h.waiting id hid
    · exact hid
  order := h.order

/-- More is sent: messages that wait. -/
theorem append (h : IdsInOrder used m sent)
    (hsends : ∀ message ∈ messages, ∀ id, sendsId id message = true → m.Awaits id)
    (hconfirms : ∀ message ∈ messages, ∀ id, confirmsId id message = false) :
    IdsInOrder used m (sent ++ messages) where
  awaited := h.awaited
  sends id message hmessage hid := by
    rcases List.mem_append.mp hmessage with hmessage | hmessage
    · exact h.sends id message hmessage hid
    · exact h.awaited id (hsends message hmessage id hid)
  confirms id message hmessage hid := by
    rcases List.mem_append.mp hmessage with hmessage | hmessage
    · exact h.confirms id message hmessage hid
    · rw [hconfirms message hmessage id] at hid
      cases hid
  waiting id hid message hmessage := by
    rcases List.mem_append.mp hmessage with hmessage | hmessage
    · exact h.waiting id hid message hmessage
    · exact hconfirms message hmessage id
  order id := by
    refine List.pairwise_append.mpr ⟨h.order id, ?_, fun a ha b hb hconfirmed => ?_⟩
    · refine List.Pairwise.imp_of_mem (R := fun _ _ => True) ?_
        (List.pairwise_of_forall fun _ _ => trivial)
      intro a b ha _ _ hconfirmed
      rw [hconfirms a ha id] at hconfirmed
      cases hconfirmed
    · by_contra hsent
      have hwaits := hsends b hb id (eq_true_of_ne_false hsent)
      rw [h.waiting id hwaits a ha] at hconfirmed
      cases hconfirmed

/-- A message that sends nothing and confirms an id that is used and does not wait. -/
theorem tell (h : IdsInOrder used m sent) {message : ClientMessage C}
    (hsends : ∀ id, sendsId id message = false)
    (hconfirms : ∀ id, confirmsId id message = true → id ∈ used ∧ ¬m.Awaits id) :
    IdsInOrder used m (sent ++ [message]) where
  awaited := h.awaited
  sends id message' hmessage hid := by
    rcases List.mem_append.mp hmessage with hmessage | hmessage
    · exact h.sends id message' hmessage hid
    · rw [List.mem_singleton.mp hmessage, hsends id] at hid
      cases hid
  confirms id message' hmessage hid := by
    rcases List.mem_append.mp hmessage with hmessage | hmessage
    · exact h.confirms id message' hmessage hid
    · rw [List.mem_singleton.mp hmessage] at hid
      exact (hconfirms id hid).1
  waiting id hid message' hmessage := by
    rcases List.mem_append.mp hmessage with hmessage | hmessage
    · exact h.waiting id hid message' hmessage
    · rw [List.mem_singleton.mp hmessage]
      by_contra hconfirmed
      exact (hconfirms id (eq_true_of_ne_false hconfirmed)).2 hid
  order id := by
    refine List.pairwise_append.mpr ⟨h.order id, List.pairwise_singleton _ _, fun a _ b hb _ => ?_⟩
    rw [List.mem_singleton.mp hb]
    exact hsends id

end IdsInOrder

/-- What holds while an event is handled: besides the order, the id it encrypts under is
used and not confirmed, and the id it confirms is used. -/
structure MidEvent (used : List MessageId) (e : Event Sec C) (m : Manager K Sec C)
    (sent : List (ClientMessage C)) : Prop where
  durable : ∃ prunedAt, m.Durable prunedAt
  inOrder : IdsInOrder used m sent
  composed : ∀ id, e.composes = some id →
    id ∈ used ∧ ∀ message ∈ sent, confirmsId id message = false

variable {e : Event Sec C}

theorem MidEvent.call {before : Manager K Sec C} (h : MidEvent used e m sent) {op : Op Sec C}
    (hop : e.Permits before m op) :
    MidEvent used e (finalState ((perform S texts op).run m)) sent := by
  obtain ⟨prunedAt, hdurable⟩ := h.durable
  refine ⟨⟨_, hdurable.outcome (perform_outcome (S := S) texts hdurable.sound op)⟩,
    h.inOrder.outbox fun id hid => ?_, h.composed⟩
  rcases awaits_perform hdurable.sound op hid with hid |
    ⟨peerId, recipientId, plaintext, fails, rfl⟩
  · exact .inl hid
  · obtain ⟨text, now, expireFails, env, historyFails, rfl, hid⟩ := hop.2
    exact .inr (h.composed id (congrArg some hid))

/-- More is sent, and no confirmation among it. -/
theorem MidEvent.append (h : MidEvent used e m sent)
    (hinOrder : IdsInOrder used m (sent ++ messages))
    (hconfirms : ∀ message ∈ messages, ∀ id, confirmsId id message = false) :
    MidEvent used e m (sent ++ messages) := by
  refine ⟨h.durable, hinOrder, fun id hid => ⟨(h.composed id hid).1, fun message hmessage => ?_⟩⟩
  rcases List.mem_append.mp hmessage with hmessage | hmessage
  · exact (h.composed id hid).2 message hmessage
  · exact hconfirms message hmessage id

/-- What waits is sent. -/
theorem MidEvent.send (h : MidEvent used e m sent)
    (hpending : ∀ message ∈ messages, message ∈ m.pendingMessages) :
    MidEvent used e m (sent ++ messages) :=
  h.append
    (h.inOrder.append (fun message hmessage _ => awaits_of_pending (hpending message hmessage))
      fun message hmessage _ => confirmsId_of_pending (hpending message hmessage))
    fun message hmessage _ => confirmsId_of_pending (hpending message hmessage)

/-- What is neither a message nor a confirmation of one is sent. -/
theorem MidEvent.other (h : MidEvent used e m sent) (message : ClientMessage C)
    (hsends : ∀ id, sendsId id message = false) (hconfirms : ∀ id, confirmsId id message = false) :
    MidEvent used e m (sent ++ [message]) := by
  refine h.append (h.inOrder.tell hsends fun id hid => ?_) fun message' hmessage id => ?_
  · rw [hconfirms id] at hid
    cases hid
  · rw [List.mem_singleton.mp hmessage]
    exact hconfirms id

theorem MidEvent.move {before : Manager K Sec C} {past out out' : List (ClientMessage C)}
    (hconfirmed : ∀ id fails, e = .messageSent id fails → id ∈ used)
    (h : MidEvent used e m (past ++ out))
    (hmove : Move S texts (e.Permits before) (m, out) (m', out')) :
    MidEvent used e m' (past ++ out') := by
  have hcalled : ∀ op, e.Permits before m op →
      MidEvent used e (finalState ((perform S texts op).run m)) (past ++ out) := fun _ => h.call
  obtain ⟨prunedAt, hdurable⟩ := h.durable
  cases hmove with
  | call op hop => exact hcalled op hop
  | @returned _ _ _ messages op hop hrun =>
    have hafter := hcalled op hop
    rw [hrun] at hafter
    rw [← List.append_assoc]
    exact hafter.send ((perform_traffic texts hdurable.sound op).returned messages m' hrun)
  | @told _ _ _ messages op hop message htells hrun =>
    have hafter := hcalled op hop
    rw [hrun] at hafter
    rw [← List.append_assoc]
    cases op with
    | confirmMessageSent messageId fails =>
      cases htells
      have he : e = .messageSent messageId fails := hop.2
      refine ⟨hafter.durable, hafter.inOrder.tell (fun _ => rfl) fun id hid => ?_, fun id hid => ?_⟩
      · have hid' : id = messageId := List.mem_singleton.mp (List.contains_iff_mem.mp hid)
        subst hid'
        exact ⟨hconfirmed id fails he, not_awaits_of_confirmed hdurable.outbox hrun⟩
      · rw [he] at hid
        cases hid
    | confirmReadReceiptSent receiptId fails =>
      cases htells
      exact hafter.other _ (fun _ => rfl) fun _ => rfl
    | _ => cases htells
  | resent message hpending =>
    rw [← List.append_assoc]
    refine h.send fun message' hmessage => ?_
    rw [List.mem_singleton.mp hmessage]
    exact hpending
  | asked target =>
    rw [← List.append_assoc]
    exact h.other _ (fun _ => rfl) fun _ => rfl

theorem MidEvent.moves {before : Manager K Sec C} {past : List (ClientMessage C)}
    {p q : Manager K Sec C × List (ClientMessage C)}
    (hconfirmed : ∀ id fails, e = .messageSent id fails → id ∈ used)
    (h : MidEvent used e p.1 (past ++ p.2)) (hmoves : Moves S texts (e.Permits before) p q) :
    MidEvent used e q.1 (past ++ q.2) := by
  induction hmoves with
  | refl => exact h
  | tail _ hmove ih => exact ih.move hconfirmed hmove

end

end Cmp.Client
