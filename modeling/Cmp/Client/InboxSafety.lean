import Cmp.Client.Inbox
import Cmp.Client.Refinement

/-! What holds between markers, message history and acknowledgements when an id names
one message or one receipt of one sender: a message that was decrypted is in the
history or waits in its marker, and markers go only for ids that are in the history. -/

namespace Cmp.Client

open Cmp.Crypto Cmp.Protocol Cmp.Lib Cmp.Lib.Action

variable {K Sec C : Type}

/-! ## Runs of deliveries -/

/-- What an id stands for: a message or a receipt of one sender. -/
inductive Delivery (C : Type)
  | message (senderId : UserId) (envelope : EncryptedEnvelope C)
  | receipt (senderId : UserId) (envelope : EncryptedEnvelope C)

section Admitted

variable (mail : MessageId → Option (Delivery C))

/-- Acknowledgements name ids that `process_inbound` answered with `should_ack`, or
receipts; no session is dropped or replaced. -/
def Op.Admitted (i : Inbox K Sec C) : Op Sec C → Prop
  | .queueAck messageIds _ _ => ∀ id ∈ messageIds, id ∈ i.acked
  | .queueReadReceiptAck receiptIds _ _ =>
    ∀ id ∈ receiptIds, ∃ senderId envelope, mail id = some (.receipt senderId envelope)
  | .initSessionFromBundle peerId .. => i.app.crypto.sessions.lookup peerId = none
  | .expireStalePrekeySession .. => False
  | .rejectMessage .. => False
  | .decryptMessageToText .. => False
  | .confirmInboundStored .. => False
  | _ => True

/-- Deliveries carry what their id stands for; own messages have other ids. -/
def InboxEvent.Admitted (i : Inbox K Sec C) : InboxEvent Sec C → Prop
  | .deliver inbound _ =>
    mail inbound.messageId = some (.message inbound.senderId inbound.envelope)
  | .receipt senderId receiptId envelope _ _ => mail receiptId = some (.receipt senderId envelope)
  | .other op => op.Admitted mail i
  | .sent _ messageId _ => mail messageId = none

def Opening.IsMessage (o : Opening C) : Prop :=
  mail o.messageId = some (.message o.peerId o.envelope)

def Opening.IsReceipt (o : Opening C) : Prop :=
  mail o.messageId = some (.receipt o.peerId o.envelope)

end Admitted

/-- The row of the history for a decrypted message. -/
def Opening.row (o : Opening C) : HistoryRow := ⟨o.peerId, .received, o.messageId, o.text⟩

/-- The marker of a message that is not in the history yet. -/
def Opening.marker (o : Opening C) : ProcessedMessage := ⟨some o.text, o.markedAt⟩

/-! ## Markers, history and acknowledgements -/

theorem lookup_keepFrom {processed : ProcessedMap} {cutoff : Nat} {key : UserId × MessageId}
    {row : ProcessedMessage} :
    (keepFrom cutoff processed).lookup key = some row ↔
      processed.lookup key = some row ∧ cutoff ≤ row.processedAt := by
  unfold keepFrom
  rw [HMap.lookup_filter_eq_some, decide_eq_true_eq]

/-- A marker of an opening: its text waits, or it is in the history if it is that of
a message. -/
structure Marks (mail : MessageId → Option (Delivery C)) (messages : List HistoryRow)
    (o : Opening C) (processed : ProcessedMessage) : Prop where
  since : processed.processedAt = o.markedAt
  text : processed.pendingPlaintext = some o.text ∨
    (processed.pendingPlaintext = none ∧ (o.IsMessage mail → o.row ∈ messages))

/-- An id that may be acknowledged. -/
def Settled (mail : MessageId → Option (Delivery C)) (messages : List HistoryRow)
    (opened : List (Opening C)) (id : MessageId) : Prop :=
  (∃ o ∈ opened, o.kept = true ∧ o.IsMessage mail ∧ o.messageId = id ∧ o.row ∈ messages) ∨
    ∃ senderId envelope, mail id = some (.receipt senderId envelope)

/-- What holds between the manager, the history and the log of a run. -/
structure Safe (mail : MessageId → Option (Delivery C)) (m : Manager K Sec C)
    (messages : List HistoryRow) (opened : List (Opening C)) (acked : List MessageId)
    (prunedAt : Nat) : Prop where
  known : ∀ o ∈ opened, o.IsMessage mail ∨ o.IsReceipt mail
  once : opened.Pairwise fun o o' => o.key = o'.key → o.kept = false
  rows : ∀ row ∈ messages, mail row.messageId = none ∨
    ∃ o ∈ opened, o.kept = true ∧ o.IsMessage mail ∧ row = o.row
  marked : ∀ key processed, m.processedMessages.lookup key = some processed ∨
    m.store.processed.lookup key = some processed →
      ∃ o ∈ opened, o.kept = true ∧ o.key = key ∧ Marks mail messages o processed
  safe : ∀ o ∈ opened, o.kept = true → o.IsMessage mail → o.row ∈ messages ∨
    m.processedMessages.lookup o.key = some o.marker ∨ o.markedAt < prunedAt - RETENTION_SECS
  acks : ∀ item ∈ m.pendingOutbound, ∀ ackId ids, item.ackedIds ackId = some ids →
    ∀ id ∈ ids, Settled mail messages opened id
  acked : ∀ id ∈ acked, Settled mail messages opened id

section Safe

variable {mail : MessageId → Option (Delivery C)} {m m' : Manager K Sec C}
  {messages : List HistoryRow} {opened : List (Opening C)} {acked : List MessageId}
  {prunedAt : Nat} {o o' : Opening C}

theorem Opening.IsMessage.not_receipt (h : o.IsMessage mail) {senderId : UserId}
    {envelope : EncryptedEnvelope C} : mail o.messageId ≠ some (.receipt senderId envelope) := by
  rw [h]
  rintro ⟨⟩

/-- Openings of one id have one sender and one envelope. -/
theorem Opening.IsMessage.congr (h : o.IsMessage mail) (h' : o'.IsMessage mail)
    (hid : o.messageId = o'.messageId) : o.key = o'.key ∧ o.envelope = o'.envelope := by
  unfold Opening.IsMessage at h h'
  rw [hid, h', Option.some.injEq, Delivery.message.injEq] at h
  exact ⟨Prod.ext h.1.symm hid, h.2.symm⟩

namespace Safe

theorem start (hmemory : m.processedMessages = ∅) (hstore : m.store.processed = ∅)
    (hout : m.pendingOutbound = []) : Safe mail m [] ([] : List (Opening C)) [] 0 where
  known o h := by cases h
  once := .nil
  rows row h := by cases h
  marked key processed h := by
    rw [hmemory, hstore] at h
    rcases h with h | h <;> cases h
  safe o h := by cases h
  acks item h := by
    rw [hout] at h
    cases h
  acked id h := by cases h

theorem unique (h : Safe mail m messages opened acked prunedAt) (ho : o ∈ opened)
    (ho' : o' ∈ opened) (hkept : o.kept = true) (hkept' : o'.kept = true)
    (hkey : o.key = o'.key) : o = o' := by
  by_contra hne
  let R : Opening C → Opening C → Prop :=
    fun a b => a.key = b.key → a.kept = false ∨ b.kept = false
  have : Std.Symm R := ⟨fun a b hab hkey => (hab hkey.symm).symm⟩
  have hpair : opened.Pairwise R := h.once.imp fun hab hk => .inl (hab hk)
  rcases hpair.forall ho ho' hne hkey with hfalse | hfalse
  · rw [hkept] at hfalse; cases hfalse
  · rw [hkept'] at hfalse; cases hfalse

theorem mono (h : Safe mail m messages opened acked prunedAt) {latest : Nat}
    (hle : prunedAt ≤ latest) : Safe mail m messages opened acked latest :=
  { h with
    safe := fun o ho hkept hmessage =>
      (h.safe o ho hkept hmessage).imp_right fun h => h.imp_right fun h => by omega }

/-- A log that grew. -/
theorem settled_append {id : MessageId} (h : Settled mail messages opened id)
    (new : List (Opening C)) : Settled mail messages (opened ++ new) id :=
  h.imp_left fun ⟨o, ho, h⟩ => ⟨o, List.mem_append_left _ ho, h⟩

/-- Successful calls of the ratchet that were not stored. -/
theorem unkept (h : Safe mail m messages opened acked prunedAt) {new : List (Opening C)}
    (hknown : ∀ o ∈ new, o.IsMessage mail ∨ o.IsReceipt mail)
    (hnew : ∀ o ∈ new, o.kept = false)
    (honce : ∀ o ∈ opened, ∀ o' ∈ new, o.key = o'.key → o.kept = false) :
    Safe mail m messages (opened ++ new) acked prunedAt where
  known o ho := (List.mem_append.mp ho).elim (h.known o) (hknown o)
  once := List.pairwise_append.mpr
    ⟨h.once, List.pairwise_of_forall_mem_list fun a ha _ _ _ => hnew a ha, honce⟩
  rows row hrow :=
    (h.rows row hrow).imp_right fun ⟨o, ho, hrest⟩ => ⟨o, List.mem_append_left _ ho, hrest⟩
  marked key processed hp :=
    let ⟨o, ho, hrest⟩ := h.marked key processed hp
    ⟨o, List.mem_append_left _ ho, hrest⟩
  safe o ho hkept hmessage := by
    rcases List.mem_append.mp ho with ho | ho
    · exact h.safe o ho hkept hmessage
    · rw [hnew o ho] at hkept; cases hkept
  acks item hitem ackId ids hids id hid :=
    settled_append (h.acks item hitem ackId ids hids id hid) new
  acked id hid := settled_append (h.acked id hid) new

/-- Markers lost to a cutoff that is within the retention of the latest reading. -/
theorem pruned (h : Safe mail m messages opened acked prunedAt) {now : Nat} (hnow : now ≤ prunedAt)
    (hmemory : m'.processedMessages = keepFrom (now - RETENTION_SECS) m.processedMessages)
    (hstore : ∀ key processed, m'.store.processed.lookup key = some processed →
      m.store.processed.lookup key = some processed)
    (hout : m'.pendingOutbound = m.pendingOutbound) :
    Safe mail m' messages opened acked prunedAt where
  known := h.known
  once := h.once
  rows := h.rows
  marked key processed hp := by
    refine h.marked key processed (hp.imp (fun hp => ?_) (hstore key processed))
    rw [hmemory] at hp
    exact (lookup_keepFrom.mp hp).1
  safe o ho hkept hmessage := by
    rcases h.safe o ho hkept hmessage with hrow | hmarker | hold
    · exact .inl hrow
    · right
      by_cases hcut : now - RETENTION_SECS ≤ o.markedAt
      · left
        rw [hmemory]
        exact lookup_keepFrom.mpr ⟨hmarker, hcut⟩
      · right
        omega
    · exact .inr (.inr hold)
  acks := by
    rw [hout]
    exact h.acks
  acked := h.acked

/-- A message decrypted and marked. -/
theorem opens (h : Safe mail m messages opened acked prunedAt)
    (hknown : o.IsMessage mail ∨ o.IsReceipt mail)
    (honce : ∀ o' ∈ opened, o'.key = o.key → o'.kept = false)
    (hmemory : m'.processedMessages = m.processedMessages.insert o.key o.marker)
    (hstore : m'.store.processed = m.store.processed.insert o.key o.marker)
    (hout : m'.pendingOutbound = m.pendingOutbound) (hkept : o.kept = true) :
    Safe mail m' messages (opened ++ [o]) acked prunedAt where
  known o' ho' := (List.mem_append.mp ho').elim (h.known o') fun h => by
    rw [List.mem_singleton.mp h]
    exact hknown
  once := List.pairwise_append.mpr
    ⟨h.once, List.pairwise_singleton _ _, fun a ha b hb hkey => by
      cases List.mem_singleton.mp hb
      exact honce a ha hkey⟩
  rows row hrow :=
    (h.rows row hrow).imp_right fun ⟨o, ho, hrest⟩ => ⟨o, List.mem_append_left _ ho, hrest⟩
  marked key processed hp := by
    rw [hmemory, hstore, HMap.lookup_insert_eq, HMap.lookup_insert_eq] at hp
    split at hp
    · next hkey =>
      have hp : some o.marker = some processed := hp.elim id id
      cases hp
      exact ⟨o, List.mem_append_right _ List.mem_cons_self, hkept, hkey.symm, rfl, .inl rfl⟩
    · obtain ⟨o', ho', hrest⟩ := h.marked key processed hp
      exact ⟨o', List.mem_append_left _ ho', hrest⟩
  safe o' ho' hkept' hmessage := by
    rcases List.mem_append.mp ho' with ho' | ho'
    · rcases h.safe o' ho' hkept' hmessage with hrow | hmarker | hold
      · exact .inl hrow
      · right; left
        rw [hmemory, HMap.lookup_insert_eq, if_neg]
        · exact hmarker
        · intro hkey
          rw [honce o' ho' hkey] at hkept'
          cases hkept'
      · exact .inr (.inr hold)
    · cases List.mem_singleton.mp ho'
      right; left
      rw [hmemory]
      exact Finmap.lookup_insert _
  acks item hitem ackId ids hids id hid := by
    rw [hout] at hitem
    exact settled_append (h.acks item hitem ackId ids hids id hid) _
  acked id hid := settled_append (h.acked id hid) _

/-- More rows in the history. -/
theorem grow (h : Safe mail m messages opened acked prunedAt) {messages' : List HistoryRow}
    (hsub : messages ⊆ messages')
    (hrows : ∀ row ∈ messages', mail row.messageId = none ∨
      ∃ o ∈ opened, o.kept = true ∧ o.IsMessage mail ∧ row = o.row) :
    Safe mail m messages' opened acked prunedAt :=
  have hsettled : ∀ {id}, Settled mail messages opened id → Settled mail messages' opened id :=
    fun h => h.imp_left fun ⟨o, ho, hkept, hmessage, hid, hrow⟩ =>
      ⟨o, ho, hkept, hmessage, hid, hsub hrow⟩
  { known := h.known
    once := h.once
    rows := hrows
    marked := fun key processed hp =>
      let ⟨o, ho, hkept, hkey, hmark⟩ := h.marked key processed hp
      ⟨o, ho, hkept, hkey, hmark.since, hmark.text.imp_right fun ⟨hnone, hrow⟩ =>
        ⟨hnone, fun hmessage => hsub (hrow hmessage)⟩⟩
    safe := fun o ho hkept hmessage => (h.safe o ho hkept hmessage).imp_left fun hrow => hsub hrow
    acks := fun item hitem ackId ids hids id hid =>
      hsettled (h.acks item hitem ackId ids hids id hid)
    acked := fun id hid => hsettled (h.acked id hid) }

theorem sent (h : Safe mail m messages opened acked prunedAt) (row : HistoryRow)
    (hrow : mail row.messageId = none) :
    Safe mail m (insertMessage row messages).1 opened acked prunedAt := by
  unfold insertMessage
  split
  · exact h
  · refine h.grow (List.subset_append_left _ _) fun row' hrow' => ?_
    rcases List.mem_append.mp hrow' with hrow' | hrow'
    · exact h.rows row' hrow'
    · rw [List.mem_singleton.mp hrow']
      exact .inl hrow

/-- The text of a waiting marker goes into the history, where it may be already. -/
theorem stores (h : Safe mail m messages opened acked prunedAt) {peerId : UserId}
    {messageId : MessageId} {envelope : EncryptedEnvelope C} {text : String} {since : Nat}
    (hmail : mail messageId = some (.message peerId envelope))
    (hmarker : m.processedMessages.lookup (peerId, messageId) = some ⟨some text, since⟩) :
    ∃ o ∈ opened, o.kept = true ∧ o.IsMessage mail ∧ o.key = (peerId, messageId) ∧
      o.row = ⟨peerId, .received, messageId, text⟩ ∧ o.row ∈ (insertMessage o.row messages).1 ∧
      Safe mail m (insertMessage o.row messages).1 opened acked prunedAt := by
  obtain ⟨o, ho, hkept, hkey, hmark⟩ := h.marked _ _ (.inl hmarker)
  have htext : o.text = text := by
    rcases hmark.text with htext | ⟨hnone, -⟩
    · exact (Option.some.inj htext).symm
    · cases hnone
  obtain ⟨hpeer, hid⟩ := Prod.mk.inj hkey
  have hmessage : o.IsMessage mail := (h.known o ho).resolve_right fun hreceipt => by
    unfold Opening.IsReceipt at hreceipt
    rw [hid, hmail] at hreceipt
    cases hreceipt
  refine ⟨o, ho, hkept, hmessage, hkey, by unfold Opening.row; rw [hpeer, hid, htext], ?_⟩
  unfold insertMessage
  split
  · next hold =>
    -- the row with this id can only be that of the same opening
    obtain ⟨row, hrow, hrowId⟩ := List.mem_map.mp hold
    have hrowId : row.messageId = o.messageId := hrowId
    rcases h.rows row hrow with hnone | ⟨o', ho', hkept', hmessage', rfl⟩
    · rw [hrowId, hmessage] at hnone
      cases hnone
    · cases h.unique ho' ho hkept' hkept (hmessage'.congr hmessage hrowId).1
      exact ⟨hrow, h⟩
  · refine ⟨List.mem_append_right _ List.mem_cons_self,
      h.grow (List.subset_append_left _ _) fun row hrow => ?_⟩
    rcases List.mem_append.mp hrow with hrow | hrow
    · exact h.rows row hrow
    · exact .inr ⟨o, ho, hkept, hmessage, List.mem_singleton.mp hrow⟩

theorem lookup_committed {key x : UserId × MessageId} {processed row : ProcessedMessage}
    (hrow : (m.committed key processed).store.processed.lookup x = some row) :
    (x ≠ key ∧ m.store.processed.lookup x = some row) ∨
      x = key ∧ ∃ old, m.store.processed.lookup key = some old ∧
        row = { old with pendingPlaintext := none } := by
  simp only [Manager.committed, CryptoStore.markProcessedCommitted] at hrow
  cases hold : m.store.processed.lookup key with
  | none =>
    rw [hold] at hrow
    refine .inl ⟨fun hx => ?_, hrow⟩
    rw [hx] at hrow
    cases hold.symm.trans hrow
  | some old =>
    rw [hold] at hrow
    simp only [Option.getD_some, HMap.lookup_insert_eq] at hrow
    split at hrow
    · next hx => cases hrow; exact .inr ⟨hx, old, rfl, rfl⟩
    · next hx => exact .inl ⟨hx, hrow⟩

/-- A marker cleared once its message is in the history. -/
theorem committed (h : Safe mail m messages opened acked prunedAt) {key : UserId × MessageId}
    {processed : ProcessedMessage} (hmarker : m.processedMessages.lookup key = some processed)
    (hrow : ∀ o ∈ opened, o.kept = true → o.key = key → o.IsMessage mail → o.row ∈ messages) :
    Safe mail (m.committed key processed) messages opened acked prunedAt where
  known := h.known
  once := h.once
  rows := h.rows
  marked x row hx := by
    have hcleared : ∀ old, m.processedMessages.lookup key = some old ∨
        m.store.processed.lookup key = some old → ∃ o ∈ opened, o.kept = true ∧ o.key = key ∧
          Marks mail messages o { old with pendingPlaintext := none } := by
      intro old hold
      obtain ⟨o, ho, hkept, hkey, hmark⟩ := h.marked key old hold
      exact ⟨o, ho, hkept, hkey, hmark.since, .inr ⟨rfl, hrow o ho hkept hkey⟩⟩
    rcases hx with hx | hx
    · simp only [Manager.committed, HMap.lookup_insert_eq] at hx
      split at hx
      · next heq => cases hx; rw [heq]; exact hcleared processed (.inl hmarker)
      · exact h.marked x row (.inl hx)
    · rcases lookup_committed hx with ⟨-, hx⟩ | ⟨heq, old, hold, rfl⟩
      · exact h.marked x row (.inr hx)
      · rw [heq]; exact hcleared old (.inr hold)
  safe o ho hkept hmessage := by
    by_cases hkey : o.key = key
    · exact .inl (hrow o ho hkept hkey hmessage)
    · refine (h.safe o ho hkept hmessage).imp_right fun h => h.imp_left fun hwait => ?_
      simp only [Manager.committed, HMap.lookup_insert_eq]
      rw [if_neg hkey]
      exact hwait
  acks := h.acks
  acked := h.acked

/-- Markers deleted when their acknowledgement is confirmed. -/
theorem unmarked (h : Safe mail m messages opened acked prunedAt) {index : Nat}
    {ackId : MessageId} {ids : List MessageId} {item : PendingOutbound C}
    (hitem : m.pendingOutbound[index]? = some item) (hids : item.ackedIds ackId = some ids) :
    Safe mail ((m.unmarked ids).unfiled index ackId) messages opened acked prunedAt where
  known := h.known
  once := h.once
  rows := h.rows
  marked key processed hp :=
    h.marked key processed (hp.imp (fun hp => (HMap.lookup_filter_eq_some.mp hp).1)
      fun hp => (HMap.lookup_filter_eq_some.mp hp).1)
  safe o ho hkept hmessage := by
    rcases h.safe o ho hkept hmessage with hrow | hwait | hold
    · exact .inl hrow
    · by_cases hid : o.messageId ∈ ids
      · rcases h.acks item (List.mem_of_getElem? hitem) ackId ids hids _ hid with
          ⟨o', ho', hkept', hmessage', hid', hrow⟩ | ⟨senderId, envelope, hreceipt⟩
        · cases h.unique ho' ho hkept' hkept (hmessage'.congr hmessage hid').1
          exact .inl hrow
        · exact absurd hreceipt hmessage.not_receipt
      · right; left
        exact HMap.lookup_filter_eq_some.mpr ⟨hwait, decide_eq_true hid⟩
    · exact .inr (.inr hold)
  acks other hother := h.acks other (List.mem_of_mem_eraseIdx hother)
  acked := h.acked

/-- Markers left alone. -/
theorem quiet (h : Safe mail m messages opened acked prunedAt)
    (hmemory : m'.processedMessages = m.processedMessages)
    (hstore : m'.store.processed = m.store.processed)
    (hitems : ∀ item ∈ m'.pendingOutbound, item ∈ m.pendingOutbound ∨
      ∀ ackId ids, item.ackedIds ackId = some ids → ∀ id ∈ ids, Settled mail messages opened id) :
    Safe mail m' messages opened acked prunedAt where
  known := h.known
  once := h.once
  rows := h.rows
  marked := by rw [hmemory, hstore]; exact h.marked
  safe := by rw [hmemory]; exact h.safe
  acks item hitem := (hitems item hitem).elim (h.acks item) id
  acked := h.acked

/-- A restart finds every marker that is within the retention. -/
theorem reloaded (h : Safe mail m messages opened acked prunedAt) (hm : m.Durable prunedAt)
    (cutoffNow pruneNow : Nat) :
    Safe mail (m.reloaded cutoffNow pruneNow) messages opened acked
      (max prunedAt (max cutoffNow pruneNow)) where
  known := h.known
  once := h.once
  rows := h.rows
  marked key processed hp :=
    h.marked key processed (.inr (hp.elim (fun hp => (lookup_keepFrom.mp hp).1)
      fun hp => (lookup_keepFrom.mp hp).1))
  safe o ho hkept hmessage := by
    by_cases hold : o.markedAt < max prunedAt (max cutoffNow pruneNow) - RETENTION_SECS
    · exact .inr (.inr hold)
    · rcases h.safe o ho hkept hmessage with hrow | hwait | hpast
      · exact .inl hrow
      · right; left
        have hkeep : (keepFrom (prunedAt - RETENTION_SECS) m.processedMessages).lookup o.key =
            some o.marker :=
          lookup_keepFrom.mpr ⟨hwait, by show _ ≤ o.markedAt; omega⟩
        rw [hm.markers] at hkeep
        exact lookup_keepFrom.mpr ⟨(lookup_keepFrom.mp hkeep).1, by show _ ≤ o.markedAt; omega⟩
      · exact absurd hpast (by omega)
  acks item hitem := h.acks item (hm.outbox.perm.mem_iff.mp hitem)
  acked := h.acked

theorem acknowledge (h : Safe mail m messages opened acked prunedAt) {ids : List MessageId}
    (hids : ∀ id ∈ ids, Settled mail messages opened id) :
    Safe mail m messages opened (acked ++ ids) prunedAt :=
  { h with acked := fun id hid => (List.mem_append.mp hid).elim (h.acked id) (hids id) }

end Safe

end Safe

end Cmp.Client
