import Cmp.Client.InboxRuns
import Cmp.Client.Markers

/-! Inbound bookkeeping of one peer beside that of another. Markers are kept by peer and message
id, but a confirmed acknowledgement removes them by id, and the history has one row for an id.
While no id is used twice, an event about one peer leaves the markers of all others alone, and
what is acknowledged is in the history. -/

namespace Cmp.Client

open Cmp.Crypto Cmp.Protocol Cmp.Lib Cmp.Lib.Action

variable {K Sec C : Type} {S : IdentitySuite K Sec C} {texts : List MessageId → Bytes}
  {parses : String → Bool}

/-! ## Runs -/

/-- What concerns inbound messages: `process_inbound`, a read receipt, and the reply to an
acknowledgement of the messages `keys`; any other operation of the manager, such as queueing an
acknowledgement; and an own message in the history. -/
inductive BookEvent (Sec C : Type)
  | process (inbound : InboundMessage C) (env : InboundEnv Sec)
  | receipt (senderId : UserId) (receiptId : MessageId) (envelope : EncryptedEnvelope C)
      (env : DecryptEnv Sec) (confirmFails : Bool)
  | ackSuccess (ackId : MessageId) (keys : List (UserId × MessageId)) (fails : Bool)
  | other (op : Op Sec C)
  | sent (peerId : UserId) (messageId : MessageId) (body : String)

/-- The messages an event is about. -/
def BookEvent.about : BookEvent Sec C → List (UserId × MessageId)
  | .process inbound _ => [(inbound.senderId, inbound.messageId)]
  | .receipt senderId receiptId _ _ _ => [(senderId, receiptId)]
  | .ackSuccess _ keys _ => keys
  | .other _ => []
  | .sent .. => []

def BookEvent.apply (S : IdentitySuite K Sec C) (texts : List MessageId → Bytes)
    (parses : String → Bool) (app : App K Sec C) : BookEvent Sec C → App K Sec C
  | .process inbound env => finalState ((App.processInbound S inbound env).run app)
  | .receipt senderId receiptId envelope env confirmFails =>
    finalState ((App.openReadReceipt S parses senderId receiptId envelope env confirmFails).run app)
  | .ackSuccess ackId keys fails =>
    { app with crypto :=
      finalState ((confirmAcked ackId (keys.map Prod.snd) fails).run app.crypto) }
  | .other op => { app with crypto := finalState ((perform S texts op).run app.crypto) }
  | .sent peerId messageId body =>
    { app with messages := (insertMessage ⟨peerId, .sent, messageId, body⟩ app.messages).1 }

/-- An application with the text each message was last decrypted to. -/
structure Bookkeeping (K Sec C : Type) where
  app : App K Sec C
  decrypted : UserId × MessageId → Option String

/-- The texts after an answer of `decrypt_message_to_text`. -/
def decryptedAfter (decrypted : UserId × MessageId → Option String) (key : UserId × MessageId) :
    Option InboundDecrypt → UserId × MessageId → Option String
  | some (.pending text) => Function.update decrypted key (some text)
  | _ => decrypted

def BookEvent.decrypted (S : IdentitySuite K Sec C) (b : Bookkeeping K Sec C) :
    BookEvent Sec C → UserId × MessageId → Option String
  | .process inbound env =>
    decryptedAfter b.decrypted (inbound.senderId, inbound.messageId)
      (value? ((decryptMessageToText S inbound.senderId inbound.messageId inbound.envelope
        env.decrypt).run b.app.crypto))
  | _ => b.decrypted

def Bookkeeping.step (S : IdentitySuite K Sec C) (texts : List MessageId → Bytes)
    (parses : String → Bool) (b : Bookkeeping K Sec C) (e : BookEvent Sec C) :
    Bookkeeping K Sec C where
  app := e.apply S texts parses b.app
  decrypted := e.decrypted S b

/-- Runs of one client from an empty data directory whose events meet `guard`. -/
inductive BookRun (S : IdentitySuite K Sec C) (texts : List MessageId → Bytes)
    (parses : String → Bool) (guard : Bookkeeping K Sec C → BookEvent Sec C → Prop) :
    Bookkeeping K Sec C → Prop
  | start (userId : UserId) (identity : Sec) (loadedAt cutoffNow pruneNow : Nat)
      (m : Manager K Sec C)
      (hload :
        loadOrGenerate identity (CryptoStore.empty K Sec C) loadedAt cutoffNow pruneNow false =
        .ok m) :
      BookRun S texts parses guard ⟨App.new userId m [], fun _ => none⟩
  | event {b : Bookkeeping K Sec C} (run : BookRun S texts parses guard b) (e : BookEvent Sec C)
      (hguard : guard b e) : BookRun S texts parses guard (b.step S texts parses e)
  | restart {b : Bookkeeping K Sec C} (run : BookRun S texts parses guard b)
      (loadedAt cutoffNow pruneNow : Nat) (m : Manager K Sec C)
      (hload : loadOrGenerate b.app.crypto.identity b.app.crypto.store loadedAt cutoffNow pruneNow
        false = .ok m) :
      BookRun S texts parses guard { b with app := App.new b.app.userId m b.app.messages }

/-- Operations that write markers are events of their own. -/
def BookEvent.Proper : BookEvent Sec C → Prop
  | .other op => op.writesMarkers = false
  | _ => True

/-- A decryption prunes no marker of a peer other than the sender. -/
def Manager.PrunesOnly (m : Manager K Sec C) (senderId : UserId) (env : DecryptEnv Sec) : Prop :=
  ∀ key : UserId × MessageId, key.1 ≠ senderId →
    m.Recent env.now key ∧ m.Recent env.pruneNow key

/-- No id is used twice: a message whose id is in the history is a redelivery of that row, a
receipt does not have the id of a message of its sender, and no marker of another peer has an
acknowledged id. And no marker of another peer is so old that it is pruned. -/
def BookEvent.Separate (b : Bookkeeping K Sec C) : BookEvent Sec C → Prop
  | .process inbound env =>
    (∀ row ∈ b.app.messages, row.messageId = inbound.messageId →
      ∃ processed, b.app.crypto.processedMessages.lookup (inbound.senderId, inbound.messageId) =
        some processed ∧ ∀ text, processed.pendingPlaintext = some text →
          row = ⟨inbound.senderId, .received, inbound.messageId, text⟩) ∧
    b.app.crypto.PrunesOnly inbound.senderId env.decrypt
  | .receipt senderId receiptId _ env _ =>
    b.decrypted (senderId, receiptId) = none ∧ b.app.crypto.PrunesOnly senderId env
  | .ackSuccess _ keys _ =>
    ∀ key ∈ keys, ∀ other : UserId, other ≠ key.1 → ¬ b.app.crypto.Marks (other, key.2)
  | _ => True

/-- The events of the runs below. -/
def BookEvent.Apart (b : Bookkeeping K Sec C) (e : BookEvent Sec C) : Prop :=
  e.Proper ∧ e.Separate b

/-! ## Markers of other peers -/

variable {envelope : EncryptedEnvelope C}

section Frame

variable {m m' : Manager K Sec C} {app app' : App K Sec C} {key : UserId × MessageId}

theorem DecryptResult.markersAt {peerId : UserId} {messageId : MessageId} {env : DecryptEnv Sec}
    {answer : InboundDecrypt} (h : DecryptResult S m peerId messageId envelope env answer m')
    (hne : key ≠ (peerId, messageId)) (hnow : m.Recent env.now key)
    (hprune : m.Recent env.pruneNow key) : m'.markersAt key = m.markersAt key := by
  cases h with
  | failed | known => rfl
  | pruned => exact Manager.markersAt_pruned hnow
  | unsaved =>
    rw [Manager.markersAt_prunedInMemory fun row hrow => hprune row hrow.of_pruned,
      Manager.markersAt_pruned hnow]
  | decrypted =>
    rw [Manager.markersAt_marked hne, Manager.markersAt_opened hnow hprune]

theorem InboundResult.markersAt {inbound : InboundMessage C} {env : InboundEnv Sec}
    {shouldAck fresh : Bool} (h : InboundResult S app inbound env shouldAck fresh app')
    (hne : key ≠ (inbound.senderId, inbound.messageId))
    (hnow : app.crypto.Recent env.decrypt.now key)
    (hprune : app.crypto.Recent env.decrypt.pruneNow key) :
    app'.crypto.markersAt key = app.crypto.markersAt key := by
  have hdecrypt : ∀ {answer m}, (decryptMessageToText S inbound.senderId inbound.messageId
      inbound.envelope env.decrypt).run app.crypto = .ok answer m →
        m.markersAt key = app.crypto.markersAt key :=
    fun hrun => (decryptResult_of_run hrun).1.markersAt hne hnow hprune
  cases h with
  | answered answer m hrun | unwritten text m hrun | unconfirmed text m hrun => exact hdecrypt hrun
  | stored text m m' hrun hconfirm =>
    rcases hconfirm with rfl | ⟨processed, -, rfl⟩
    · exact hdecrypt hrun
    · exact (Manager.markersAt_committed hne).trans (hdecrypt hrun)

theorem ReceiptResult.markersAt {senderId : UserId} {receiptId : MessageId} {env : DecryptEnv Sec}
    (h : ReceiptResult S app senderId receiptId envelope env app')
    (hne : key ≠ (senderId, receiptId)) (hnow : app.crypto.Recent env.now key)
    (hprune : app.crypto.Recent env.pruneNow key) :
    app'.crypto.markersAt key = app.crypto.markersAt key := by
  cases h with
  | answered answer m hrun => exact (decryptResult_of_run hrun).1.markersAt hne hnow hprune
  | confirmed answer m processed hrun hmarker =>
    exact (Manager.markersAt_committed hne).trans
      ((decryptResult_of_run hrun).1.markersAt hne hnow hprune)

/-- An event about messages of `a` leaves the markers of any other peer alone. -/
theorem BookEvent.markersAt {b : Bookkeeping K Sec C} (hsound : b.app.crypto.Sound)
    {e : BookEvent Sec C} (hapart : e.Apart b) {a other : UserId}
    (habout : ∀ key ∈ e.about, key.1 = a) (hne : a ≠ other) (messageId : MessageId) :
    (e.apply S texts parses b.app).crypto.markersAt (other, messageId) =
      b.app.crypto.markersAt (other, messageId) := by
  obtain ⟨hproper, hseparate⟩ := hapart
  cases e with
  | process inbound env =>
    have hsender : inbound.senderId = a := habout _ (List.mem_singleton.mpr rfl)
    have hother : other ≠ inbound.senderId := hsender ▸ hne.symm
    obtain ⟨shouldAck, fresh, app', hrun, hresult⟩ := processInbound_result S inbound env b.app
    have hrecent := hseparate.2 (other, messageId) hother
    rw [BookEvent.apply, hrun]
    exact hresult.markersAt (fun heq => hother (congrArg Prod.fst heq)) hrecent.1 hrecent.2
  | receipt senderId receiptId envelope env confirmFails =>
    have hsender : senderId = a := habout _ (List.mem_singleton.mpr rfl)
    have hother : other ≠ senderId := hsender ▸ hne.symm
    obtain ⟨shouldAck, app', hrun, hresult⟩ :=
      openReadReceipt_result S parses senderId receiptId envelope env confirmFails b.app
    have hrecent := hseparate.2 (other, messageId) hother
    rw [BookEvent.apply, hrun]
    exact hresult.markersAt (fun heq => hother (congrArg Prod.fst heq)) hrecent.1 hrecent.2
  | ackSuccess ackId keys fails =>
    rw [BookEvent.apply]
    rcases confirmAcked_cases ackId (keys.map Prod.snd) fails b.app.crypto with
      hsame | ⟨index, item, -, -, hrun⟩
    · rw [hsame]
    · rw [hrun]
      refine Manager.markersAt_unmarked fun hid => ?_
      obtain ⟨key, hkey, hid⟩ := List.mem_map.mp hid
      have hunmarked := hseparate key hkey other (habout key hkey ▸ hne.symm)
      rw [hid] at hunmarked
      exact hunmarked
  | other op => exact (perform_outcome texts hsound op).markersAt hproper _
  | sent => rfl

end Frame

/-! ## What is acknowledged -/

section Acknowledged

variable {m m' : Manager K Sec C} {app app' : App K Sec C} {messages : List HistoryRow}
  {decrypted : UserId × MessageId → Option String} {inbound : InboundMessage C}
  {env : InboundEnv Sec}

theorem insertMessage_subset (row : HistoryRow) (messages : List HistoryRow) :
    messages ⊆ (insertMessage row messages).1 := by
  unfold insertMessage
  split
  · exact List.Subset.refl _
  · exact List.subset_append_left _ _

/-- A row is there after its insertion if the rows with its id are that row. -/
theorem mem_insertMessage {row : HistoryRow}
    (h : ∀ old ∈ messages, old.messageId = row.messageId → old = row) :
    row ∈ (insertMessage row messages).1 := by
  unfold insertMessage
  split
  · next hid =>
    obtain ⟨old, hold, heq⟩ := List.mem_map.mp hid
    exact h old hold heq ▸ hold
  · exact List.mem_append_right _ (List.mem_singleton.mpr rfl)

/-- A marker holds the text its message was decrypted to, or that text is in the history. -/
def ProcessedMessage.Records (decrypted : UserId × MessageId → Option String)
    (messages : List HistoryRow) (key : UserId × MessageId) (row : ProcessedMessage) : Prop :=
  ∀ text, decrypted key = some text → row.pendingPlaintext = some text ∨
    (row.pendingPlaintext = none ∧ ⟨key.1, .received, key.2, text⟩ ∈ messages)

def Manager.Recorded (decrypted : UserId × MessageId → Option String) (messages : List HistoryRow)
    (m : Manager K Sec C) : Prop :=
  ∀ key row, m.MarkedAs key row → row.Records decrypted messages key

theorem Manager.Recorded.mono {messages' : List HistoryRow} (h : m.Recorded decrypted messages)
    (hsub : messages ⊆ messages') : m.Recorded decrypted messages' :=
  fun key row hrow text htext => (h key row hrow text htext).imp_right fun h => ⟨h.1, hsub h.2⟩

variable {processed : ProcessedMessage}

theorem Manager.Recorded.committed (h : m.Recorded decrypted messages) {key : UserId × MessageId}
    (hmarker : m.processedMessages.lookup key = some processed)
    (hstored : ∀ text, decrypted key = some text → ⟨key.1, .received, key.2, text⟩ ∈ messages) :
    (m.committed key processed).Recorded decrypted messages := by
  intro other row hrow
  rcases hrow.of_committed hmarker with hrow | ⟨rfl, hnone, -⟩
  · exact h other row hrow
  · exact fun text htext => .inr ⟨hnone, hstored text htext⟩

section Decrypt

variable {peerId : UserId} {messageId : MessageId} {envelope : EncryptedEnvelope C}
  {env : DecryptEnv Sec} {answer : InboundDecrypt}

/-- Without a text of that message, a decryption changes nothing that is recorded. -/
theorem DecryptResult.recorded_other
    (hresult : DecryptResult S m peerId messageId envelope env answer m')
    (h : m.Recorded decrypted messages) (hnone : decrypted (peerId, messageId) = none) :
    m'.Recorded decrypted messages := by
  cases hresult with
  | failed | known => exact h
  | pruned => exact fun key row hrow => h key row hrow.of_pruned
  | unsaved => exact fun key row hrow => h key row hrow.of_prunedInMemory.of_pruned
  | decrypted plaintext session opkId hopens hnew hempty =>
    intro key row hrow
    rcases hrow.of_marked with ⟨rfl, rfl⟩ | ⟨-, hrow⟩
    · exact fun text htext => by cases hnone.symm.trans htext
    · exact h key row hrow.of_opened

/-- The text that is handed out is in every marker of the message. -/
theorem DecryptResult.recorded
    (hresult : DecryptResult S m peerId messageId envelope env answer m')
    (h : m.Recorded decrypted messages) (hagree : m.MarkersAgree) :
    m'.Recorded (decryptedAfter decrypted (peerId, messageId) (some answer)) messages := by
  cases hresult with
  | failed => exact h
  | known processed hmarker =>
    unfold ProcessedMessage.answer
    cases hpending : processed.pendingPlaintext with
    | none => exact h
    | some text =>
      intro key row hrow text' htext
      by_cases hkey : key = (peerId, messageId)
      · subst hkey
        have hsame : processed = row := by
          rcases hrow with hrow | hrow
          · exact Option.some.inj (hmarker.symm.trans hrow)
          · exact hagree _ _ _ hmarker hrow
        rw [decryptedAfter, Function.update_self] at htext
        exact .inl (hsame ▸ hpending.trans htext)
      · rw [decryptedAfter, Function.update_of_ne hkey] at htext
        exact h key row hrow text' htext
  | pruned => exact fun key row hrow => h key row hrow.of_pruned
  | unsaved => exact fun key row hrow => h key row hrow.of_prunedInMemory.of_pruned
  | decrypted plaintext session opkId hopens hnew hempty =>
    intro key row hrow text' htext
    rcases hrow.of_marked with ⟨rfl, rfl⟩ | ⟨hne, hrow⟩
    · rw [decryptedAfter, Function.update_self] at htext
      exact .inl htext
    · rw [decryptedAfter, Function.update_of_ne hne] at htext
      exact h key row hrow.of_opened text' htext

theorem ProcessedMessage.pending_of_answer {text : String} (h : processed.answer = .pending text) :
    processed.pendingPlaintext = some text := by
  unfold ProcessedMessage.answer at h
  split at h
  · cases h
  · next hpending =>
    cases h
    exact hpending

theorem ProcessedMessage.committed_of_answer (h : processed.answer = .duplicate) :
    processed.pendingPlaintext = none := by
  unfold ProcessedMessage.answer at h
  split at h
  · next hpending => exact hpending
  · cases h

/-- A text that is handed out for a message with a marker is the marker's. -/
theorem DecryptResult.pending_text {text : String}
    (h : DecryptResult S m peerId messageId envelope env (.pending text) m')
    (hmarker : m.processedMessages.lookup (peerId, messageId) = some processed) :
    processed.pendingPlaintext = some text := by
  generalize hanswer : InboundDecrypt.pending text = answer at h
  cases h with
  | known processed' hmarker' =>
    cases hmarker.symm.trans hmarker'
    exact ProcessedMessage.pending_of_answer hanswer.symm
  | decrypted plaintext session opkId hopens hnew hnone => cases hmarker.symm.trans hnew
  | _ => cases hanswer

/-- A duplicate has a marker without a text. -/
theorem DecryptResult.duplicate_marker
    (h : DecryptResult S m peerId messageId envelope env .duplicate m') :
    ∃ processed, m.processedMessages.lookup (peerId, messageId) = some processed ∧
      processed.pendingPlaintext = none := by
  generalize hanswer : InboundDecrypt.duplicate = answer at h
  cases h with
  | known processed hmarker =>
    exact ⟨processed, hmarker, ProcessedMessage.committed_of_answer hanswer.symm⟩
  | _ => cases hanswer

end Decrypt

/-- `process_inbound` keeps the records, and a message it answers with `should_ack` is in the
history. -/
theorem InboundResult.recorded {b : Bookkeeping K Sec C} {shouldAck fresh : Bool}
    (hresult : InboundResult S b.app inbound env shouldAck fresh app')
    (hseparate : (BookEvent.process inbound env).Separate b)
    (h : b.app.crypto.Recorded b.decrypted b.app.messages) (hagree : b.app.crypto.MarkersAgree) :
    app'.crypto.Recorded ((BookEvent.process inbound env).decrypted S b) app'.messages ∧
      (shouldAck = true → ∀ text, (BookEvent.process inbound env).decrypted S b
          (inbound.senderId, inbound.messageId) = some text →
        ⟨inbound.senderId, .received, inbound.messageId, text⟩ ∈ app'.messages) := by
  rw [BookEvent.decrypted]
  cases hresult with
  | answered answer m hrun hanswer =>
    have hdecrypt := (decryptResult_of_run hrun).1
    rw [hrun]
    refine ⟨hdecrypt.recorded h hagree, fun hack text htext => ?_⟩
    cases of_decide_eq_true hack
    obtain ⟨processed, hmarker, hnone⟩ := hdecrypt.duplicate_marker
    rcases h _ _ (.inl hmarker) text htext with hpending | ⟨-, hstored⟩
    · cases hnone.symm.trans hpending
    · exact hstored
  | unwritten text m hrun =>
    rw [hrun]
    exact ⟨(decryptResult_of_run hrun).1.recorded h hagree, fun hack => by cases hack⟩
  | unconfirmed text m hrun =>
    rw [hrun]
    exact ⟨((decryptResult_of_run hrun).1.recorded h hagree).mono (insertMessage_subset _ _),
      fun hack => by cases hack⟩
  | stored text m m' hrun hconfirm =>
    have hdecrypt := (decryptResult_of_run hrun).1
    have hinserted : (⟨inbound.senderId, .received, inbound.messageId, text⟩ : HistoryRow) ∈
        (insertMessage ⟨inbound.senderId, .received, inbound.messageId, text⟩
          b.app.messages).1 := by
      refine mem_insertMessage fun old hold hid => ?_
      obtain ⟨processed, hmarker, hrow⟩ := hseparate.1 old hold hid
      exact hrow text (hdecrypt.pending_text hmarker)
    rw [hrun]
    have hstored : ∀ text', decryptedAfter b.decrypted (inbound.senderId, inbound.messageId)
        (some (.pending text)) (inbound.senderId, inbound.messageId) = some text' →
          (⟨inbound.senderId, .received, inbound.messageId, text'⟩ : HistoryRow) ∈
            (insertMessage ⟨inbound.senderId, .received, inbound.messageId, text⟩
              b.app.messages).1 := by
      intro text' htext
      rw [decryptedAfter, Function.update_self] at htext
      cases htext
      exact hinserted
    refine ⟨?_, fun _ => hstored⟩
    have hrecorded := (hdecrypt.recorded h hagree).mono (insertMessage_subset
      ⟨inbound.senderId, .received, inbound.messageId, text⟩ b.app.messages)
    rcases hconfirm with rfl | ⟨processed, hmarker, rfl⟩
    · exact hrecorded
    · exact hrecorded.committed hmarker hstored

theorem ReceiptResult.recorded {senderId : UserId} {receiptId : MessageId} {env : DecryptEnv Sec}
    (hresult : ReceiptResult S app senderId receiptId envelope env app')
    (h : app.crypto.Recorded decrypted app.messages)
    (hnone : decrypted (senderId, receiptId) = none) :
    app'.crypto.Recorded decrypted app'.messages := by
  cases hresult with
  | answered answer m hrun => exact (decryptResult_of_run hrun).1.recorded_other h hnone
  | confirmed answer m processed hrun hmarker =>
    exact ((decryptResult_of_run hrun).1.recorded_other h hnone).committed hmarker
      fun text htext => by cases hnone.symm.trans htext

end Acknowledged

/-! ## Whole runs -/

section Runs

variable {app app' : App K Sec C} {b : Bookkeeping K Sec C}

/-- What the manager's own invariants say in every state of a run. -/
structure Manager.Consistent (m : Manager K Sec C) : Prop where
  durable : ∃ prunedAt, m.Durable prunedAt
  agree : m.MarkersAgree

theorem Manager.Consistent.outcome {m m' : Manager K Sec C} {op : Op Sec C}
    {sent : List (UserId × EncryptedEnvelope C)} (hm : m.Consistent)
    (h : Outcome S m op sent m') : m'.Consistent :=
  ⟨⟨_, Manager.Durable.outcome h hm.durable.choose_spec⟩, h.markersAgree hm.agree⟩

theorem InboundResult.consistent {inbound : InboundMessage C} {env : InboundEnv Sec}
    {shouldAck fresh : Bool} (h : InboundResult S app inbound env shouldAck fresh app')
    (hm : app.crypto.Consistent) : app'.crypto.Consistent := by
  have hdecrypt : ∀ {answer m}, (decryptMessageToText S inbound.senderId inbound.messageId
      inbound.envelope env.decrypt).run app.crypto = .ok answer m → m.Consistent :=
    fun hrun => hm.outcome (decryptResult_of_run hrun).1.outcome
  cases h with
  | answered answer m hrun | unwritten text m hrun | unconfirmed text m hrun => exact hdecrypt hrun
  | stored text m m' hrun hconfirm =>
    rcases hconfirm with rfl | ⟨processed, hmarker, rfl⟩
    · exact hdecrypt hrun
    · exact (hdecrypt hrun).outcome (Outcome.storedInbound (S := S) _ _ false processed hmarker)

theorem ReceiptResult.consistent {senderId : UserId} {receiptId : MessageId} {env : DecryptEnv Sec}
    (h : ReceiptResult S app senderId receiptId envelope env app') (hm : app.crypto.Consistent) :
    app'.crypto.Consistent := by
  cases h with
  | answered answer m hrun => exact hm.outcome (decryptResult_of_run hrun).1.outcome
  | confirmed answer m processed hrun hmarker =>
    exact (hm.outcome (decryptResult_of_run hrun).1.outcome).outcome
      (Outcome.storedInbound (S := S) _ _ false processed hmarker)

theorem BookEvent.consistent (e : BookEvent Sec C) (hm : app.crypto.Consistent) :
    (e.apply S texts parses app).crypto.Consistent := by
  cases e with
  | process inbound env =>
    obtain ⟨shouldAck, fresh, app', hrun, hresult⟩ := processInbound_result S inbound env app
    rw [BookEvent.apply, hrun]
    exact hresult.consistent hm
  | receipt senderId receiptId envelope env confirmFails =>
    obtain ⟨shouldAck, app', hrun, hresult⟩ :=
      openReadReceipt_result S parses senderId receiptId envelope env confirmFails app
    rw [BookEvent.apply, hrun]
    exact hresult.consistent hm
  | ackSuccess ackId keys fails =>
    rw [BookEvent.apply]
    rcases confirmAcked_cases ackId (keys.map Prod.snd) fails app.crypto with
      hsame | ⟨index, item, hitem, hids, hrun⟩
    · rw [hsame]
      exact hm
    · rw [hrun]
      exact hm.outcome (Outcome.acked (S := S) ackId _ fails index item hitem hids)
  | other op => exact hm.outcome (perform_outcome texts hm.durable.choose_spec.sound op)
  | sent => exact hm

theorem BookRun.consistent {guard : Bookkeeping K Sec C → BookEvent Sec C → Prop}
    (run : BookRun S texts parses guard b) : b.app.crypto.Consistent := by
  induction run with
  | start userId identity loadedAt cutoffNow pruneNow m hload =>
    refine ⟨⟨0, Manager.Durable.start hload⟩, ?_⟩
    cases hload
    intro key row stored hrow
    cases Manager.MarkedAs.of_keepFrom hrow
  | event run e hguard ih => exact e.consistent ih
  | restart run loadedAt cutoffNow pruneNow m hload ih =>
    obtain ⟨prunedAt, hm⟩ := ih.durable
    rw [hm.load] at hload
    cases hload
    exact ⟨⟨_, hm.reloaded cutoffNow pruneNow⟩, .reloaded _ _ _⟩

theorem Bookkeeping.recorded_step {e : BookEvent Sec C} (hm : b.app.crypto.Consistent)
    (hapart : e.Apart b) (h : b.app.crypto.Recorded b.decrypted b.app.messages) :
    (b.step S texts parses e).app.crypto.Recorded (b.step S texts parses e).decrypted
      (b.step S texts parses e).app.messages := by
  obtain ⟨hproper, hseparate⟩ := hapart
  cases e with
  | process inbound env =>
    obtain ⟨shouldAck, fresh, app', hrun, hresult⟩ := processInbound_result S inbound env b.app
    rw [Bookkeeping.step, BookEvent.apply, hrun]
    exact (hresult.recorded hseparate h hm.agree).1
  | receipt senderId receiptId envelope env confirmFails =>
    obtain ⟨shouldAck, app', hrun, hresult⟩ :=
      openReadReceipt_result S parses senderId receiptId envelope env confirmFails b.app
    rw [Bookkeeping.step, BookEvent.apply, hrun]
    exact hresult.recorded h hseparate.1
  | ackSuccess ackId keys fails =>
    rw [Bookkeeping.step, BookEvent.apply]
    rcases confirmAcked_cases ackId (keys.map Prod.snd) fails b.app.crypto with
      hsame | ⟨index, item, -, -, hrun⟩
    · rw [hsame]
      exact h
    · rw [hrun]
      exact fun key row hrow => h key row (Manager.MarkedAs.of_unmarked hrow)
  | other op =>
    intro key row hrow
    have houtcome := perform_outcome (S := S) texts hm.durable.choose_spec.sound op
    exact h key row (Manager.markedAs_congr (houtcome.markersAt hproper key) hrow)
  | sent peerId messageId body => exact h.mono (insertMessage_subset _ _)

theorem BookRun.recorded (run : BookRun S texts parses (fun b e => e.Apart b) b) :
    b.app.crypto.Recorded b.decrypted b.app.messages := by
  induction run with
  | start userId identity loadedAt cutoffNow pruneNow m hload =>
    cases hload
    rintro key row (hrow | hrow)
    · cases Manager.MarkedAs.of_keepFrom hrow
    · cases Manager.MarkedAs.of_keepFrom hrow
  | event run e hguard ih => exact Bookkeeping.recorded_step run.consistent hguard ih
  | restart run loadedAt cutoffNow pruneNow m hload ih =>
    obtain ⟨prunedAt, hm⟩ := run.consistent.durable
    rw [hm.load] at hload
    cases hload
    exact fun key row hrow => ih key row hrow.of_reloaded

/-- **Peers do not touch each other's inbound bookkeeping while no id is used twice.** An event
about messages of one peer leaves every marker of another peer as it was, with its text; and a
message that `process_inbound` answers with `should_ack` is in the history under its sender, with
the text it was decrypted to. -/
theorem peers_kept_apart (run : BookRun S texts parses (fun b e => e.Apart b) b) :
    (∀ (e : BookEvent Sec C) (a other : UserId), e.Apart b → (∀ key ∈ e.about, key.1 = a) →
      a ≠ other → ∀ messageId,
        (b.step S texts parses e).app.crypto.markersAt (other, messageId) =
          b.app.crypto.markersAt (other, messageId)) ∧
    ∀ (inbound : InboundMessage C) (env : InboundEnv Sec) (fresh : Bool) (app' : App K Sec C),
      (BookEvent.process inbound env).Apart b →
      (App.processInbound S inbound env).run b.app =
        .ok (inbound.senderId, inbound.messageId, true, fresh) app' →
      ∀ text, (b.step S texts parses (.process inbound env)).decrypted
          (inbound.senderId, inbound.messageId) = some text →
        ⟨inbound.senderId, .received, inbound.messageId, text⟩ ∈ app'.messages := by
  have hm := run.consistent
  refine ⟨fun e a other hapart habout hne messageId =>
    e.markersAt hm.durable.choose_spec.sound hapart habout hne messageId, ?_⟩
  intro inbound env fresh app' hapart hrun text htext
  obtain ⟨shouldAck, _, _, hrun', hresult⟩ := processInbound_result S inbound env b.app
  cases hrun.symm.trans hrun'
  exact (hresult.recorded hapart.2 run.recorded hm.agree).2 rfl text htext

end Runs

/-! ## Two peers and one id -/

def carol : UserId := ⟨"carol", by decide⟩

def carolOps : List (Op Key32 Ciphertext) :=
  [.initSessionFromBundle bob
      (publishedBundle symbolicIdentity (key32 9)
        (SignedPreKey.generate symbolicIdentity 1 (key32 9) (key32 8)) none)
      (key32 22) (key32 23) 0 false,
    .encryptMessage bob bob ⟨1⟩ [105] false]

/-- Carol's first message to Bob. -/
def carolEnvelope : EncryptedEnvelope Ciphertext :=
  match (carolOps.foldl (Trace.step symbolicIdentity fun _ => [])
      ⟨newManager (key32 21), [], [], [], 0⟩).sent with
  | (_, envelope) :: _ => envelope
  | [] => firstEnvelope

def bobStep (b : Bookkeeping Term Key32 Ciphertext) (e : BookEvent Key32 Ciphertext) :
    Bookkeeping Term Key32 Ciphertext :=
  b.step symbolicIdentity (fun _ => []) (fun _ => true) e

/-- Bob has registered. -/
def bobBooks : Bookkeeping Term Key32 Ciphertext :=
  bobStep ⟨App.new bob (newManager (key32 9)) [], fun _ => none⟩ (.other bobRegisters)

theorem bobBooks_run {guard : Bookkeeping Term Key32 Ciphertext → BookEvent Key32 Ciphertext → Prop}
    (hguard : ∀ b, guard b (.other bobRegisters)) :
    BookRun symbolicIdentity (fun _ => []) (fun _ => true) guard bobBooks :=
  .event (.start bob (key32 9) 0 0 0 (newManager (key32 9)) rfl) _ (hguard _)

/-- Alice's message under id 1, and Carol's under `id`, which the history may refuse. -/
def fromAlice : BookEvent Key32 Ciphertext :=
  .process ⟨⟨1⟩, alice, firstEnvelope⟩ ⟨⟨200, 200, 200, key32 7, false, false⟩, false, false⟩

def carolInbound (id : MessageId) : InboundMessage Ciphertext := ⟨id, carol, carolEnvelope⟩

def carolEnv (historyFails : Bool) : InboundEnv Key32 :=
  ⟨⟨200, 200, 200, key32 27, false, false⟩, historyFails, false⟩

def fromCarol (id : MessageId) (historyFails : Bool) : BookEvent Key32 Ciphertext :=
  .process (carolInbound id) (carolEnv historyFails)

theorem Manager.recent_early {m : Manager K Sec C} {now : Nat} (h : now ≤ RETENTION_SECS)
    (key : UserId × MessageId) : m.Recent now key := by
  intro row _
  rw [Nat.sub_eq_zero_of_le h]
  exact Nat.zero_le _

theorem fromCarol_apart {b : Bookkeeping Term Key32 Ciphertext} (h : b.app.messages = [])
    (id : MessageId) (historyFails : Bool) : (fromCarol id historyFails).Apart b := by
  have hearly : 200 ≤ RETENTION_SECS := by decide
  refine ⟨trivial, fun row hrow => ?_, fun key _ => ?_⟩
  · rw [h] at hrow
    cases hrow
  · exact ⟨Manager.recent_early hearly key, Manager.recent_early hearly key⟩

set_option maxRecDepth 4000 in
theorem peers_kept_apart_bob :
    let waiting := bobStep bobBooks (fromCarol ⟨2⟩ true)
    waiting.app.crypto.markersAt (carol, ⟨2⟩) = (some ⟨some "i", 200⟩, some ⟨some "i", 200⟩) ∧
      (bobStep waiting fromAlice).app.crypto.markersAt (carol, ⟨2⟩) =
        waiting.app.crypto.markersAt (carol, ⟨2⟩) := by
  have run : BookRun symbolicIdentity (fun _ => []) (fun _ => true) (fun b e => e.Apart b)
      (bobStep bobBooks (fromCarol ⟨2⟩ true)) :=
    .event (bobBooks_run fun _ => ⟨rfl, trivial⟩) _ (fromCarol_apart rfl _ _)
  have hapart : fromAlice.Apart (bobStep bobBooks (fromCarol ⟨2⟩ true)) := by
    refine ⟨trivial, fun row hrow => ?_, fun key _ => ?_⟩
    · cases hrow
    · exact ⟨Manager.recent_early (by decide) key, Manager.recent_early (by decide) key⟩
  refine ⟨rfl, (peers_kept_apart run).1 fromAlice alice carol hapart ?_ (by decide) ⟨2⟩⟩
  intro key hkey
  cases List.mem_singleton.mp hkey
  rfl

set_option maxRecDepth 4000 in
/-- Both peers use id 1. When Carol's message waits for the history, the confirmation of Alice's
removes it; when it comes after Alice's, it is acknowledged and is nowhere. -/
theorem peers_not_kept_apart :
    (∃ b, BookRun symbolicIdentity (fun _ => []) (fun _ => true) (fun _ e => e.Proper) b ∧
      b.app.crypto.markersAt (carol, ⟨1⟩) = (some ⟨some "i", 200⟩, some ⟨some "i", 200⟩) ∧
      (bobStep b (.ackSuccess ⟨50⟩ [(alice, ⟨1⟩)] false)).app.crypto.markersAt (carol, ⟨1⟩) =
        (none, none)) ∧
    ∃ b fresh app', BookRun symbolicIdentity (fun _ => []) (fun _ => true) (fun _ e => e.Proper) b ∧
      (App.processInbound symbolicIdentity (carolInbound ⟨1⟩) (carolEnv false)).run b.app =
        .ok (carol, ⟨1⟩, true, fresh) app' ∧
      (bobStep b (fromCarol ⟨1⟩ false)).decrypted (carol, ⟨1⟩) = some "i" ∧
      ⟨carol, .received, ⟨1⟩, "i"⟩ ∉ app'.messages := by
  have registered : BookRun symbolicIdentity (fun _ => []) (fun _ => true) (fun _ e => e.Proper)
      bobBooks := bobBooks_run fun _ => rfl
  constructor
  · have waiting := BookRun.event registered (fromCarol ⟨1⟩ true) trivial
    have stored := BookRun.event waiting fromAlice trivial
    exact ⟨_, .event stored (.other (.queueAck [⟨1⟩] ⟨50⟩ false)) rfl, rfl, rfl⟩
  · have stored := BookRun.event registered fromAlice trivial
    exact ⟨_, _, _, stored, rfl, rfl, by decide⟩

end Cmp.Client
