import Cmp.Client.App
import Cmp.Client.PrekeyOutcomes

/-! Runs of a client as its inbound side sees them: deliveries with `process_inbound`,
receipts, any other operation of the manager, own messages put into the history, and
restarts. The run remembers every successful call of the ratchet for an inbound
envelope, whether its result was stored, and the ids answered with `should_ack`. -/

namespace Cmp.Client

open Cmp.Crypto Cmp.Protocol Cmp.Lib Cmp.Lib.Action

variable {K Sec C : Type}

/-! ## Calls of the ratchet -/

/-- The ratchet that would decrypt an envelope of a peer: the stored session's, or
that of a new session for a PreKey envelope. -/
def receivingRatchet (S : IdentitySuite K Sec C) (m : Manager K Sec C) (peerId : UserId)
    (envelope : EncryptedEnvelope C) : Option (SessionState K Sec) :=
  match m.sessions.lookup peerId with
  | some session => some session.ratchet
  | none =>
    match envelope.header with
    | .ratchet _ => none
    | .preKey identityKey ephemeralKey spkId opkId proto =>
      match decodePreKey envelope identityKey ephemeralKey spkId opkId proto with
      | .error _ => none
      | .ok fields =>
        (createBobSession S m fields.senderIdentityKey fields.senderEphemeralKey spkId
          opkId).toOption

/-- The plaintext of the ratchet call inside `decrypt_message_to_text`, if that call is
reached and succeeds. -/
def ratchetOpens (S : IdentitySuite K Sec C) (m : Manager K Sec C) (peerId : UserId)
    (messageId : MessageId) (envelope : EncryptedEnvelope C) (env : DecryptEnv Sec) :
    Option Bytes :=
  if envelope.version ≠ PROTOCOL_VERSION ∨
      (m.processedMessages.lookup (peerId, messageId)).isSome ∨ env.pruneFails ∨
      HMap.size (pruneProcessed m.processedMessages env.now) ≥ MAX_PROCESSED_MESSAGES then none
  else
    match envelopeParts envelope, receivingRatchet S m peerId envelope with
    | .ok (header, ciphertext, aad), some ratchet =>
      value? ((decrypt S.toSuite env.drawn header ciphertext aad).run ratchet)
    | _, _ => none

/-- A successful call of the ratchet for an inbound envelope; `kept` when session and
marker were stored with it. -/
structure Opening (C : Type) where
  peerId : UserId
  messageId : MessageId
  envelope : EncryptedEnvelope C
  text : String
  markedAt : Nat
  kept : Bool

def Opening.key (o : Opening C) : UserId × MessageId := (o.peerId, o.messageId)

/-- The ratchet call of one `decrypt_message_to_text`, given its answer. -/
def openings (S : IdentitySuite K Sec C) (m : Manager K Sec C) (peerId : UserId)
    (messageId : MessageId) (envelope : EncryptedEnvelope C) (env : DecryptEnv Sec)
    (answer : InboundDecrypt) : List (Opening C) :=
  match m.processedMessages.lookup (peerId, messageId), answer with
  | some _, _ => []
  | none, .pending text => [⟨peerId, messageId, envelope, text, env.markedAt, true⟩]
  | none, _ =>
    (ratchetOpens S m peerId messageId envelope env).toList.map fun plaintext =>
      ⟨peerId, messageId, envelope, utf8Text plaintext, env.markedAt, false⟩

def Op.openings (S : IdentitySuite K Sec C) (m : Manager K Sec C) : Op Sec C → List (Opening C)
  | .decryptMessageToText peerId messageId envelope env =>
    Client.openings S m peerId messageId envelope env
      ((value? ((Client.decryptMessageToText S peerId messageId envelope env).run m)).getD .failed)
  | _ => []

theorem ratchetOpens_opens {S : IdentitySuite K Sec C} {m : Manager K Sec C} {peerId : UserId}
    {messageId : MessageId} {envelope : EncryptedEnvelope C} {env : DecryptEnv Sec}
    {plaintext : Bytes} (h : ratchetOpens S m peerId messageId envelope env = some plaintext) :
    ∃ session opkId, Opens S m peerId envelope env.drawn plaintext session opkId := by
  unfold ratchetOpens at h
  split at h
  · cases h
  · split at h
    · next header ciphertext aad ratchet hparts hratchet =>
      cases hd : (decrypt S.toSuite env.drawn header ciphertext aad).run ratchet with
      | error e t => rw [hd] at h; cases h
      | ok p t =>
        rw [hd] at h
        cases h
        unfold receivingRatchet at hratchet
        split at hratchet
        · next session hsession =>
          cases hratchet
          exact ⟨_, _, .existing session header ciphertext aad plaintext t hparts hsession hd⟩
        · next hnone =>
          split at hratchet
          · cases hratchet
          · next identityKey ephemeralKey spkId opkId proto hheader =>
            split at hratchet
            · cases hratchet
            · next fields hfields =>
              cases hbob : createBobSession S m fields.senderIdentityKey fields.senderEphemeralKey
                  spkId opkId with
              | error e => rw [hbob] at hratchet; cases hratchet
              | ok session =>
                rw [hbob] at hratchet
                cases hratchet
                unfold envelopeParts at hparts
                rw [hheader] at hparts
                obtain ⟨_, hf, hparts⟩ := (bind_eq_ok _ _ _).mp hparts
                cases hfields.symm.trans hf
                cases hparts
                exact ⟨_, _, .first identityKey ephemeralKey spkId opkId proto fields ratchet t
                  plaintext hheader hfields hnone hbob hd⟩
    · cases h

theorem decryptResult_of_run {S : IdentitySuite K Sec C} {m m' : Manager K Sec C}
    {peerId : UserId} {messageId : MessageId} {envelope : EncryptedEnvelope C}
    {env : DecryptEnv Sec} {answer : InboundDecrypt}
    (h : (decryptMessageToText S peerId messageId envelope env).run m = .ok answer m') :
    DecryptResult S m peerId messageId envelope env answer m' ∧
      Op.openings S m (.decryptMessageToText peerId messageId envelope env) =
        openings S m peerId messageId envelope env answer := by
  obtain ⟨_, _, h', hresult⟩ := decryptMessageToText_result S peerId messageId envelope env m
  cases h.symm.trans h'
  exact ⟨hresult, by simp only [Op.openings, h]; rfl⟩

section Openings

variable {S : IdentitySuite K Sec C} {m m' : Manager K Sec C} {peerId : UserId}
  {messageId : MessageId} {envelope : EncryptedEnvelope C} {env : DecryptEnv Sec}
  {answer : InboundDecrypt}

theorem mem_openings_failed {o : Opening C}
    (ho : o ∈ openings S m peerId messageId envelope env .failed) :
    o.kept = false ∧ o.key = (peerId, messageId) ∧ o.envelope = envelope ∧
      ∃ plaintext, ratchetOpens S m peerId messageId envelope env = some plaintext := by
  unfold openings at ho
  split at ho
  · cases ho
  · next hanswer => cases hanswer
  · obtain ⟨plaintext, hp, rfl⟩ := List.mem_map.mp ho
    exact ⟨rfl, rfl, rfl, plaintext, Option.mem_toList.mp hp⟩

theorem openings_known {processed : ProcessedMessage}
    (h : m.processedMessages.lookup (peerId, messageId) = some processed) :
    openings S m peerId messageId envelope env answer = [] := by
  unfold openings
  rw [h]

theorem openings_pending {text : String}
    (h : m.processedMessages.lookup (peerId, messageId) = none) :
    openings S m peerId messageId envelope env (.pending text) =
      [⟨peerId, messageId, envelope, text, env.markedAt, true⟩] := by
  unfold openings
  rw [h]

/-- A call stores the one envelope it opened, or none. -/
theorem DecryptResult.openings_cases
    (h : DecryptResult S m peerId messageId envelope env answer m') :
    (∀ o ∈ openings S m peerId messageId envelope env answer, o.kept = false) ∨
    ∃ plaintext session opkId, Opens S m peerId envelope env.drawn plaintext session opkId ∧
      m.processedMessages.lookup (peerId, messageId) = none ∧
      m' = (m.opened peerId session opkId env).marked (peerId, messageId) (env.row plaintext) ∧
      openings S m peerId messageId envelope env answer =
        [⟨peerId, messageId, envelope, utf8Text plaintext, env.markedAt, true⟩] := by
  cases h with
  | known processed hmarker =>
    left
    rw [openings_known hmarker]
    exact fun o ho => by cases ho
  | decrypted plaintext session opkId hopens hnew =>
    exact .inr ⟨plaintext, session, opkId, hopens, hnew, rfl, openings_pending hnew⟩
  | _ => exact .inl fun o ho => (mem_openings_failed ho).1

end Openings

/-! ## What a delivery does -/

theorem App.run_attempt {α : Type} (action : ManagerM K Sec C α) (app : App K Sec C) :
    (attempt action).run app =
      match action.run app.crypto with
      | .ok a m => .ok (.ok a) { app with crypto := m }
      | .error e m => .ok (.error e) { app with crypto := m } := by
  simp only [attempt, run_bind, run_get]
  cases action.run app.crypto <;> rfl

/-- How `process_inbound` can end: `should_ack`, `fresh` and the application after. -/
inductive InboundResult (S : IdentitySuite K Sec C) (app : App K Sec C)
    (inbound : InboundMessage C) (env : InboundEnv Sec) : Bool → Bool → App K Sec C → Prop
  | answered (answer : InboundDecrypt) (m : Manager K Sec C)
      (hrun : (decryptMessageToText S inbound.senderId inbound.messageId inbound.envelope
        env.decrypt).run app.crypto = .ok answer m) (hanswer : ∀ text, answer ≠ .pending text) :
      InboundResult S app inbound env (decide (answer = .duplicate)) false { app with crypto := m }
  | unwritten (text : String) (m : Manager K Sec C)
      (hrun : (decryptMessageToText S inbound.senderId inbound.messageId inbound.envelope
        env.decrypt).run app.crypto = .ok (.pending text) m) :
      InboundResult S app inbound env false false { app with crypto := m }
  | unconfirmed (text : String) (m : Manager K Sec C)
      (hrun : (decryptMessageToText S inbound.senderId inbound.messageId inbound.envelope
        env.decrypt).run app.crypto = .ok (.pending text) m) :
      InboundResult S app inbound env false false
        { app with
          crypto := m
          messages := (insertMessage ⟨inbound.senderId, .received, inbound.messageId, text⟩
            app.messages).1 }
  | stored (text : String) (m m' : Manager K Sec C)
      (hrun : (decryptMessageToText S inbound.senderId inbound.messageId inbound.envelope
        env.decrypt).run app.crypto = .ok (.pending text) m)
      (hconfirm : m' = m ∨ ∃ processed,
        m.processedMessages.lookup (inbound.senderId, inbound.messageId) = some processed ∧
          m' = m.committed (inbound.senderId, inbound.messageId) processed) :
      InboundResult S app inbound env true
        (insertMessage ⟨inbound.senderId, .received, inbound.messageId, text⟩ app.messages).2
        { app with
          crypto := m'
          messages := (insertMessage ⟨inbound.senderId, .received, inbound.messageId, text⟩
            app.messages).1 }

/-- The two writes of `commit_pending_inbound`: neither, only the first, or both. -/
theorem commitPendingInbound_cases (inbound : InboundMessage C) (text : String)
    (env : InboundEnv Sec) (app : App K Sec C) :
    (∃ e, (App.commitPendingInbound inbound text env).run app = .error e app) ∨
    (∃ e, (App.commitPendingInbound inbound text env).run app = .error e
      { app with
        messages := (insertMessage ⟨inbound.senderId, .received, inbound.messageId, text⟩
          app.messages).1 }) ∨
    ∃ m, (m = app.crypto ∨ ∃ processed,
        app.crypto.processedMessages.lookup (inbound.senderId, inbound.messageId) =
          some processed ∧
        m = app.crypto.committed (inbound.senderId, inbound.messageId) processed) ∧
      (App.commitPendingInbound inbound text env).run app = .ok
        (insertMessage ⟨inbound.senderId, .received, inbound.messageId, text⟩ app.messages).2
        { app with
          crypto := m
          messages := (insertMessage ⟨inbound.senderId, .received, inbound.messageId, text⟩
            app.messages).1 } := by
  simp only [App.commitPendingInbound, App.persistMessage, run_bind, run_ite, run_throw, run_get,
    run_set, run_pure]
  cases env.historyFails with
  | true => exact .inl ⟨_, rfl⟩
  | false =>
    right
    simp only [Bool.false_eq_true, if_false, App.run_attempt]
    rcases confirmInboundStored_cases inbound.senderId inbound.messageId env.confirmFails
      app.crypto with hc | ⟨processed, hmarker, hc⟩
    · cases hr : (confirmInboundStored inbound.senderId inbound.messageId
        env.confirmFails).run app.crypto with
      | ok u m => rw [hr] at hc; cases hc; exact .inr ⟨_, .inl rfl, rfl⟩
      | error e m => rw [hr] at hc; cases hc; exact .inl ⟨_, rfl⟩
    · rw [hc]
      exact .inr ⟨_, .inr ⟨processed, hmarker, rfl⟩, rfl⟩

theorem processInbound_result (S : IdentitySuite K Sec C) (inbound : InboundMessage C)
    (env : InboundEnv Sec) (app : App K Sec C) :
    ∃ shouldAck fresh app', (App.processInbound S inbound env).run app =
        .ok (inbound.senderId, inbound.messageId, shouldAck, fresh) app' ∧
      InboundResult S app inbound env shouldAck fresh app' := by
  obtain ⟨answer, m, h, -⟩ := decryptMessageToText_result S inbound.senderId
    inbound.messageId inbound.envelope env.decrypt app.crypto
  unfold App.processInbound
  rw [run_bind, App.run_attempt, h]
  cases answer with
  | duplicate => exact ⟨_, _, _, rfl, .answered .duplicate m h (by rintro _ ⟨⟩)⟩
  | failed => exact ⟨_, _, _, rfl, .answered .failed m h (by rintro _ ⟨⟩)⟩
  | pending text =>
    simp only [App.processPendingInbound, run_bind, run_get]
    rcases commitPendingInbound_cases inbound text env { app with crypto := m } with
      ⟨e, hc⟩ | ⟨e, hc⟩ | ⟨m', hm', hc⟩
    · rw [hc]
      exact ⟨_, _, _, rfl, .unwritten text m h⟩
    · rw [hc]
      exact ⟨_, _, _, rfl, .unconfirmed text m h⟩
    · rw [hc]
      exact ⟨_, _, _, rfl, .stored text m m' h hm'⟩

/-- How the first half of a read receipt can end. -/
inductive ReceiptResult (S : IdentitySuite K Sec C) (app : App K Sec C) (senderId : UserId)
    (receiptId : MessageId) (envelope : EncryptedEnvelope C) (env : DecryptEnv Sec) :
    App K Sec C → Prop
  | answered (answer : InboundDecrypt) (m : Manager K Sec C)
      (hrun : (decryptMessageToText S senderId receiptId envelope env).run app.crypto =
        .ok answer m) :
      ReceiptResult S app senderId receiptId envelope env { app with crypto := m }
  | confirmed (answer : InboundDecrypt) (m : Manager K Sec C) (processed : ProcessedMessage)
      (hrun : (decryptMessageToText S senderId receiptId envelope env).run app.crypto =
        .ok answer m)
      (hmarker : m.processedMessages.lookup (senderId, receiptId) = some processed) :
      ReceiptResult S app senderId receiptId envelope env
        { app with crypto := m.committed (senderId, receiptId) processed }

theorem openReadReceipt_result (S : IdentitySuite K Sec C) (parses : String → Bool)
    (senderId : UserId) (receiptId : MessageId) (envelope : EncryptedEnvelope C)
    (env : DecryptEnv Sec) (confirmFails : Bool) (app : App K Sec C) :
    ∃ shouldAck app', (App.openReadReceipt S parses senderId receiptId envelope env
        confirmFails).run app = .ok shouldAck app' ∧
      ReceiptResult S app senderId receiptId envelope env app' := by
  obtain ⟨answer, m, h, -⟩ := decryptMessageToText_result S senderId receiptId envelope env
    app.crypto
  unfold App.openReadReceipt
  rw [run_bind, App.run_attempt, h]
  cases answer with
  | duplicate | failed => exact ⟨_, _, rfl, .answered _ m h⟩
  | pending text =>
    simp only [run_ite, run_bind, App.run_attempt]
    split
    · rcases confirmInboundStored_cases senderId receiptId confirmFails m with
        hc | ⟨processed, hmarker, hc⟩
      · cases hr : (confirmInboundStored senderId receiptId confirmFails).run m with
        | ok u m' | error e m' => rw [hr] at hc; cases hc; exact ⟨_, _, rfl, .answered _ _ h⟩
      · rw [hc]
        exact ⟨_, _, rfl, .confirmed _ m processed h hmarker⟩
    · exact ⟨_, _, rfl, .answered _ m h⟩

/-! ## Runs -/

inductive InboxEvent (Sec C : Type)
  | deliver (inbound : InboundMessage C) (env : InboundEnv Sec)
  | receipt (senderId : UserId) (receiptId : MessageId) (envelope : EncryptedEnvelope C)
      (env : DecryptEnv Sec) (confirmFails : Bool)
  | other (op : Op Sec C)
  | sent (peerId : UserId) (messageId : MessageId) (body : String)

/-- The operation of the manager an event begins with. -/
def InboxEvent.call : InboxEvent Sec C → Option (Op Sec C)
  | .deliver inbound env =>
    some (.decryptMessageToText inbound.senderId inbound.messageId inbound.envelope env.decrypt)
  | .receipt senderId receiptId envelope env _ =>
    some (.decryptMessageToText senderId receiptId envelope env)
  | .other op => some op
  | .sent .. => none

/-- The application after an event, and the ids it may acknowledge from then on. -/
def InboxEvent.apply (S : IdentitySuite K Sec C) (texts : List MessageId → Bytes)
    (parses : String → Bool) (app : App K Sec C) :
    InboxEvent Sec C → App K Sec C × List MessageId
  | .deliver inbound env =>
    match (App.processInbound S inbound env).run app with
    | .ok (_, messageId, shouldAck, _) app' => (app', if shouldAck then [messageId] else [])
    | .error _ app' => (app', [])
  | .receipt senderId receiptId envelope env confirmFails =>
    (finalState ((App.openReadReceipt S parses senderId receiptId envelope env
      confirmFails).run app), [])
  | .other op => ({ app with crypto := finalState ((perform S texts op).run app.crypto) }, [])
  | .sent peerId messageId body =>
    ({ app with messages := (insertMessage ⟨peerId, .sent, messageId, body⟩ app.messages).1 }, [])

/-- An application with what its run has done: calls of the ratchet, ids answered with
`should_ack`, and the latest reading used to prune markers. -/
structure Inbox (K Sec C : Type) where
  app : App K Sec C
  opened : List (Opening C)
  acked : List MessageId
  prunedAt : Nat

def Inbox.step (S : IdentitySuite K Sec C) (texts : List MessageId → Bytes)
    (parses : String → Bool) (i : Inbox K Sec C) (e : InboxEvent Sec C) : Inbox K Sec C where
  app := (e.apply S texts parses i.app).1
  opened := i.opened ++ (e.call.map (Op.openings S i.app.crypto)).getD []
  acked := i.acked ++ (e.apply S texts parses i.app).2
  prunedAt := max i.prunedAt ((e.call.map Op.prunesAt).getD 0)

/-- The run after a restart that loaded `m`; the message table is a file of its own. -/
def Inbox.restart (i : Inbox K Sec C) (cutoffNow pruneNow : Nat) (m : Manager K Sec C) :
    Inbox K Sec C :=
  { i with
    app := App.new i.app.userId m i.app.messages
    prunedAt := max i.prunedAt (max cutoffNow pruneNow) }

/-- Runs of one client from an empty data directory whose events meet `guard`. -/
inductive InboxRun (S : IdentitySuite K Sec C) (texts : List MessageId → Bytes)
    (parses : String → Bool) (guard : Inbox K Sec C → InboxEvent Sec C → Prop) :
    Inbox K Sec C → Prop
  | start (userId : UserId) (identity : Sec) (loadedAt cutoffNow pruneNow : Nat)
      (m : Manager K Sec C)
      (hload :
        loadOrGenerate identity (CryptoStore.empty K Sec C) loadedAt cutoffNow pruneNow false =
        .ok m) :
      InboxRun S texts parses guard ⟨App.new userId m [], [], [], 0⟩
  | event {i : Inbox K Sec C} (run : InboxRun S texts parses guard i) (e : InboxEvent Sec C)
      (hguard : guard i e) : InboxRun S texts parses guard (i.step S texts parses e)
  | restart {i : Inbox K Sec C} (run : InboxRun S texts parses guard i)
      (loadedAt cutoffNow pruneNow : Nat) (m : Manager K Sec C)
      (hload : loadOrGenerate i.app.crypto.identity i.app.crypto.store loadedAt cutoffNow pruneNow
        false = .ok m) :
      InboxRun S texts parses guard (i.restart cutoffNow pruneNow m)

end Cmp.Client
