import Cmp.Client.Inbox
import Cmp.Client.Refinement

/-! What the handlers of the application do to the manager, and what they send. Every
event is a sequence of moves: operations of the manager, and messages that an operation
returned, that stand in the outbox, or that follow from a confirmation. `Event.Allows`
and `Event.Issues` say which operations an event may call and in which states. -/

namespace Cmp.Client

open Cmp.Crypto Cmp.Protocol Cmp.Lib Cmp.Lib.Action

variable {K Sec C : Type} {α β : Type}

/-- The event hands this envelope of this peer to the manager. -/
def Event.Delivers (peerId : UserId) (envelope : EncryptedEnvelope C) : Event Sec C → Prop
  | .incomingMessage inbound .. => inbound.senderId = peerId ∧ inbound.envelope = envelope
  | .queuedMessages messages .. =>
    ∃ entry ∈ messages, entry.1.senderId = peerId ∧ entry.1.envelope = envelope
  | .incomingReadReceipt senderId _ received .. => senderId = peerId ∧ received = envelope
  | _ => False

/-- Since `before` nothing has been done but to read messages, which may have used up one-time
prekeys. -/
structure Manager.ReadsFrom (m before : Manager K Sec C) : Prop where
  pendingInits : m.pendingInits = before.pendingInits
  identity : m.identity = before.identity
  signedPrekeys : m.storedSpk.toList ++ m.previousSpks =
    before.storedSpk.toList ++ before.previousSpks
  storedOpks : ∀ id opk, m.storedOpks.lookup id = some opk → before.storedOpks.lookup id = some opk

theorem Manager.ReadsFrom.refl (m : Manager K Sec C) : m.ReadsFrom m :=
  ⟨rfl, rfl, rfl, fun _ _ h => h⟩

/-- The operations an event that finds `before` may call in `m`: a bundle is asked for
only without a session, and used only when asked for; envelopes are decrypted before
anything else is done. -/
def Event.Allows (e : Event Sec C) (before m : Manager K Sec C) : Op Sec C → Prop
  | .addPending peerId => m.sessions.lookup peerId = none
  | .initSessionFromBundle peerId .. => peerId ∈ m.pendingInits
  | .decryptMessageToText peerId _ envelope _ =>
    m.ReadsFrom before ∧ e.Delivers peerId envelope
  | .persistRegistrationKeys .. => False
  | _ => True

/-- The event is what the ids of these operations come from. -/
def Event.Issues (e : Event Sec C) : Op Sec C → Prop
  | .encryptMessage _ _ messageId _ _ =>
    ∃ text now expireFails env historyFails,
      e = .enter text now expireFails env historyFails ∧ env.id = messageId
  | .confirmMessageSent messageId fails => e = .messageSent messageId fails
  | _ => True

def Event.Permits (e : Event Sec C) (before m : Manager K Sec C) (op : Op Sec C) : Prop :=
  e.Allows before m op ∧ e.Issues op

/-- What the relay is told when an operation has succeeded. -/
def Op.tells : Op Sec C → Option (ClientMessage C)
  | .confirmMessageSent messageId _ => some (.ackMessageSent [messageId])
  | .confirmReadReceiptSent receiptId _ => some (.ackReadReceiptSent [receiptId])
  | _ => none

/-- The manager, and what has been handed to the network task. -/
def App.port (app : App K Sec C) : Manager K Sec C × List (ClientMessage C) :=
  (app.crypto, app.outgoing)

/-! ## Sequences of moves -/

section Moves

variable (S : IdentitySuite K Sec C) (texts : List MessageId → Bytes)
  (allows : Manager K Sec C → Op Sec C → Prop)

inductive Move : Manager K Sec C × List (ClientMessage C) →
    Manager K Sec C × List (ClientMessage C) → Prop
  | call {m : Manager K Sec C} {out : List (ClientMessage C)} (op : Op Sec C) (hop : allows m op) :
      Move (m, out) (finalState ((perform S texts op).run m), out)
  | returned {m m' : Manager K Sec C} {out messages : List (ClientMessage C)} (op : Op Sec C)
      (hop : allows m op) (h : (perform S texts op).run m = .ok messages m') :
      Move (m, out) (m', out ++ messages)
  | told {m m' : Manager K Sec C} {out messages : List (ClientMessage C)} (op : Op Sec C)
      (hop : allows m op) (message : ClientMessage C) (htells : op.tells = some message)
      (h : (perform S texts op).run m = .ok messages m') :
      Move (m, out) (m', out ++ [message])
  | resent {m : Manager K Sec C} {out : List (ClientMessage C)} (message : ClientMessage C)
      (hpending : message ∈ m.pendingMessages) : Move (m, out) (m, out ++ [message])
  | asked {m : Manager K Sec C} {out : List (ClientMessage C)} (target : UserId) :
      Move (m, out) (m, out ++ [.fetchPreKeyBundle target])

def Moves : Manager K Sec C × List (ClientMessage C) →
    Manager K Sec C × List (ClientMessage C) → Prop :=
  Relation.ReflTransGen (Move S texts allows)

/-- What an action does, started in `app`. -/
def MovesFrom (app : App K Sec C) (x : AppM K Sec C α) : Prop :=
  Moves S texts allows app.port (finalState (x.run app)).port

/-- One allowed operation. -/
def Calls (m m' : Manager K Sec C) : Prop :=
  ∃ op, allows m op ∧ m' = finalState ((perform S texts op).run m)

/-- Allowed operations one after the other. -/
def Acts : Manager K Sec C → Manager K Sec C → Prop := Relation.ReflTransGen (Calls S texts allows)

end Moves

variable {x : ManagerM K Sec C α}

theorem run_map_ok {m m' : Manager K Sec C} {a : α} (f : α → β) (h : x.run m = .ok a m') :
    (f <$> x).run m = .ok (f a) m' := by
  rw [run_map, h]

section

variable {S : IdentitySuite K Sec C} {texts : List MessageId → Bytes}
  {allows allows' : Manager K Sec C → Op Sec C → Prop} {app : App K Sec C}

/-- The operations among the moves. -/
theorem Moves.acts {p q : Manager K Sec C × List (ClientMessage C)}
    (hallows : ∀ m op, allows m op → allows' m op) (h : Moves S texts allows p q) :
    Acts S texts allows' p.1 q.1 := by
  induction h with
  | refl => exact .refl
  | tail _ hmove ih =>
    cases hmove with
    | call op hop => exact ih.tail ⟨op, hallows _ _ hop, rfl⟩
    | returned op hop hrun | told op hop message htells hrun =>
      exact ih.tail ⟨op, hallows _ _ hop, by rw [hrun]; rfl⟩
    | resent message hpending | asked target => exact ih

namespace MovesFrom

theorem quiet {x : AppM K Sec C α} (h : (finalState (x.run app)).port = app.port) :
    MovesFrom S texts allows app x := by
  unfold MovesFrom
  rw [h]
  exact .refl

theorem pure (a : α) : MovesFrom S texts allows app (pure a : AppM K Sec C α) := quiet rfl

theorem bind {x : AppM K Sec C α} {f : α → AppM K Sec C β} (hx : MovesFrom S texts allows app x)
    (hf : ∀ a app', x.run app = .ok a app' → MovesFrom S texts allows app' (f a)) :
    MovesFrom S texts allows app (x >>= f) := by
  unfold MovesFrom at hx ⊢
  rw [run_bind]
  cases h : x.run app with
  | error e app' => rw [h] at hx; exact hx
  | ok a app' =>
    rw [h] at hx
    exact Relation.ReflTransGen.trans hx (hf a app' h)

/-- After an action that leaves manager and network alone. -/
theorem bind_quiet {x : AppM K Sec C α} {f : α → AppM K Sec C β}
    (hx : (finalState (x.run app)).port = app.port)
    (hf : ∀ a app', app'.port = app.port → MovesFrom S texts allows app' (f a)) :
    MovesFrom S texts allows app (x >>= f) :=
  bind (quiet hx) fun a app' h => hf a app' (by rw [h] at hx; exact hx)

theorem bind_get {f : App K Sec C → AppM K Sec C β} (hf : MovesFrom S texts allows app (f app)) :
    MovesFrom S texts allows app (get >>= f) := hf

/-- A call of the manager that is an operation. -/
theorem attempt (op : Op Sec C) {g : α → List (ClientMessage C)} (hx : perform S texts op = g <$> x)
    (hop : allows app.crypto op) :
    MovesFrom S texts allows app (App.attempt x) := by
  have hcall : Move S texts allows app.port (finalState ((perform S texts op).run app.crypto),
    app.outgoing) := .call op hop
  rw [hx, finalState_map] at hcall
  unfold MovesFrom
  rw [App.run_attempt]
  cases h : x.run app.crypto with
  | ok a m | error err m => rw [h] at hcall; exact .single hcall

theorem bind_attempt (op : Op Sec C) {x : ManagerM K Sec C α} {g : α → List (ClientMessage C)}
    {f : Except ManagerError α → AppM K Sec C β} (hx : perform S texts op = g <$> x)
    (hop : allows app.crypto op)
    (hf : ∀ result m, finalState (x.run app.crypto) = m →
      MovesFrom S texts allows { app with crypto := m } (f result)) :
    MovesFrom S texts allows app (App.attempt x >>= f) := by
  refine bind (attempt op hx hop) fun a app' h => ?_
  rw [App.run_attempt] at h
  cases hrun : x.run app.crypto with
  | ok value m | error e m =>
    rw [hrun] at h
    cases h
    exact hf _ m (by rw [hrun]; rfl)

/-- A call of the manager after which `message a` is sent if it returned `a`. -/
theorem bind_attempt_send (op : Op Sec C) (message : α → ClientMessage C)
    (rest : α → AppM K Sec C β) {g : α → List (ClientMessage C)}
    {f : Except ManagerError α → AppM K Sec C β} (hx : perform S texts op = g <$> x)
    (hop : allows app.crypto op) (hsends : ∀ a, g a = [message a] ∨ op.tells = some (message a))
    (hok : ∀ a, f (.ok a) = (do App.send (message a); rest a))
    (hrest : ∀ a app', MovesFrom S texts allows app' (rest a))
    (herror : ∀ err app', MovesFrom S texts allows app' (f (.error err))) :
    MovesFrom S texts allows app (App.attempt x >>= f) := by
  cases hrun : x.run app.crypto with
  | error err m =>
    refine bind (attempt op hx hop) fun a app' h => ?_
    rw [App.run_attempt, hrun] at h
    cases h
    exact herror err _
  | ok a m =>
    have hperform : (perform S texts op).run app.crypto = .ok (g a) m := by
      rw [hx]
      exact run_map_ok g hrun
    have hmove : Move S texts allows app.port (m, app.outgoing ++ [message a]) := by
      rcases hsends a with hg | htells
      · rw [hg] at hperform
        exact .returned op hop hperform
      · exact .told op hop (message a) htells hperform
    have hattempt : (App.attempt x).run app = .ok (.ok a) { app with crypto := m } := by
      rw [App.run_attempt, hrun]
    unfold MovesFrom
    rw [run_bind_ok hattempt, hok]
    exact .head hmove (hrest a { app with crypto := m, outgoing := app.outgoing ++ [message a] })

theorem asked (target : UserId) :
    MovesFrom S texts allows app (App.send (.fetchPreKeyBundle target)) :=
  .single (.asked target)

/-- Sending what stands in the outbox, and requests for bundles. -/
theorem sendAll (messages : List (ClientMessage C))
    (h : ∀ message ∈ messages,
      message ∈ app.crypto.pendingMessages ∨ ∃ target, message = .fetchPreKeyBundle target) :
    MovesFrom S texts allows app (App.sendAll messages) := by
  show Moves S texts allows (app.crypto, app.outgoing) (app.crypto, app.outgoing ++ messages)
  generalize app.outgoing = out
  induction messages generalizing out with
  | nil => rw [List.append_nil]; exact .refl
  | cons message rest ih =>
    have hfirst : Move S texts allows (app.crypto, out) (app.crypto, out ++ [message]) := by
      rcases h message List.mem_cons_self with hpending | ⟨target, rfl⟩
      · exact .resent message hpending
      · exact .asked target
    have hrest := ih (fun message' h' => h message' (List.mem_cons_of_mem _ h')) (out ++ [message])
    rw [List.append_assoc] at hrest
    exact .head hfirst hrest

end MovesFrom

end

/-! ## Handlers -/

variable {allows : Manager K Sec C → Op Sec C → Prop}

section Handlers

variable {S : IdentitySuite K Sec C} {texts : List MessageId → Bytes} {parses : String → Bool}
  {e : Event Sec C} {before : Manager K Sec C} {app : App K Sec C}

open MovesFrom

theorem sendQueued_moves (op : Op Sec C) {x : ManagerM K Sec C (ClientMessage C)}
    (hx : perform S texts op = (fun message => [message]) <$> x)
    (hop : e.Permits before app.crypto op) :
    MovesFrom S texts (e.Permits before) app (App.sendQueued x) :=
  bind_attempt_send op id (fun _ => Pure.pure ()) hx hop (fun _ => .inl rfl) (fun _ => rfl)
    (fun _ _ => pure ()) fun _ _ => pure ()

theorem queueAck_moves (messageIds : List MessageId) (env : IdEnv) :
    MovesFrom S texts (e.Permits before) app (App.queueAck messageIds env) :=
  sendQueued_moves (.queueAck messageIds env.id env.fails) rfl ⟨trivial, trivial⟩

theorem queueReadReceiptAck_moves (receiptIds : List MessageId) (env : IdEnv) :
    MovesFrom S texts (e.Permits before) app (App.queueReadReceiptAck receiptIds env) :=
  sendQueued_moves (.queueReadReceiptAck receiptIds env.id env.fails) rfl ⟨trivial, trivial⟩

theorem persistMessage_port (fails : Bool) (row : HistoryRow) :
    (finalState ((App.persistMessage fails row).run app)).port = app.port := by
  cases fails <;> rfl

theorem commitPendingInbound_moves (inbound : InboundMessage C) (text : String)
    (env : InboundEnv Sec) :
    MovesFrom S texts (e.Permits before) app (App.commitPendingInbound inbound text env) := by
  refine bind_quiet (persistMessage_port _ _) fun inserted app' _ => ?_
  refine bind_attempt (.confirmInboundStored inbound.senderId inbound.messageId env.confirmFails)
    rfl ⟨trivial, trivial⟩ fun result m _ => ?_
  cases result with
  | ok u => exact pure _
  | error e => exact quiet rfl

theorem processInbound_moves (inbound : InboundMessage C) (env : InboundEnv Sec)
    (hreads : app.crypto.ReadsFrom before)
    (hdelivers : e.Delivers inbound.senderId inbound.envelope) :
    MovesFrom S texts (e.Permits before) app (App.processInbound S inbound env) := by
  refine bind_attempt (.decryptMessageToText inbound.senderId inbound.messageId inbound.envelope
    env.decrypt) rfl ⟨⟨hreads, hdelivers⟩, trivial⟩ fun result m _ => ?_
  cases result with
  | error e => exact pure _
  | ok answer =>
    cases answer with
    | duplicate | failed => exact pure _
    | pending text =>
      have hcommit : MovesFrom S texts (e.Permits before) { app with crypto := m }
          (App.commitPendingInbound inbound text env) := commitPendingInbound_moves inbound text env
      unfold MovesFrom App.processPendingInbound at *
      rw [run_bind_ok (run_get _)]
      cases hrun : (App.commitPendingInbound inbound text env).run { app with crypto := m } with
      | ok inserted app' | error e app' => rw [hrun] at hcommit; exact hcommit

theorem flushReadReceipts_moves (target : UserId) (env : IdEnv) :
    MovesFrom S texts (e.Permits before) app (App.flushReadReceipts S texts target env) := by
  refine bind_get ?_
  cases app.unreadMessages.lookup target with
  | none => exact pure ()
  | some unread =>
    dsimp only
    split
    · exact bind_attempt_send (.encryptReadReceipt target target unread env.id env.fails) id
        (fun _ => modify fun app : App K Sec C =>
          { app with unreadMessages := app.unreadMessages.erase target })
        rfl ⟨trivial, trivial⟩ (fun _ => .inl rfl) (fun _ => rfl) (fun _ _ => quiet rfl)
        fun _ _ => pure ()
    · exact pure ()

theorem openConversation_moves (target : UserId) (flush : IdEnv) :
    MovesFrom S texts (e.Permits before) app (App.openConversation S texts target flush) := by
  refine bind_quiet rfl fun _ app' _ => bind_get ?_
  split
  · exact pure ()
  · split
    · exact flushReadReceipts_moves target flush
    · next hsession =>
      have hnone : app'.crypto.sessions.lookup target = none :=
        Option.not_isSome_iff_eq_none.mp hsession
      refine bind_attempt (.addPending target) rfl ⟨hnone, trivial⟩ fun result m _ => ?_
      split
      · exact asked target
      · exact pure ()

/-- Asking for a bundle of a peer whose session has just gone. -/
theorem askAgain_moves (target : UserId) {m : Manager K Sec C} (x : AppM K Sec C α)
    (hadd : allows m (.addPending target))
    (hx : ∀ app : App K Sec C, (finalState (x.run app)).port = app.port) :
    MovesFrom S texts allows { app with crypto := m } (do
      let _ ← App.attempt (addPending target)
      App.send (.fetchPreKeyBundle target)
      x) := by
  refine bind_attempt (.addPending target) rfl hadd fun result m' _ => ?_
  exact bind (asked target) fun _ app' _ => quiet (hx app')

theorem refreshExpiredSession_moves (target : UserId) (now : Nat) (fails : Bool)
    (hexpire : allows app.crypto (.expireStalePrekeySession target now fails))
    (hadd : ∀ m : Manager K Sec C, m.sessions.lookup target = none →
      allows m (.addPending target)) :
    MovesFrom S texts allows app (App.refreshExpiredSession target now fails) := by
  refine bind (attempt (.expireStalePrekeySession target now fails) rfl hexpire)
    fun result app' hrun => ?_
  rw [App.run_attempt] at hrun
  rcases expireStalePrekeySession_cases target now fails app.crypto with
    ⟨err, hr⟩ | hr | ⟨session, -, -, hr⟩
  · rw [hr] at hrun
    cases hrun
    exact pure true
  · rw [hr] at hrun
    cases hrun
    exact pure false
  · rw [hr] at hrun
    cases hrun
    exact askAgain_moves target (Pure.pure true) (hadd _ (Finmap.lookup_erase _ _)) fun _ => rfl

theorem handleMessageRejected_moves (messageId : MessageId) (fails : Bool) :
    MovesFrom S texts (e.Permits before) app (App.handleMessageRejected messageId fails) := by
  refine bind (attempt (.rejectMessage messageId fails) rfl ⟨trivial, trivial⟩)
    fun result app' hrun => ?_
  rw [App.run_attempt] at hrun
  rcases rejectMessage_cases messageId fails app.crypto with
    ⟨err, hr⟩ | hr | ⟨index, recipientId, envelope, -, hr⟩
  · rw [hr] at hrun
    cases hrun
    exact pure ()
  · rw [hr] at hrun
    cases hrun
    exact pure ()
  · rw [hr] at hrun
    cases hrun
    exact askAgain_moves recipientId (Pure.pure ()) ⟨Finmap.lookup_erase _ _, trivial⟩ fun _ => rfl

theorem tryPersistMessage_port (fails : Bool) (row : HistoryRow) :
    (finalState ((App.tryPersistMessage fails row).run app)).port = app.port := by
  cases fails <;> rfl

/-- A text is encrypted only if it passes the check of its length. -/
theorem handleEnter_moves {allows : Manager K Sec C → Op Sec C → Prop} (text : String) (now : Nat)
    (expireFails : Bool) (env : IdEnv) (historyFails : Bool)
    (hexpire : ∀ m target, allows m (.expireStalePrekeySession target now expireFails))
    (hadd : ∀ (m : Manager K Sec C) target,
      m.sessions.lookup target = none → allows m (.addPending target))
    (hencrypt : ∀ m target, (text.utf8ByteSize + 18) / 3 * 4 ≤ MAX_CIPHERTEXT_BYTES →
      allows m (.encryptMessage target target env.id text.toUTF8.data.toList env.fails)) :
    MovesFrom S texts allows app (App.handleEnter S text now expireFails env historyFails) := by
  refine bind_get ?_
  split
  · exact pure ()
  · split
    · exact pure ()
    · next target _ =>
      split
      · exact quiet (tryPersistMessage_port _ _)
      · split
        · exact pure ()
        · refine bind (refreshExpiredSession_moves target now expireFails (hexpire _ target)
            fun m => hadd m target) fun wait app' _ => ?_
          split
          · exact pure ()
          · split
            · exact pure ()
            · next hlength =>
              exact bind_attempt_send
                (.encryptMessage target target env.id text.toUTF8.data.toList env.fails) id
                (fun _ => App.tryPersistMessage historyFails ⟨target, .sent, env.id, text⟩) rfl
                (hencrypt _ target (Nat.le_of_not_lt hlength)) (fun _ => .inl rfl) (fun _ => rfl)
                (fun _ _ => quiet (tryPersistMessage_port _ _)) fun _ _ => pure ()

theorem handlePreKeyBundleResponse_moves (userId : UserId) (bundle : PreKeyBundle)
    (ephemeral drawn : Sec) (now : Nat) (fails : Bool) :
    MovesFrom S texts (e.Permits before) app
      (App.handlePreKeyBundleResponse S userId bundle ephemeral drawn now fails) := by
  refine bind_get ?_
  split
  · next hpending =>
    have hasked : userId ∈ app.crypto.pendingInits := of_decide_eq_true hpending
    exact bind_attempt (.initSessionFromBundle userId bundle ephemeral drawn now fails)
      rfl ⟨hasked, trivial⟩ fun result m _ => pure _
  · exact pure ()

theorem receiptOrUnread_moves (sender : UserId) (messageId : MessageId) (receipt : IdEnv) :
    MovesFrom S texts (e.Permits before) app
      (App.receiptOrUnread S texts sender messageId receipt) := by
  refine bind_get ?_
  split
  · exact bind_attempt_send
      (.encryptReadReceipt sender sender [messageId] receipt.id receipt.fails) id
      (fun _ => Pure.pure ()) rfl ⟨trivial, trivial⟩ (fun _ => .inl rfl) (fun _ => rfl)
      (fun _ _ => pure ()) fun _ _ => quiet rfl
  · exact quiet rfl

theorem handleIncomingMessage_moves (inbound : InboundMessage C) (env : InboundEnv Sec)
    (ack flush receipt : IdEnv) (hreads : app.crypto.ReadsFrom before)
    (hdelivers : e.Delivers inbound.senderId inbound.envelope) :
    MovesFrom S texts (e.Permits before) app
      (App.handleIncomingMessage S texts inbound env ack flush receipt) := by
  refine bind (processInbound_moves inbound env hreads hdelivers) fun result app' _ => ?_
  obtain ⟨sender, messageId, shouldAck, fresh⟩ := result
  have hrest : ∀ app'' : App K Sec C, MovesFrom S texts (e.Permits before) app'' (do
      let app ← get
      if app.targetUser = none then App.openConversation S texts sender flush
      App.receiptOrUnread S texts sender messageId receipt) := by
    intro app''
    refine bind_get ?_
    split
    · exact bind (openConversation_moves sender flush) fun _ _ _ =>
        receiptOrUnread_moves sender messageId receipt
    · exact receiptOrUnread_moves sender messageId receipt
  cases shouldAck with
  | true =>
    refine bind (queueAck_moves [inbound.messageId] ack) fun _ app'' _ => ?_
    cases fresh with
    | true => exact hrest app''
    | false => exact pure ()
  | false =>
    cases fresh with
    | true => exact hrest app'
    | false => exact pure ()

theorem DecryptResult.readsFrom {m m' before : Manager K Sec C} {peerId : UserId}
    {messageId : MessageId} {envelope : EncryptedEnvelope C} {env : DecryptEnv Sec}
    {answer : InboundDecrypt} (h : DecryptResult S m peerId messageId envelope env answer m')
    (hm : m.ReadsFrom before) : m'.ReadsFrom before := by
  obtain ⟨hpending, hidentity, hsigned, hstored⟩ := hm
  cases h with
  | decrypted plaintext session opkId =>
    unfold Manager.marked Manager.opened
    rw [takeOneTimePrekey_eq]
    exact ⟨hpending, hidentity, hsigned, fun id opk h => hstored id opk (lookup_of_takenOpks h)⟩
  | _ => exact ⟨hpending, hidentity, hsigned, hstored⟩

theorem processInbound_readsFrom {inbound : InboundMessage C} {env : InboundEnv Sec}
    {result : UserId × MessageId × Bool × Bool} {app' : App K Sec C}
    (h : (App.processInbound S inbound env).run app = .ok result app')
    (hreads : app.crypto.ReadsFrom before) : app'.crypto.ReadsFrom before := by
  obtain ⟨shouldAck, fresh, _, h', hresult⟩ := processInbound_result S inbound env app
  cases h.symm.trans h'
  cases hresult with
  | answered answer m hdecrypt | unwritten text m hdecrypt | unconfirmed text m hdecrypt =>
    exact (decryptResult_of_run hdecrypt).1.readsFrom hreads
  | stored text m m' hdecrypt hconfirm =>
    have hreads' := (decryptResult_of_run hdecrypt).1.readsFrom hreads
    rcases hconfirm with rfl | ⟨processed, -, rfl⟩
    · exact hreads'
    · exact ⟨hreads'.pendingInits, hreads'.identity, hreads'.signedPrekeys, hreads'.storedOpks⟩

theorem processPage_moves (messages : List (InboundMessage C × InboundEnv Sec)) :
    ∀ app : App K Sec C, app.crypto.ReadsFrom before →
      (∀ entry ∈ messages, e.Delivers entry.1.senderId entry.1.envelope) →
      MovesFrom S texts (e.Permits before) app (App.processPage S messages) := by
  induction messages with
  | nil => exact fun app _ _ => pure []
  | cons entry rest ih =>
    intro app hreads hdelivers
    have hfirst := hdelivers entry (List.mem_cons_self ..)
    have hrest := fun entry' h => hdelivers entry' (List.mem_cons_of_mem entry h)
    refine bind (processInbound_moves entry.1 entry.2 hreads hfirst) fun result app' hrun => ?_
    obtain ⟨sender, messageId, shouldAck, fresh⟩ := result
    have hreads' := processInbound_readsFrom hrun hreads
    cases fresh with
    | true =>
      refine bind_quiet rfl fun _ app'' happ => ?_
      have hcrypto : app''.crypto = app'.crypto := congrArg Prod.fst happ
      exact bind (ih app'' (hcrypto ▸ hreads') hrest) fun ackIds _ _ => pure _
    | false => exact bind (ih app' hreads' hrest) fun ackIds _ _ => pure _

theorem handleQueuedMessages_moves (messages : List (InboundMessage C × InboundEnv Sec))
    (ack flush : IdEnv) (hreads : app.crypto.ReadsFrom before)
    (hdelivers : ∀ entry ∈ messages, e.Delivers entry.1.senderId entry.1.envelope) :
    MovesFrom S texts (e.Permits before) app
      (App.handleQueuedMessages S texts messages ack flush) := by
  refine bind (processPage_moves messages app hreads hdelivers) fun ackIds app' _ => ?_
  dsimp only
  split
  · refine bind (queueAck_moves ackIds ack) fun _ app'' _ => bind_get ?_
    cases app''.targetUser with
    | some target => exact flushReadReceipts_moves target flush
    | none => exact pure ()
  · refine bind_get ?_
    cases app'.targetUser with
    | some target => exact flushReadReceipts_moves target flush
    | none => exact pure ()

theorem openReadReceipt_moves (senderId : UserId) (receiptId : MessageId)
    (envelope : EncryptedEnvelope C) (env : DecryptEnv Sec) (confirmFails : Bool)
    (hreads : app.crypto.ReadsFrom before)
    (hdelivers : e.Delivers senderId envelope) :
    MovesFrom S texts (e.Permits before) app
      (App.openReadReceipt S parses senderId receiptId envelope env confirmFails) := by
  refine bind_attempt (.decryptMessageToText senderId receiptId envelope env)
    rfl ⟨⟨hreads, hdelivers⟩, trivial⟩ fun result m _ => ?_
  cases result with
  | error err => exact pure _
  | ok answer =>
    cases answer with
    | duplicate | failed => exact pure _
    | pending text =>
      dsimp only
      split
      · exact bind_attempt (.confirmInboundStored senderId receiptId confirmFails)
          rfl ⟨trivial, trivial⟩ fun _ _ _ => pure _
      · exact pure _

theorem confirmAndTell_moves (op : Op Sec C) {x : ManagerM K Sec C Unit} (message : ClientMessage C)
    (hx : perform S texts op = (fun _ => []) <$> x) (hop : e.Permits before app.crypto op)
    (htells : op.tells = some message) :
    MovesFrom S texts (e.Permits before) app (App.confirmAndTell x message) :=
  bind_attempt_send op (fun _ => message) (fun _ => Pure.pure ()) hx hop (fun _ => .inr htells)
    (fun _ => rfl) (fun _ _ => pure ()) fun _ _ => pure ()

theorem sendReplacement_moves (op : Op Sec C) {x : ManagerM K Sec C (Option (ClientMessage C))}
    (hx : perform S texts op = Option.toList <$> x) (hop : e.Permits before app.crypto op) :
    MovesFrom S texts (e.Permits before) app (App.sendReplacement x) := by
  cases hrun : x.run app.crypto with
  | error err m =>
    refine bind (attempt op hx hop) fun result app' h => ?_
    rw [App.run_attempt, hrun] at h
    cases h
    exact pure ()
  | ok replacement m =>
    have hperform := run_map_ok Option.toList hrun
    rw [← hx] at hperform
    have hattempt : (App.attempt x).run app = .ok (.ok replacement) { app with crypto := m } := by
      rw [App.run_attempt, hrun]
    unfold MovesFrom App.sendReplacement
    rw [run_bind_ok hattempt]
    have hmove : Move S texts (e.Permits before) app.port (m, app.outgoing ++ replacement.toList) :=
      .returned op hop hperform
    cases replacement with
    | none =>
      rw [Option.toList_none, List.append_nil] at hmove
      exact .single hmove
    | some message => exact .single hmove

theorem queueSignedPrekeyRotation_moves (env : RotationEnv Sec) :
    MovesFrom S texts (e.Permits before) app (App.queueSignedPrekeyRotation S env) :=
  attempt (.queueSignedPrekeyRotation env.now env.drawn env.rotationId env.fails)
    rfl ⟨trivial, trivial⟩

theorem sendPendingRotation_moves :
    MovesFrom S texts (e.Permits before) app (App.sendPendingRotation : AppM K Sec C Unit) := by
  refine bind_get ?_
  cases h : app.crypto.pendingMessages.find? App.isRotationMessage with
  | none => exact pure ()
  | some rotation => exact .single (.resent rotation (List.mem_of_find?_eq_some h))

theorem handleLifecycleTick_moves (env : RotationEnv Sec) :
    MovesFrom S texts (e.Permits before) app (App.handleLifecycleTick S env) := by
  refine bind_get ?_
  split
  · refine bind (queueSignedPrekeyRotation_moves env) fun result app' _ => ?_
    rcases result with err | queued
    · exact pure ()
    · cases queued with
      | true => exact sendPendingRotation_moves
      | false => exact pure ()
  · exact pure ()

theorem handleAuthenticated_moves (env : RotationEnv Sec) (order : List UserId) :
    MovesFrom S texts (e.Permits before) app (App.handleAuthenticated S env order) := by
  refine bind_quiet rfl fun _ app' _ => ?_
  refine bind (queueSignedPrekeyRotation_moves env) fun _ app'' _ => bind_get ?_
  refine bind (sendAll _ fun message hmessage => .inl hmessage) fun _ app₃ _ => ?_
  refine sendAll _ fun message hmessage => ?_
  obtain ⟨peer, -, rfl⟩ := List.mem_map.mp hmessage
  exact .inr ⟨peer, rfl⟩

end Handlers

/-- **An event is a sequence of moves** that it permits. -/
theorem handle_moves (S : IdentitySuite K Sec C) (texts : List MessageId → Bytes)
    (parses : String → Bool) (e : Event Sec C) (app : App K Sec C) :
    MovesFrom S texts (e.Permits app.crypto) app (App.handle S texts parses e) := by
  cases e with
  | openConversation target flush => exact openConversation_moves target flush
  | enter text now expireFails env historyFails =>
    exact handleEnter_moves text now expireFails env historyFails
      (fun _ _ => ⟨trivial, trivial⟩) (fun _ _ hnone => ⟨hnone, trivial⟩)
      fun _ _ _ => ⟨trivial, text, now, expireFails, env, historyFails, rfl, rfl⟩
  | lifecycleTick env => exact handleLifecycleTick_moves env
  | authenticated env order => exact handleAuthenticated_moves env order
  | disconnected => exact .quiet rfl
  | preKeyBundleResponse userId bundle ephemeral drawn now fails =>
    exact handlePreKeyBundleResponse_moves userId bundle ephemeral drawn now fails
  | incomingMessage inbound env ack flush receipt =>
    exact handleIncomingMessage_moves inbound env ack flush receipt (.refl _) ⟨rfl, rfl⟩
  | queuedMessages messages ack flush =>
    exact handleQueuedMessages_moves messages ack flush (.refl _)
      fun entry hentry => ⟨entry, hentry, rfl, rfl⟩
  | messageSent messageId fails =>
    exact confirmAndTell_moves (.confirmMessageSent messageId fails) _ rfl ⟨trivial, rfl⟩ rfl
  | messageRejected messageId fails => exact handleMessageRejected_moves messageId fails
  | ackSuccess ackId messageIds fails =>
    exact .bind_attempt (.confirmAcked ackId messageIds fails) rfl ⟨trivial, trivial⟩
      fun _ _ _ => .pure _
  | readReceiptSent receiptId fails =>
    exact confirmAndTell_moves (.confirmReadReceiptSent receiptId fails) _ rfl
      ⟨trivial, trivial⟩ rfl
  | incomingReadReceipt senderId receiptId envelope env confirmFails ack =>
    refine .bind (openReadReceipt_moves senderId receiptId envelope env confirmFails (.refl _)
      ⟨rfl, rfl⟩) fun shouldAck app' _ => ?_
    split
    · exact queueReadReceiptAck_moves [receiptId] ack
    · exact .pure ()
  | preKeyLow env =>
    exact sendQueued_moves (.queuePrekeyReplenishment env) rfl ⟨trivial, trivial⟩
  | preKeysUploaded uploadId accepted remaining env fails =>
    exact sendReplacement_moves (.confirmPrekeysUploaded uploadId accepted remaining env fails)
      rfl ⟨trivial, trivial⟩
  | signedPreKeyRotated rotationId accepted previouslyAccepted currentKeyId now drawn newId fails =>
    exact sendReplacement_moves (.confirmSignedPrekeyRotated rotationId accepted previouslyAccepted
      currentKeyId now drawn newId fails) rfl ⟨trivial, trivial⟩

theorem handle_acts (S : IdentitySuite K Sec C) (texts : List MessageId → Bytes)
    (parses : String → Bool) (e : Event Sec C) (app : App K Sec C) :
    Acts S texts (e.Allows app.crypto) app.crypto
      (finalState ((App.handle S texts parses e).run app)).crypto :=
  Moves.acts (fun _ _ hop => hop.1) (handle_moves S texts parses e app)

/-! ## Runs -/

/-- Runs of one client from an empty data directory whose events meet `guard`. The
client registers when it has no signed prekey yet. -/
inductive AppRun (S : IdentitySuite K Sec C) (texts : List MessageId → Bytes)
    (parses : String → Bool) (guard : App K Sec C → Event Sec C → Prop) : App K Sec C → Prop
  | start (userId : UserId) (identity : Sec) (loadedAt cutoffNow pruneNow : Nat)
      (m : Manager K Sec C)
      (hload :
        loadOrGenerate identity (CryptoStore.empty K Sec C) loadedAt cutoffNow pruneNow false =
        .ok m) :
      AppRun S texts parses guard (App.new userId m [])
  | register {app : App K Sec C} (run : AppRun S texts parses guard app) (spk : SignedPreKey Sec)
      (opks : List (UInt32 × OneTimePreKey Sec)) (rotatedAt createdAt : Nat) (fails : Bool)
      (hneeds : app.crypto.storedSpk = none) :
      AppRun S texts parses guard
        { app with
          crypto := finalState
            ((persistRegistrationKeys spk opks rotatedAt createdAt fails).run app.crypto) }
  | event {app : App K Sec C} (run : AppRun S texts parses guard app) (e : Event Sec C)
      (hguard : guard app e) :
      AppRun S texts parses guard (finalState ((App.handle S texts parses e).run app))
  | restart {app : App K Sec C} (run : AppRun S texts parses guard app)
      (loadedAt cutoffNow pruneNow : Nat) (m : Manager K Sec C)
      (hload : loadOrGenerate app.crypto.identity app.crypto.store loadedAt cutoffNow pruneNow
        false = .ok m) :
      AppRun S texts parses guard (App.new app.userId m app.messages)

section Durable

variable {S : IdentitySuite K Sec C} {texts : List MessageId → Bytes} {parses : String → Bool}

theorem Acts.durable {m m' : Manager K Sec C} (h : Acts S texts allows m m')
    (hm : ∃ prunedAt, m.Durable prunedAt) :
    (∃ prunedAt, m'.Durable prunedAt) ∧ m'.identity = m.identity := by
  induction h with
  | refl => exact ⟨hm, rfl⟩
  | tail _ hcall ih =>
    obtain ⟨op, -, rfl⟩ := hcall
    obtain ⟨⟨prunedAt, hdurable⟩, hidentity⟩ := ih
    have houtcome := perform_outcome (S := S) texts hdurable.sound op
    exact ⟨⟨_, hdurable.outcome houtcome⟩, houtcome.identity.trans hidentity⟩

theorem AppRun.durable {guard : App K Sec C → Event Sec C → Prop} {app : App K Sec C}
    (run : AppRun S texts parses guard app) : ∃ prunedAt, app.crypto.Durable prunedAt := by
  induction run with
  | start userId identity loadedAt cutoffNow pruneNow m hload =>
    exact ⟨_, Manager.Durable.start hload⟩
  | @register app run spk opks rotatedAt createdAt fails hneeds ih =>
    obtain ⟨prunedAt, hdurable⟩ := ih
    rcases persistRegistrationKeys_cases spk opks rotatedAt createdAt fails app.crypto with
      ⟨err, hrun⟩ | hrun
    · rw [hrun]
      exact ⟨prunedAt, hdurable⟩
    · have houtcome : Outcome S app.crypto _ [] _ :=
        .registered spk opks rotatedAt createdAt fails
      rw [hrun]
      exact ⟨_, hdurable.outcome houtcome⟩
  | event run e he ih => exact ((handle_acts S texts parses e _).durable ih).1
  | restart run loadedAt cutoffNow pruneNow m hload ih =>
    obtain ⟨prunedAt, hdurable⟩ := ih
    rw [hdurable.load] at hload
    cases hload
    exact ⟨_, hdurable.reloaded cutoffNow pruneNow⟩

end Durable

end Cmp.Client
