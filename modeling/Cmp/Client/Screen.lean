import Cmp.Client.Handlers
import Cmp.Client.Verification
import Cmp.Lib.Keeps

/-! The application with its dialogs and the identity keys of peers: `show_verification`,
`track_peer_identity` and the keys of `input.rs` that reach a dialog. Tracking a key does not
touch what `App` holds, so an event is the handler of `App` and then the keys it tracked. -/

namespace Cmp.Client

open Cmp.Crypto Cmp.Protocol Cmp.Lib Cmp.Lib.Action

variable {K Sec C : Type} {α : Type}

/-! ## State and keys -/

inductive Modal
  | newChat
  | help
  | verification (entries : List ChatEntry)

structure Screen (K Sec C : Type) where
  app : App K Sec C
  db : Option Contacts
  identityWarnings : HMap UserId String
  modal : Option Modal

/-- The keys with a meaning in or for a dialog: F2, `y`, `x`, Esc, Ctrl-N and F1. -/
inductive Press
  | view
  | confirm
  | clear
  | escape
  | newChat
  | help
  deriving DecidableEq

namespace Screen

/-- `local_identity_key_b64`. -/
def localIdentityKey (S : IdentitySuite K Sec C) (screen : Screen K Sec C) : B64Text Bytes :=
  b64Encode (S.verifyingKey screen.app.crypto.identity).toList

def showVerification (S : IdentitySuite K Sec C) (V : Verifier) (action : VerificationAction)
    (fails : Bool) (screen : Screen K Sec C) : Screen K Sec C :=
  match screen.app.targetUser with
  | none => screen
  | some target =>
    if target = screen.app.userId then screen
    else
      let (db, entries) := handleAction V screen.app.userId (screen.localIdentityKey S) target
        fails screen.db action
      let confirmed := (db.bind fun db => db.verified.lookup target).isSome
      { screen with
        db := db
        identityWarnings :=
          if action = .confirm ∧ confirmed = true then screen.identityWarnings.erase target
          else screen.identityWarnings
        modal := some (.verification entries) }

/-- With a dialog open a key goes to the dialog. -/
def press (S : IdentitySuite K Sec C) (V : Verifier) (p : Press) (fails : Bool)
    (screen : Screen K Sec C) : Screen K Sec C :=
  match screen.modal, p with
  | none, .view => screen.showVerification S V .view fails
  | none, .newChat => { screen with modal := some .newChat }
  | none, .help => { screen with modal := some .help }
  | some (.verification _), .confirm => screen.showVerification S V .confirm fails
  | some (.verification _), .clear => screen.showVerification S V .clear fails
  | some _, .escape => { screen with modal := none }
  | some .help, .help => { screen with modal := none }
  | _, _ => screen

def trackPeerIdentity (peerId : UserId) (identityKey : B64Text Bytes) (fails : Bool)
    (screen : Screen K Sec C) : Screen K Sec C :=
  match screen.db with
  | none => screen
  | some db =>
    let (db', warning) := checkPeerIdentity peerId identityKey fails db
    { screen with
      db := some db'
      identityWarnings :=
        match warning with
        | some warning => screen.identityWarnings.insert peerId warning
        | none => screen.identityWarnings }

/-- One call after the other; `fails i` is the answer to call `i`. -/
def trackAll : List (UserId × B64Text Bytes) → (Nat → Bool) → Screen K Sec C → Screen K Sec C
  | [], _, screen => screen
  | (peerId, identityKey) :: rest, fails, screen =>
    trackAll rest (fun i => fails (i + 1)) (screen.trackPeerIdentity peerId identityKey (fails 0))

end Screen

/-! ## The keys an event tracks -/

/-- `process_pending_inbound` tracks the identity key of a PreKey header. -/
def inboundIdentity (S : IdentitySuite K Sec C) (m : Manager K Sec C) (inbound : InboundMessage C)
    (env : InboundEnv Sec) : List (UserId × B64Text Bytes) :=
  match value? ((decryptMessageToText S inbound.senderId inbound.messageId inbound.envelope
      env.decrypt).run m), inbound.envelope.header with
  | some (.pending _), .preKey senderIdentityKey .. => [(inbound.senderId, senderIdentityKey)]
  | _, _ => []

def pageIdentities (S : IdentitySuite K Sec C) :
    List (InboundMessage C × InboundEnv Sec) → App K Sec C → List (UserId × B64Text Bytes)
  | [], _ => []
  | (inbound, env) :: rest, app =>
    inboundIdentity S app.crypto inbound env ++
      pageIdentities S rest (finalState ((App.processInbound S inbound env).run app))

def Event.identities (S : IdentitySuite K Sec C) (app : App K Sec C) :
    Event Sec C → List (UserId × B64Text Bytes)
  | .preKeyBundleResponse userId bundle ephemeral drawn now fails =>
    if app.crypto.isPending userId ∧ (value? ((initSessionFromBundle S userId bundle ephemeral
        drawn now fails).run app.crypto)).isSome then [(userId, bundle.identityKey)]
    else []
  | .incomingMessage inbound env _ _ _ => inboundIdentity S app.crypto inbound env
  | .queuedMessages messages _ _ => pageIdentities S messages app
  | _ => []

/-- The identity key a message claims for its sender. -/
def claimedIdentity (inbound : InboundMessage C) : List (UserId × B64Text Bytes) :=
  match inbound.envelope.header with
  | .preKey senderIdentityKey .. => [(inbound.senderId, senderIdentityKey)]
  | .ratchet _ => []

/-- The identity keys an event carries, tracked or not. -/
def Event.carries : Event Sec C → List (UserId × B64Text Bytes)
  | .preKeyBundleResponse userId bundle _ _ _ _ => [(userId, bundle.identityKey)]
  | .incomingMessage inbound _ _ _ _ => claimedIdentity inbound
  | .queuedMessages messages _ _ => messages.flatMap fun entry => claimedIdentity entry.1
  | _ => []

theorem inboundIdentity_subset (S : IdentitySuite K Sec C) (m : Manager K Sec C)
    (inbound : InboundMessage C) (env : InboundEnv Sec) :
    inboundIdentity S m inbound env ⊆ claimedIdentity inbound := by
  unfold inboundIdentity claimedIdentity
  split
  · next hheader => rw [hheader]; exact List.Subset.refl _
  · exact List.nil_subset _

theorem pageIdentities_subset (S : IdentitySuite K Sec C)
    (messages : List (InboundMessage C × InboundEnv Sec)) :
    ∀ app : App K Sec C,
      pageIdentities S messages app ⊆ messages.flatMap fun entry => claimedIdentity entry.1 := by
  induction messages with
  | nil => exact fun _ => List.nil_subset _
  | cons entry rest ih =>
    intro app
    rw [List.flatMap_cons]
    refine List.append_subset.mpr ⟨?_, ?_⟩
    · exact List.subset_append_of_subset_left _ (inboundIdentity_subset S _ entry.1 entry.2)
    · exact List.subset_append_of_subset_right _ (ih _)

theorem Event.identities_subset (S : IdentitySuite K Sec C) (app : App K Sec C) (e : Event Sec C) :
    e.identities S app ⊆ e.carries := by
  cases e with
  | preKeyBundleResponse userId bundle ephemeral drawn now fails =>
    simp only [Event.identities, Event.carries]
    split
    · exact List.Subset.refl _
    · exact List.nil_subset _
  | incomingMessage inbound env ack flush receipt =>
    exact inboundIdentity_subset S _ inbound env
  | queuedMessages messages ack flush => exact pageIdentities_subset S messages app
  | _ => exact List.nil_subset _

/-! ## Events -/

inductive ScreenEvent (Sec C : Type)
  | press (p : Press) (fails : Bool)
  | app (e : Event Sec C) (trackFails : Nat → Bool)

/-- Whether the handler has run `open_conversation`, which closes a dialog. -/
def Event.opens (before after : App K Sec C) : Event Sec C → Bool
  | .openConversation .. => true
  | _ => before.targetUser.isNone && after.targetUser.isSome

def Screen.handle (S : IdentitySuite K Sec C) (texts : List MessageId → Bytes)
    (parses : String → Bool) (e : Event Sec C) (trackFails : Nat → Bool)
    (screen : Screen K Sec C) : Screen K Sec C :=
  let after := finalState ((App.handle S texts parses e).run screen.app)
  Screen.trackAll (e.identities S screen.app) trackFails
    { screen with
      app := after
      modal := if e.opens screen.app after then none else screen.modal }

def Screen.step (S : IdentitySuite K Sec C) (V : Verifier) (texts : List MessageId → Bytes)
    (parses : String → Bool) (screen : Screen K Sec C) : ScreenEvent Sec C → Screen K Sec C
  | .press p fails => screen.press S V p fails
  | .app e trackFails => screen.handle S texts parses e trackFails

/-- Runs whose events meet `guard`, from any state of the application and of the tables in which
no dialog is open. -/
inductive ScreenRun (S : IdentitySuite K Sec C) (V : Verifier) (texts : List MessageId → Bytes)
    (parses : String → Bool) (guard : Screen K Sec C → ScreenEvent Sec C → Prop) :
    Screen K Sec C → Prop
  | start (screen : Screen K Sec C)
      (run : AppRun S texts parses (fun _ _ => True) screen.app) (hmodal : screen.modal = none) :
      ScreenRun S V texts parses guard screen
  | event {screen : Screen K Sec C} (run : ScreenRun S V texts parses guard screen)
      (e : ScreenEvent Sec C) (hguard : guard screen e) :
      ScreenRun S V texts parses guard (screen.step S V texts parses e)

/-! ## Whose conversation is open -/

/-- The own name and the open conversation. -/
def App.scope (app : App K Sec C) : UserId × Option UserId := (app.userId, app.targetUser)

section Scope

variable {S : IdentitySuite K Sec C} {texts : List MessageId → Bytes} {parses : String → Bool}

theorem attempt_scope (x : ManagerM K Sec C α) : Keeps App.scope (App.attempt x) := by
  intro app
  unfold KeepsAt
  rw [App.run_attempt]
  cases x.run app.crypto <;> rfl

theorem send_scope (message : ClientMessage C) :
    Keeps App.scope (App.send message : AppM K Sec C Unit) := .modify fun _ => rfl

theorem sendAll_scope (messages : List (ClientMessage C)) :
    Keeps App.scope (App.sendAll messages : AppM K Sec C Unit) := .modify fun _ => rfl

/-- A call of the manager, and what is done with its answer. -/
theorem attempt_bind_scope {β : Type} {x : ManagerM K Sec C α}
    {f : Except ManagerError α → AppM K Sec C β} (hf : ∀ result, Keeps App.scope (f result)) :
    Keeps App.scope (App.attempt x >>= f) := .bind (attempt_scope x) hf

theorem persistMessage_scope (fails : Bool) (row : HistoryRow) :
    Keeps App.scope (App.persistMessage fails row : AppM K Sec C Bool) := by
  intro app
  cases fails <;> rfl

theorem tryPersistMessage_scope (fails : Bool) (row : HistoryRow) :
    Keeps App.scope (App.tryPersistMessage fails row : AppM K Sec C Unit) := by
  intro app
  cases fails <;> rfl

theorem sendQueued_scope (x : ManagerM K Sec C (ClientMessage C)) :
    Keeps App.scope (App.sendQueued x) := by
  refine attempt_bind_scope fun result => ?_
  cases result with
  | ok ack => exact send_scope ack
  | error e => exact .pure ()

theorem sendReplacement_scope (x : ManagerM K Sec C (Option (ClientMessage C))) :
    Keeps App.scope (App.sendReplacement x) := by
  refine attempt_bind_scope fun result => ?_
  match result with
  | .ok (some replacement) => exact send_scope replacement
  | .ok none => exact .pure ()
  | .error _ => exact .pure ()

theorem confirmAndTell_scope (x : ManagerM K Sec C Unit) (message : ClientMessage C) :
    Keeps App.scope (App.confirmAndTell x message) := by
  refine attempt_bind_scope fun result => ?_
  cases result with
  | ok _ => exact send_scope message
  | error e => exact .pure ()

theorem commitPendingInbound_scope (inbound : InboundMessage C) (text : String)
    (env : InboundEnv Sec) :
    Keeps App.scope (App.commitPendingInbound inbound text env : AppM K Sec C Bool) := by
  refine .bind (persistMessage_scope _ _) fun inserted => attempt_bind_scope fun result => ?_
  cases result with
  | ok _ => exact .pure inserted
  | error e => exact .throw _

theorem processInbound_scope (inbound : InboundMessage C) (env : InboundEnv Sec) :
    Keeps App.scope (App.processInbound S inbound env) := by
  refine attempt_bind_scope fun result => ?_
  match result with
  | .error _ => exact .pure _
  | .ok .duplicate => exact .pure _
  | .ok .failed => exact .pure _
  | .ok (.pending text) =>
    intro app
    have hcommit := commitPendingInbound_scope inbound text env app
    unfold KeepsAt App.processPendingInbound at *
    rw [run_bind_ok (run_get app)]
    cases hrun : (App.commitPendingInbound inbound text env).run app with
    | ok inserted app' | error e app' => rw [hrun] at hcommit; exact hcommit

theorem flushReadReceipts_scope (target : UserId) (env : IdEnv) :
    Keeps App.scope (App.flushReadReceipts S texts target env) := by
  refine .bind_get fun app => ?_
  split
  · exact .pure ()
  · refine .ite (attempt_bind_scope fun result => ?_) (.pure ())
    cases result with
    | ok receipt => exact .bind (send_scope receipt) fun _ => .modify fun _ => rfl
    | error e => exact .pure ()

theorem accumulateUnread_scope (sender : UserId) (messageId : MessageId) :
    Keeps App.scope (App.accumulateUnread sender messageId : AppM K Sec C Unit) :=
  .modify fun _ => rfl

/-- The session of a peer has gone: a new bundle is asked for. -/
theorem askAgain_scope (target : UserId) :
    Keeps App.scope (do
      let _ ← App.attempt (addPending target)
      App.send (.fetchPreKeyBundle target) : AppM K Sec C Unit) :=
  attempt_bind_scope fun _ => send_scope _

theorem refreshExpiredSession_scope (target : UserId) (now : Nat) (fails : Bool) :
    Keeps App.scope (App.refreshExpiredSession target now fails : AppM K Sec C Bool) := by
  refine attempt_bind_scope fun result => ?_
  match result with
  | .ok true => exact attempt_bind_scope fun _ => .bind (send_scope _) fun _ => .pure true
  | .ok false => exact .pure false
  | .error _ => exact .pure true

theorem handleMessageRejected_scope (messageId : MessageId) (fails : Bool) :
    Keeps App.scope (App.handleMessageRejected messageId fails : AppM K Sec C Unit) := by
  refine attempt_bind_scope fun result => ?_
  match result with
  | .ok (some recipientId) => exact askAgain_scope recipientId
  | .ok none => exact .pure ()
  | .error _ => exact .pure ()

theorem handleEnter_scope (text : String) (now : Nat) (expireFails : Bool) (env : IdEnv)
    (historyFails : Bool) :
    Keeps App.scope (App.handleEnter S text now expireFails env historyFails) := by
  refine .bind_get fun app => .ite (.pure ()) ?_
  split
  · exact .pure ()
  · next target =>
    refine .ite (tryPersistMessage_scope _ _) (.ite (.pure ()) ?_)
    refine .bind (refreshExpiredSession_scope _ _ _) fun waits => .ite (.pure ()) ?_
    refine .ite (.pure ()) (attempt_bind_scope fun result => ?_)
    cases result with
    | error e => exact .pure ()
    | ok outbound => exact .bind (send_scope outbound) fun _ => tryPersistMessage_scope _ _

theorem handleLifecycleTick_scope (env : RotationEnv Sec) :
    Keeps App.scope (App.handleLifecycleTick S env) := by
  refine .bind_get fun app => .ite (attempt_bind_scope fun result => ?_) (.pure ())
  match result with
  | .ok true =>
    refine .bind_get fun app => ?_
    split
    · exact send_scope _
    · exact .pure ()
  | .ok false => exact .pure ()
  | .error _ => exact .pure ()

theorem handleAuthenticated_scope (env : RotationEnv Sec) (order : List UserId) :
    Keeps App.scope (App.handleAuthenticated S env order) := by
  refine .bind (.modify fun _ => rfl) fun _ => attempt_bind_scope fun _ => .bind_get fun app => ?_
  exact .bind (sendAll_scope _) fun _ => sendAll_scope _

theorem handlePreKeyBundleResponse_scope (userId : UserId) (bundle : PreKeyBundle)
    (ephemeral drawn : Sec) (now : Nat) (fails : Bool) :
    Keeps App.scope (App.handlePreKeyBundleResponse S userId bundle ephemeral drawn now fails) :=
  .bind_get fun _ => .ite (attempt_bind_scope fun _ => .pure ()) (.pure ())

theorem processPage_scope (messages : List (InboundMessage C × InboundEnv Sec)) :
    Keeps App.scope (App.processPage S messages) := by
  induction messages with
  | nil => exact .pure []
  | cons entry rest ih =>
    refine .bind (processInbound_scope entry.1 entry.2) fun ⟨sender, messageId, _, fresh⟩ => ?_
    cases fresh with
    | true => exact .bind (accumulateUnread_scope _ _) fun _ => .bind ih fun _ => .pure _
    | false => exact .bind ih fun _ => .pure _

theorem handleQueuedMessages_scope (messages : List (InboundMessage C × InboundEnv Sec))
    (ack flush : IdEnv) :
    Keeps App.scope (App.handleQueuedMessages S texts messages ack flush) := by
  refine .bind (processPage_scope messages) fun ackIds => ?_
  refine .ite (.bind (sendQueued_scope _) fun _ => ?_) ?_
  all_goals
    refine .bind_get fun app => ?_
    split
    · exact flushReadReceipts_scope _ flush
    · exact .pure ()

theorem openReadReceipt_scope (senderId : UserId) (receiptId : MessageId)
    (envelope : EncryptedEnvelope C) (env : DecryptEnv Sec) (confirmFails : Bool) :
    Keeps App.scope
      (App.openReadReceipt S parses senderId receiptId envelope env confirmFails) := by
  refine attempt_bind_scope fun result => ?_
  match result with
  | .ok (.pending text) => exact .ite (attempt_bind_scope fun _ => .pure true) (.pure false)
  | .ok .duplicate => exact .pure true
  | .ok .failed => exact .pure false
  | .error _ => exact .pure false

theorem receiptOrUnread_scope (sender : UserId) (messageId : MessageId) (receipt : IdEnv) :
    Keeps App.scope (App.receiptOrUnread S texts sender messageId receipt) := by
  refine .bind_get fun app => .ite (attempt_bind_scope fun result => ?_)
    (accumulateUnread_scope _ _)
  cases result with
  | ok message => exact send_scope message
  | error e => exact accumulateUnread_scope _ _

/-- A message opens a conversation only if none is open. -/
theorem handleIncomingMessage_scope (inbound : InboundMessage C) (env : InboundEnv Sec)
    (ack flush receipt : IdEnv) {app : App K Sec C} (htarget : app.targetUser.isSome = true) :
    KeepsAt App.scope app (App.handleIncomingMessage S texts inbound env ack flush receipt) := by
  -- the conversation is still open when the handler looks for one
  have hrest : ∀ (sender : UserId) (messageId : MessageId) (app' : App K Sec C),
      app'.scope = app.scope → KeepsAt App.scope app' (do
        let app ← get
        if app.targetUser = none then App.openConversation S texts sender flush
        App.receiptOrUnread S texts sender messageId receipt) := by
    intro sender messageId app' hscope
    have hopen : app'.targetUser ≠ none := by
      rw [show app'.targetUser = app.targetUser from congrArg Prod.snd hscope]
      exact Option.isSome_iff_ne_none.mp htarget
    have hreceipt : KeepsAt App.scope app'
        (App.receiptOrUnread S texts sender messageId receipt) := receiptOrUnread_scope _ _ _ app'
    unfold KeepsAt at hreceipt ⊢
    rw [run_bind_ok (run_get app')]
    simp only [if_neg hopen]
    exact hreceipt
  refine (processInbound_scope inbound env app).bind fun ⟨sender, messageId, shouldAck, fresh⟩ app₁
    h₁ => ?_
  cases shouldAck with
  | true =>
    refine (sendQueued_scope _ app₁).bind fun _ app₂ h₂ => ?_
    cases fresh with
    | true => exact hrest sender messageId app₂ (h₂.trans h₁)
    | false => exact Keeps.pure () app₂
  | false =>
    cases fresh with
    | true => exact hrest sender messageId app₁ h₁
    | false => exact Keeps.pure () app₁

/-- **With a conversation open** only `open_conversation` leaves it. -/
theorem handle_scope (e : Event Sec C) {app : App K Sec C} (htarget : app.targetUser.isSome = true)
    (hopens : e.opens app (finalState ((App.handle S texts parses e).run app)) = false) :
    (finalState ((App.handle S texts parses e).run app)).scope = app.scope := by
  cases e with
  | openConversation target flush => cases hopens
  | enter text now expireFails env historyFails => exact handleEnter_scope _ _ _ _ _ app
  | lifecycleTick env => exact handleLifecycleTick_scope env app
  | authenticated env order => exact handleAuthenticated_scope env order app
  | disconnected => rfl
  | preKeyBundleResponse userId bundle ephemeral drawn now fails =>
    exact handlePreKeyBundleResponse_scope _ _ _ _ _ _ app
  | incomingMessage inbound env ack flush receipt =>
    exact handleIncomingMessage_scope inbound env ack flush receipt htarget
  | queuedMessages messages ack flush => exact handleQueuedMessages_scope messages ack flush app
  | messageSent messageId fails => exact confirmAndTell_scope _ _ app
  | messageRejected messageId fails => exact handleMessageRejected_scope messageId fails app
  | ackSuccess ackId messageIds fails =>
    exact attempt_bind_scope (f := fun _ => pure ()) (fun _ => .pure ()) app
  | readReceiptSent receiptId fails => exact confirmAndTell_scope _ _ app
  | incomingReadReceipt senderId receiptId envelope env confirmFails ack =>
    have hreceipt : Keeps App.scope (App.handle S texts parses
        (.incomingReadReceipt senderId receiptId envelope env confirmFails ack)) :=
      .bind (openReadReceipt_scope _ _ _ _ _) fun _ => .ite (sendQueued_scope _) (.pure ())
    exact hreceipt app
  | preKeyLow env => exact sendQueued_scope _ app
  | preKeysUploaded uploadId accepted remaining env fails => exact sendReplacement_scope _ app
  | signedPreKeyRotated rotationId accepted previouslyAccepted currentKeyId now drawn newId fails =>
    exact sendReplacement_scope _ app

end Scope

end Cmp.Client
