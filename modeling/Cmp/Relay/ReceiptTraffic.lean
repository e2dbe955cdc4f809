import Cmp.Relay.ReceiptMoves
import Cmp.Relay.Storage

/-! The confirmations of read receipts on the channels, apart from the requests of users. The
deliveries after a login send the confirmations that are due; no other event sends a
`ReadReceiptSent`. -/

namespace Cmp.Relay

open Cmp.Crypto Cmp.Protocol Cmp.Lib

variable {K Sec C D κ : Type}

theorem handleRegister_replies (S : IdentitySuite K Sec C) (userId : UserId) (bundle : PreKeyBundle)
    (oneTimePrekeys : List PublicOneTimePreKey) (env : RelayEnv) :
    (handleRegister S userId bundle oneTimePrekeys env).Replies
      fun reply => ∀ id, reply ≠ .readReceiptSent id := by
  rcases handleRegister_cases S userId bundle oneTimePrekeys env with
    ⟨reply, hhandling, hfailure⟩ | ⟨registration, -, -, -, -, -, -, -, hhandling⟩
  · rw [hhandling]
    refine replies_reply fun id hreply => ?_
    rw [hreply] at hfailure
    cases hfailure
  · rw [hhandling]
    intro answer reply hreply
    unfold registerReply at hreply
    split at hreply <;> cases hreply <;> exact nofun

theorem ne_readReceiptSent_of_failure {reply : ServerMessage C} (h : isFailure reply = true)
    (id : MessageId) : some reply ≠ some (.readReceiptSent id) := by
  rintro ⟨⟩
  cases h

theorem checkResponse_error {R : Deployment K Sec C D} {challenge : PendingChallenge}
    {signature : B64Text Bytes} {env : SessionEnv} {db : Db C D} {reply : ServerMessage C}
    (h : checkResponse R challenge signature env db = .error reply) : isFailure reply = true := by
  unfold checkResponse at h
  split at h
  · cases h; rfl
  split at h
  · cases h; rfl
  split at h
  · cases h; rfl
  dsimp only at h
  repeat' split at h
  all_goals cases h
  all_goals rfl

namespace Server

/-- A message that is no `ReadReceiptSent`. -/
def Silent (_ : κ) (message : Outbound C) : Prop := ∀ id, message ≠ .reply (.readReceiptSent id)

/-- A `ReadReceiptSent` is what the deliveries of the connection have to send next. -/
def Confirming (s : Server κ C D) (conn : κ) (message : Outbound C) : Prop :=
  ∀ id, message = .reply (.readReceiptSent id) → ∃ userId rest,
    (s.sockets conn).phase = .greeting ⟨userId, .send message :: rest⟩

theorem Puts.confirming {s s' : Server κ C D} (h : Puts Silent s s') :
    Puts (Confirming s) s s' := by
  intro conn
  obtain ⟨new, hnew, hsilent⟩ := h conn
  exact ⟨new, hnew, fun message hmessage id hid => absurd hid (hsilent message hmessage id)⟩

variable [DecidableEq κ]

theorem sent_login (s : Server κ C D) (conn other : κ) (userId : UserId) (status : Bool) :
    ((s.login conn userId status).sockets other).channel.sent =
      (s.sockets other).channel.sent := by
  unfold login setSession
  rw [setSocket_keeps (·.channel.sent)]
  · rfl
  · rfl

variable [DecidableEq D] {R : Deployment K Sec C D} {s : Server κ C D}

/-- An event in which no request is handled. -/
def Unasked (s : Server κ C D) (event : Event κ C) : Prop :=
  ∀ conn message env, s.Handles conn (.request message) env event →
    (s.session conn).authedUser = none

/-- What is not a request of a user is neither answered with a confirmation nor pushes one. -/
theorem handleMessage_silent {conn : κ} {message : SessionMessage C} (env : SessionEnv)
    (h : ∀ request, message = .request request → (s.session conn).authedUser = none) :
    (∀ id, (s.handleMessage R conn message env).1 ≠ some (.readReceiptSent id)) ∧
      Puts Silent s (s.handleMessage R conn message env).2 := by
  cases message with
  | register userId bundle oneTimePrekeys =>
    have hreplies := handleRegister_replies R.suite userId bundle oneTimePrekeys env.toRelayEnv
    simp only [handleMessage, handleRegister]
    split
    · exact ⟨ne_readReceiptSent_of_failure rfl, .of_sent fun _ => rfl⟩
    split
    · exact ⟨fun _ h => (by cases h), .of_sent fun other => sent_login _ conn other userId false⟩
    · exact ⟨fun id hid => hreplies.run hid id rfl, .of_sent fun _ => rfl⟩
  | authChallenge userId =>
    simp only [handleMessage, handleAuthChallenge]
    split
    · exact ⟨ne_readReceiptSent_of_failure rfl, .of_sent fun _ => rfl⟩
    split
    · exact ⟨ne_readReceiptSent_of_failure rfl, .of_sent fun _ => rfl⟩
    split
    · exact ⟨ne_readReceiptSent_of_failure rfl, .of_sent fun _ => rfl⟩
    · exact ⟨fun _ h => (by cases h), .setSocket_sent rfl⟩
  | authResponse signature =>
    simp only [handleMessage, handleAuthResponse]
    split
    · exact ⟨ne_readReceiptSent_of_failure rfl, .of_sent fun _ => rfl⟩
    split
    · exact ⟨ne_readReceiptSent_of_failure rfl, .of_sent fun _ => rfl⟩
    have htaken : Puts Silent s
        (s.setSession conn { s.session conn with pendingChallenge := none }) := .setSocket_sent rfl
    split
    · next reply hchecked =>
      exact ⟨ne_readReceiptSent_of_failure (checkResponse_error hchecked), htaken⟩
    · refine ⟨fun _ h => (by cases h), htaken.trans (.of_sent fun other => ?_)⟩
      exact sent_login _ conn other _ true
  | typing recipientId =>
    simp only [handleMessage]
    split
    · exact ⟨ne_readReceiptSent_of_failure rfl, .of_sent fun _ => rfl⟩
    · exact ⟨fun _ h => (by cases h), (sendTo_sends fun _ _ _ hid => (by cases hid)).sent⟩
  | request request =>
    simp only [handleMessage, h request rfl]
    exact ⟨ne_readReceiptSent_of_failure rfl, .of_sent fun _ => rfl⟩

theorem serve_silent {conn : κ} {message : SessionMessage C} {env : SessionEnv}
    (h : ∀ request, message = .request request → (s.session conn).authedUser = none) :
    Puts Silent s (s.serve R conn message env) := by
  obtain ⟨hreply, hputs⟩ := handleMessage_silent (R := R) env h
  refine hputs.trans ?_
  unfold serve
  dsimp only
  generalize s.handleMessage R conn message env = handled at hreply ⊢
  cases hhandled : handled.1 with
  | none => exact .setSocket_sent rfl
  | some reply =>
    refine .trySend rfl fun id hid => ?_
    cases hid
    exact hreply id hhandled

theorem step_puts {event : Event κ C} (h : s.Unasked event) :
    Puts (Confirming s) s (s.step R event) := by
  cases event with
  | poll conn next =>
    unfold step poll
    dsimp only
    repeat' split
    all_goals first | exact .setSocket_sent rfl | exact .of_sent fun _ => rfl
  | turn conn env =>
    refine Puts.confirming ?_
    unfold step turn
    dsimp only
    split
    · next frame hphase =>
      split
      · exact .setSocket_sent rfl
      next hcancelled =>
      split
      · exact .setSocket_sent rfl
      · exact .setSocket_sent rfl
      · have hsent : Puts Silent s (s.setChannel conn ((s.sockets conn).channel.trySend
            (.reply (error400 "malformed message"))).2) := .trySend rfl fun _ => nofun
        exact hsent.trans (.setSocket_sent rfl)
      · next message =>
        refine serve_silent fun request hrequest => ?_
        subst hrequest
        exact h conn request env ⟨rfl, hphase, eq_false_of_ne_true hcancelled⟩
    · exact .of_sent fun _ => rfl
  | greet conn env =>
    have hgreeted := greet_greeted R conn env s
    generalize hgreet : s.greet R conn env = s' at hgreeted
    rw [show s.step R (.greet conn env) = s' from hgreet]
    cases hgreeted with
    | resting => exact .of_sent fun _ => rfl
    | finished userId hphase =>
      have hflag : Puts s.Confirming s (s.setSession conn
          { s.session conn with deliverPrekeyStatus := false }) := .setSocket_sent rfl
      exact hflag.trans (.setSocket_sent rfl)
    | sent userId errand rest errands s' hphase hsends =>
      refine Puts.trans (.mono hsends.sent ?_) (.setSocket_sent rfl)
      rintro other message (hpage | ⟨rfl, rfl⟩) id rfl
      · cases hpage
      · exact ⟨userId, rest, hphase⟩
    | removed userId errand rest db hphase hdb =>
      exact Puts.setSocket_sent (s := { s with db := db }) rfl
    | loaded => exact .setSocket_sent rfl
  | notify conn =>
    refine Puts.confirming ?_
    unfold step notifyDisplaced
    dsimp only
    split
    · exact Puts.trySend (s := { s with displaced := s.displaced.erase conn }) rfl fun _ => nofun
    · exact .of_sent fun _ => rfl
  | cleanUp conn =>
    obtain ⟨online, honline⟩ := s.unregister_eq conn
    unfold step cleanUp
    dsimp only
    split
    · rw [honline]
      exact Puts.setSocket_sent (s := { s with online := online }) rfl
    · exact .of_sent fun _ => rfl
  | write conn | hangUp conn => exact .setSocket_sent rfl
  | collect now => exact .of_sent fun _ => rfl

end Server

end Cmp.Relay
