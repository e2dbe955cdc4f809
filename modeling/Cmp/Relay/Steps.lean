import Cmp.Relay.Authorisation
import Cmp.Relay.Greeting

/-! What an event of the process can do to sessions and registry. Most events leave both
alone; the others are a message that is handled, the word to a displaced connection and a
clean-up. The session of a connection is changed by its own messages only: a registration,
a challenge, a response that fails and one that is verified. -/

namespace Cmp.Relay

open Cmp.Crypto Cmp.Protocol Cmp.Lib

variable {K Sec C D κ : Type}

/-- Sessions, registry and users are as before, and the same connections are gone. -/
structure Server.Idle (s s' : Server κ C D) : Prop where
  users : s'.db.users = s.db.users
  online : s'.online = s.online
  nextConnId : s'.nextConnId = s.nextConnId
  displaced : s'.displaced = s.displaced
  authedUser : ∀ conn, (s'.session conn).authedUser = (s.session conn).authedUser
  connId : ∀ conn, (s'.session conn).connId = (s.session conn).connId
  pendingChallenge : ∀ conn, (s'.session conn).pendingChallenge = (s.session conn).pendingChallenge
  cancelled : ∀ conn, (s'.sockets conn).cancelled = (s.sockets conn).cancelled
  gone : ∀ conn, (s'.sockets conn).phase = .gone ↔ (s.sockets conn).phase = .gone

namespace Server.Idle

variable {s t u : Server κ C D}

theorem refl : Idle s s :=
  ⟨rfl, rfl, rfl, rfl, fun _ => rfl, fun _ => rfl, fun _ => rfl, fun _ => rfl, fun _ => Iff.rfl⟩

theorem trans (h : Idle s t) (h' : Idle t u) : Idle s u where
  users := h'.users.trans h.users
  online := h'.online.trans h.online
  nextConnId := h'.nextConnId.trans h.nextConnId
  displaced := h'.displaced.trans h.displaced
  authedUser conn := (h'.authedUser conn).trans (h.authedUser conn)
  connId conn := (h'.connId conn).trans (h.connId conn)
  pendingChallenge conn := (h'.pendingChallenge conn).trans (h.pendingChallenge conn)
  cancelled conn := (h'.cancelled conn).trans (h.cancelled conn)
  gone conn := (h'.gone conn).trans (h.gone conn)

theorem of_sends {P : κ → Outbound C → Prop} (h : Sends P s t) : Idle s t where
  users := congrArg Db.users h.db
  online := h.online
  nextConnId := h.nextConnId
  displaced := h.displaced
  authedUser conn := congrArg Session.authedUser (h.session conn)
  connId conn := congrArg Session.connId (h.session conn)
  pendingChallenge conn := congrArg Session.pendingChallenge (h.session conn)
  cancelled := h.cancelled
  gone conn := by rw [h.phase conn]

theorem of_db {db : Db C D} (h : db.users = s.db.users) : Idle s { s with db := db } :=
  { (refl : Idle s s) with users := h }

variable [DecidableEq κ]

/-- A socket of which only phase, channel and the flag of the session have changed. -/
theorem setSocket {conn : κ} {socket : Socket C}
    (hauthed : socket.session.authedUser = (s.session conn).authedUser)
    (hconnId : socket.session.connId = (s.session conn).connId)
    (hpending : socket.session.pendingChallenge = (s.session conn).pendingChallenge)
    (hcancelled : socket.cancelled = (s.sockets conn).cancelled)
    (hgone : socket.phase = .gone ↔ (s.sockets conn).phase = .gone) :
    Idle s (s.setSocket conn socket) where
  users := rfl
  online := rfl
  nextConnId := rfl
  displaced := rfl
  authedUser := setSocket_keeps (·.session.authedUser) hauthed
  connId := setSocket_keeps (·.session.connId) hconnId
  pendingChallenge := setSocket_keeps (·.session.pendingChallenge) hpending
  cancelled := setSocket_keeps (·.cancelled) hcancelled
  gone other := by
    rw [sockets_setSocket]
    split
    · next heq => rw [heq, hgone]
    · exact Iff.rfl

theorem setPhase {conn : κ} {phase : Phase C} (hphase : phase ≠ .gone)
    (h : (s.sockets conn).phase ≠ .gone) : Idle s (s.setPhase conn phase) :=
  .setSocket rfl rfl rfl rfl (iff_of_false hphase h)

end Server.Idle

namespace Server

/-- Taking an entry out of the registry changes nothing else. -/
theorem unregister_eq (s : Server κ C D) (conn : κ) :
    ∃ online, s.unregister conn = { s with online := online } := by
  unfold unregister
  split
  · unfold removeIfMatch
    split
    · exact ⟨_, rfl⟩
    · exact ⟨s.online, rfl⟩
  · exact ⟨s.online, rfl⟩

theorem Handles.unique {s : Server κ C D} {conn other : κ} {message message' : SessionMessage C}
    {env env' : SessionEnv} {event : Event κ C} (h : s.Handles conn message env event)
    (h' : s.Handles other message' env' event) : other = conn ∧ message' = message ∧
    env' = env := by
  cases h.1.symm.trans h'.1
  cases h.2.1.symm.trans h'.2.1
  exact ⟨rfl, rfl, rfl⟩

variable [DecidableEq κ]

/-- The state with the pending challenge of `conn` replaced. -/
def setPending (conn : κ) (pending : Option PendingChallenge) (s : Server κ C D) :
    Server κ C D :=
  s.setSession conn { s.session conn with pendingChallenge := pending }

theorem session_setPending (s : Server κ C D) (conn other : κ) (pending : Option PendingChallenge) :
    (s.setPending conn pending).session other =
      if other = conn then { s.session conn with pendingChallenge := pending }
      else s.session other :=
  session_setSocket s conn other _

theorem session_login (s : Server κ C D) (conn other : κ) (userId : UserId) (status : Bool) :
    (s.login conn userId status).session other =
      if other = conn then
        { s.session conn with
          authedUser := some userId
          connId := some s.nextConnId
          deliverPrekeyStatus := (s.session conn).deliverPrekeyStatus || status }
      else s.session other :=
  session_setSocket _ conn other _

theorem session_notifyDisplaced (s : Server κ C D) (conn other : κ) :
    (s.notifyDisplaced conn).session other = s.session other := by
  unfold notifyDisplaced
  split
  · dsimp only
    rw [session_setSocket]
    split
    · next h => rw [h]; rfl
    · rfl
  · rfl

theorem session_cleanUp (s : Server κ C D) (conn other : κ) :
    (s.cleanUp conn).session other = s.session other := by
  obtain ⟨online, honline⟩ := s.unregister_eq conn
  unfold cleanUp
  split
  · dsimp only
    rw [honline, session_setSocket]
    split
    · next h => rw [h]; rfl
    · rfl
  · rfl

variable (R : Deployment K Sec C D)

/-! ## What a message does -/

/-- The ways `handle_message` can end: reply and state. -/
inductive Handled (s : Server κ C D) (conn : κ) (env : SessionEnv) :
    SessionMessage C → Option (ServerMessage C) × Server κ C D → Prop
  | served (userId : UserId) (huser : (s.session conn).authedUser = some userId)
      (message : SessionMessage C) (result : Option (ServerMessage C) × Server κ C D) (db : Db C D)
      (husers : db.users = s.db.users)
      (hsends : Sends (fun _ _ => True) { s with db := db } result.2) :
      Handled s conn env message result
  | refused (hnone : (s.session conn).authedUser = none) (message : SessionMessage C)
      (reply : ServerMessage C)
      (hchallenge : ∀ userId nonce timestamp serverId, message = .authChallenge userId →
        reply ≠ .challenge nonce timestamp serverId)
      (hresponse : ∀ signature, message = .authResponse signature →
        (s.session conn).pendingChallenge = none) :
      Handled s conn env message (some reply, s)
  | registered (hnone : (s.session conn).authedUser = none) (registration : Registration)
      (bundle : PreKeyBundle) (oneTimePrekeys : List PublicOneTimePreKey) (db : Db C D)
      (hstored : Registered registration env.createdAt s.db true db) :
      Handled s conn env (.register registration.userId bundle oneTimePrekeys)
        (some .authSuccess, { s with db := db }.login conn registration.userId false)
  | issued (hnone : (s.session conn).authedUser = none) (userId : UserId)
      (huser : s.db.hasUser userId = true) :
      Handled s conn env (.authChallenge userId)
        (some (.challenge (b64Encode env.nonce.toList) env.nowSecs R.serverId),
          s.setPending conn (some ⟨userId, env.nonce, env.nowSecs⟩))
  | rejected (hnone : (s.session conn).authedUser = none) (signature : B64Text Bytes)
      (challenge : PendingChallenge) (hpending : (s.session conn).pendingChallenge = some challenge)
      (reply : ServerMessage C)
      (hchecked : checkResponse R challenge signature env s.db = .error reply) :
      Handled s conn env (.authResponse signature) (some reply, s.setPending conn none)
  | verified (hnone : (s.session conn).authedUser = none) (signature : B64Text Bytes)
      (challenge : PendingChallenge) (hpending : (s.session conn).pendingChallenge = some challenge)
      (hchecked : checkResponse R challenge signature env s.db = .ok ()) :
      Handled s conn env (.authResponse signature)
        (some .authSuccess, (s.setPending conn none).login conn challenge.userId true)

section

variable {R} {s : Server κ C D} {conn : κ} {env : SessionEnv} {message : SessionMessage C}
  {result : Option (ServerMessage C) × Server κ C D}

theorem Handled.of_failure (hnone : (s.session conn).authedUser = none)
    (message : SessionMessage C) (reply : ServerMessage C) (hfailure : isFailure reply = true)
    (hresponse : ∀ signature, message = .authResponse signature →
      (s.session conn).pendingChallenge = none) :
    Handled R s conn env message (some reply, s) := by
  refine .refused hnone message reply (fun _ _ _ _ _ h => ?_) hresponse
  rw [h] at hfailure
  cases hfailure

/-- A message is handled for its own session. -/
theorem Handled.session_other (h : Handled R s conn env message result) {other : κ}
    (hother : other ≠ conn) : result.2.session other = s.session other := by
  cases h with
  | served userId huser message result db husers hsends => exact hsends.session other
  | refused => rfl
  | registered => rw [session_login, if_neg hother]; rfl
  | issued | rejected => rw [session_setPending, if_neg hother]
  | verified => rw [session_login, if_neg hother, session_setPending, if_neg hother]

theorem Handled.socket (h : Handled R s conn env message result) (other : κ) :
    (result.2.sockets other).phase = (s.sockets other).phase ∧
      (result.2.sockets other).cancelled = (s.sockets other).cancelled := by
  have hset : ∀ (s : Server κ C D) session,
      ((s.setSession conn session).sockets other).phase = (s.sockets other).phase ∧
        ((s.setSession conn session).sockets other).cancelled = (s.sockets other).cancelled :=
    fun s session =>
      ⟨phase_setSession s conn session other, cancelled_setSession s conn session other⟩
  cases h with
  | served userId huser message result db husers hsends =>
    exact ⟨hsends.phase other, hsends.cancelled other⟩
  | refused => exact ⟨rfl, rfl⟩
  | registered | issued | rejected => exact hset _ _
  | verified hnone signature challenge =>
    obtain ⟨hphase, hcancelled⟩ := hset s { s.session conn with pendingChallenge := none }
    obtain ⟨hphase', hcancelled'⟩ :=
      hset ((s.setPending conn none).insert challenge.userId conn).2 _
    exact ⟨hphase'.trans hphase, hcancelled'.trans hcancelled⟩

end

variable [DecidableEq D]

theorem handleRegister_handled (s : Server κ C D) (conn : κ) (env : SessionEnv)
    (hnone : (s.session conn).authedUser = none) (userId : UserId) (bundle : PreKeyBundle)
    (oneTimePrekeys : List PublicOneTimePreKey) :
    Handled R s conn env (.register userId bundle oneTimePrekeys)
      (s.handleRegister R conn userId bundle oneTimePrekeys env) := by
  have hidle : ¬(s.session conn).authedUser.isSome = true := by
    rw [hnone]
    exact nofun
  unfold handleRegister
  rw [if_neg hidle]
  rcases handleRegister_cases R.suite userId bundle oneTimePrekeys env.toRelayEnv with
    ⟨reply, hhandling, hreply⟩ | ⟨registration, rfl, -, -, -, -, -, -, hhandling⟩
  · rw [hhandling]
    dsimp only [Handling.run]
    split
    · next heq =>
      rw [Option.some.inj heq] at hreply
      cases hreply
    · exact .refused hnone _ reply nofun nofun
  · rw [hhandling]
    dsimp only [Handling.run]
    cases hfails : env.fails with
    | true => exact .refused hnone _ error500Generic nofun nofun
    | false =>
      have heffect := Transaction.effect R.digest
        (.registerAtomic registration env.createdAt) s.db
      generalize (Transaction.registerAtomic registration env.createdAt).answer? R.digest s.db =
        answer at heffect
      generalize (Transaction.registerAtomic registration env.createdAt).after R.digest s.db =
        db at heffect
      cases heffect with
      | failed => exact .of_failure hnone _ error500Generic rfl fun _ h => by cases h
      | registered _ _ result _ hregistered =>
        cases result with
        | false =>
          cases hregistered
          exact .of_failure hnone _ _ rfl fun _ h => by cases h
        | true => exact .registered hnone registration bundle oneTimePrekeys db hregistered

theorem handleMessage_handled (s : Server κ C D) (conn : κ) (message : SessionMessage C)
    (env : SessionEnv) : Handled R s conn env message (s.handleMessage R conn message env) := by
  cases huser : (s.session conn).authedUser with
  | some userId =>
    have hauthed : (s.session conn).authedUser.isSome = true := huser ▸ rfl
    cases message with
    | register newUser bundle oneTimePrekeys =>
      simp only [handleMessage, handleRegister, if_pos hauthed]
      exact .served userId huser _ _ s.db rfl .refl
    | authChallenge newUser =>
      simp only [handleMessage, handleAuthChallenge, if_pos hauthed]
      exact .served userId huser _ _ s.db rfl .refl
    | authResponse signature =>
      simp only [handleMessage, handleAuthResponse, if_pos hauthed]
      exact .served userId huser _ _ s.db rfl .refl
    | typing recipientId =>
      simp only [handleMessage, huser]
      exact .served userId huser _ _ s.db rfl (sendTo_sends fun _ _ => trivial)
    | request message =>
      simp only [handleMessage, huser, handleRequest]
      refine .served userId huser _ _ _ ?_ ((pushes_sends _ _ _ _ _).mono fun _ _ _ => trivial)
      exact (handleMessage_authorised R.suite (pageLen R.wire) env.toRelayEnv env.fails
        message).users
  | none =>
    have hidle : ¬(s.session conn).authedUser.isSome = true := by simp [huser]
    cases message with
    | register newUser bundle oneTimePrekeys =>
      exact handleRegister_handled R s conn env huser newUser bundle oneTimePrekeys
    | authChallenge newUser =>
      simp only [handleMessage, handleAuthChallenge, if_neg hidle]
      split
      · exact .of_failure huser _ error500Generic rfl fun _ h => by cases h
      split
      · exact .of_failure huser _ _ rfl fun _ h => by cases h
      · next hknown => exact .issued huser newUser (not_not.mp hknown)
    | authResponse signature =>
      simp only [handleMessage, handleAuthResponse, if_neg hidle]
      cases hpending : (s.session conn).pendingChallenge with
      | none => exact .of_failure huser _ _ rfl fun _ _ => hpending
      | some challenge =>
        dsimp only
        cases hchecked : checkResponse R challenge signature env s.db with
        | error reply => exact .rejected huser signature challenge hpending reply hchecked
        | ok => exact .verified huser signature challenge hpending hchecked
    | typing recipientId | request message =>
      simp only [handleMessage, huser]
      exact .of_failure huser _ _ rfl fun _ h => by cases h

/-- The reply and the way back to the loop change neither sessions nor registry. -/
theorem serve_idle {s : Server κ C D} {conn : κ} {message : SessionMessage C} {env : SessionEnv}
    {event : Event κ C} (h : s.Handles conn message env event) :
    Idle (s.handleMessage R conn message env).2 (s.serve R conn message env) := by
  have hphase := ((handleMessage_handled R s conn message env).socket conn).1.trans h.2.1
  refine .setSocket rfl rfl rfl rfl (iff_of_false ?_ (hphase ▸ nofun))
  unfold nextPhase
  split
  · split <;> exact nofun
  · exact nofun

theorem step_of_handles {s : Server κ C D} {conn : κ} {message : SessionMessage C}
    {env : SessionEnv} {event : Event κ C} (h : s.Handles conn message env event) :
    s.step R event = s.serve R conn message env := by
  obtain ⟨rfl, hphase, hcancelled⟩ := h
  unfold step turn
  simp only [hphase, hcancelled]
  rfl

/-! ## What an event does -/

/-- The ways a step can end. -/
inductive Stepped (s : Server κ C D) (event : Event κ C) : Server κ C D → Prop
  | handled (conn : κ) (message : SessionMessage C) (env : SessionEnv)
      (hhandles : s.Handles conn message env event) :
      Stepped s event (s.serve R conn message env)
  | idle (s' : Server κ C D) (hidle : Idle s s')
      (hquiet : ∀ conn message env, ¬s.Handles conn message env event) : Stepped s event s'
  | notified (conn : κ) (hevent : event = .notify conn) (hconn : conn ∈ s.displaced) :
      Stepped s event (s.notifyDisplaced conn)
  | cleaned (conn : κ) (hevent : event = .cleanUp conn)
      (hended : (s.sockets conn).phase = .ended) : Stepped s event (s.cleanUp conn)

theorem step_stepped (event : Event κ C) (s : Server κ C D) :
    Stepped R s event (s.step R event) := by
  cases event with
  | poll conn next =>
    refine .idle _ ?_ (fun _ _ _ h => by cases h.1)
    unfold step poll
    dsimp only
    split
    · next hphase =>
      have hlive : (s.sockets conn).phase ≠ .gone := hphase ▸ nofun
      split
      · exact .setPhase nofun hlive
      split
      · exact .setPhase nofun hlive
      · exact .setPhase nofun hlive
    · exact .refl
  | turn conn env =>
    unfold step turn
    dsimp only
    split
    · next frame hphase =>
      have hlive : (s.sockets conn).phase ≠ .gone := hphase ▸ nofun
      split
      · next hcancelled =>
        refine .idle _ (.setPhase nofun hlive) fun _ _ _ h => ?_
        cases h.1
        exact absurd (h.2.2.symm.trans hcancelled) nofun
      next hcancelled =>
      have hother : ∀ frame', frame = frame' → (∀ message, frame' ≠ .text (some message)) →
          ∀ other message env', ¬s.Handles other message env' (.turn conn env) := by
        rintro _ rfl hframe other message env' ⟨hevent, hphase', -⟩
        cases hevent
        cases hphase.symm.trans hphase'
        exact hframe message rfl
      split
      · exact .idle _ (.setPhase nofun hlive) (hother .close rfl nofun)
      · exact .idle _ (.setPhase nofun hlive) (hother .other rfl nofun)
      · refine .idle _ ?_ (hother (.text none) rfl nofun)
        have hsent : Idle s (s.setChannel conn ((s.sockets conn).channel.trySend
            (.reply (error400 "malformed message"))).2) := .setSocket rfl rfl rfl rfl Iff.rfl
        exact hsent.trans (.setPhase nofun fun hgone => hlive ((hsent.gone conn).mp hgone))
      · next message =>
        exact .handled conn message env ⟨rfl, hphase, eq_false_of_ne_true hcancelled⟩
    · next hphase =>
      refine .idle _ .refl fun _ _ _ h => ?_
      cases h.1
      exact hphase _ h.2.1
  | greet conn env =>
    refine .idle _ ?_ (fun _ _ _ h => by cases h.1)
    have hgreeted := greet_greeted R conn env s
    generalize hgreet : s.greet R conn env = s' at hgreeted
    rw [show s.step R (.greet conn env) = s' from hgreet]
    cases hgreeted with
    | resting => exact .refl
    | finished userId hphase =>
      have hflag : Idle s (s.setSession conn
          { s.session conn with deliverPrekeyStatus := false }) :=
            .setSocket rfl rfl rfl rfl Iff.rfl
      refine hflag.trans (.setPhase nofun fun hgone => ?_)
      cases hphase.symm.trans ((hflag.gone conn).mp hgone)
    | sent userId errand rest errands s' hphase hsends =>
      exact .trans (.of_sends hsends) (.setPhase nofun (hsends.phase conn ▸ hphase ▸ nofun))
    | removed userId errand rest db hphase hdb =>
      refine .trans (.of_db ?_) (.setPhase nofun (hphase ▸ nofun))
      rcases hdb with rfl | ⟨_, -, rfl⟩ | ⟨_, -, rfl⟩ <;> rfl
    | loaded userId errand rest errands hphase => exact .setPhase nofun (hphase ▸ nofun)
  | notify conn =>
    by_cases hconn : conn ∈ s.displaced
    · exact .notified conn rfl hconn
    · refine .idle _ ?_ (fun _ _ _ h => by cases h.1)
      unfold step notifyDisplaced
      dsimp only
      rw [if_neg hconn]
      exact .refl
  | cleanUp conn =>
    by_cases hended : (s.sockets conn).phase = .ended
    · exact .cleaned conn rfl hended
    · refine .idle _ ?_ (fun _ _ _ h => by cases h.1)
      unfold step cleanUp
      dsimp only
      split
      · next h => exact absurd h hended
      · exact .refl
  | write conn | hangUp conn =>
    exact .idle _ (.setSocket rfl rfl rfl rfl Iff.rfl) (fun _ _ _ h => by cases h.1)
  | collect now => exact .idle _ (.of_db rfl) (fun _ _ _ h => by cases h.1)

/-! ## Where deliveries come from -/

/-- A delivery in `s'` is the one of `s` gone on, or that of a login; what it has to do it had
to do before, or the database has just given it. -/
structure Follows (W : Wire C) (s s' : Server κ C D) (conn : κ) (delivery : Delivery C) : Prop where
  user : (∃ old, (s.sockets conn).phase = .greeting ⟨delivery.userId, old⟩) ∨
    (s'.session conn).authedUser = some delivery.userId
  errands : ∀ errand ∈ delivery.errands,
    (∃ old, (s.sockets conn).phase = .greeting ⟨delivery.userId, old⟩ ∧ errand ∈ old) ∨
      errand.Loaded W delivery.userId s.db

omit [DecidableEq κ] [DecidableEq D] in
theorem Follows.same {W : Wire C} {s s' : Server κ C D} {conn : κ} {delivery : Delivery C}
    (h : (s.sockets conn).phase = .greeting delivery) : Follows W s s' conn delivery :=
  ⟨.inl ⟨_, h⟩, fun _ herrand => .inl ⟨_, h, herrand⟩⟩

omit [DecidableEq D] in
/-- Only the phase of one connection has changed. -/
theorem Follows.setSocket {W : Wire C} {s s' t : Server κ C D} {conn other : κ} {socket : Socket C}
    {delivery : Delivery C}
    (h : ((t.setSocket conn socket).sockets other).phase = .greeting delivery)
    (hsame : ∀ conn, (t.sockets conn).phase = (s.sockets conn).phase)
    (hnew : socket.phase = .greeting delivery → Follows W s s' conn delivery) :
    Follows W s s' other delivery := by
  rw [sockets_setSocket] at h
  split at h
  · next heq =>
    rw [heq]
    exact hnew h
  · exact .same ((hsame other).symm.trans h)

omit [DecidableEq D] in
theorem greet_follows {s : Server κ C D} {conn other : κ} {env : GreetEnv} {delivery : Delivery C}
    (h : ((s.greet R conn env).sockets other).phase = .greeting delivery) :
    Follows R.wire s (s.greet R conn env) other delivery := by
  have hgreeted := greet_greeted R conn env s
  generalize s.greet R conn env = s' at h hgreeted
  cases hgreeted with
  | resting => exact .same h
  | finished userId hphase => exact .setSocket h (phase_setSession s conn _) fun h => by cases h
  | sent userId errand rest errands s' hphase hsends herrands =>
    refine .setSocket h hsends.phase fun hnew => ?_
    cases hnew
    refine ⟨.inl ⟨_, hphase⟩, fun errand herrand => .inl ⟨_, hphase, ?_⟩⟩
    exact List.mem_cons_of_mem _ (herrands herrand)
  | removed userId errand rest db hphase hdb =>
    refine .setSocket h (fun _ => rfl) fun hnew => ?_
    cases hnew
    exact ⟨.inl ⟨_, hphase⟩, fun errand herrand =>
      .inl ⟨_, hphase, List.mem_cons_of_mem _ herrand⟩⟩
  | loaded userId errand rest errands hphase hloaded =>
    refine .setSocket h (fun _ => rfl) fun hnew => ?_
    cases hnew
    refine ⟨.inl ⟨_, hphase⟩, fun errand herrand => ?_⟩
    rcases List.mem_append.mp herrand with herrand | herrand
    · exact .inr (hloaded errand herrand)
    · exact .inl ⟨_, hphase, List.mem_cons_of_mem _ herrand⟩

theorem serve_follows {s : Server κ C D} {conn other : κ} {message : SessionMessage C}
    {env : SessionEnv} {delivery : Delivery C}
    (h : ((s.serve R conn message env).sockets other).phase = .greeting delivery) :
    Follows R.wire s (s.serve R conn message env) other delivery := by
  have hhandled := handleMessage_handled R s conn message env
  refine .setSocket h (fun other => (hhandled.socket other).1) fun hnew => ?_
  dsimp only [nextPhase] at hnew
  split at hnew
  · split at hnew
    · next userId _ huser =>
      cases hnew
      refine ⟨.inr ?_, fun errand herrand => .inr (Delivery.start_loaded herrand)⟩
      unfold serve
      dsimp only
      rw [session_setSocket, if_pos rfl]
      exact huser
    · cases hnew
  · cases hnew

/-- Every delivery follows from the state before. -/
theorem step_follows {s : Server κ C D} {event : Event κ C} {conn : κ} {delivery : Delivery C}
    (h : ((s.step R event).sockets conn).phase = .greeting delivery) :
    Follows R.wire s (s.step R event) conn delivery := by
  cases event with
  | poll other next =>
    unfold step poll at h
    dsimp only at h
    repeat' split at h
    all_goals first
      | exact .setSocket h (fun _ => rfl) fun h => by cases h
      | exact .same h
  | turn other env =>
    have hserve : ∀ message, s.Handles other message env (.turn other env) →
        s.step R (.turn other env) = s.serve R other message env := fun _ => step_of_handles R
    unfold step turn at h
    dsimp only at h
    split at h
    · next frame hphase =>
      split at h
      · exact .setSocket h (fun _ => rfl) fun h => by cases h
      next hcancelled =>
      split at h
      · exact .setSocket h (fun _ => rfl) fun h => by cases h
      · exact .setSocket h (fun _ => rfl) fun h => by cases h
      · exact .setSocket h (setSocket_keeps (·.phase) rfl) fun h => by cases h
      · next message =>
        rw [hserve message ⟨rfl, hphase, eq_false_of_ne_true hcancelled⟩]
        exact serve_follows R h
    · exact .same h
  | greet other env => exact greet_follows R h
  | notify other =>
    unfold step notifyDisplaced at h
    dsimp only at h
    split at h
    · exact .setSocket h (fun _ => rfl) .same
    · exact .same h
  | cleanUp other =>
    obtain ⟨online, honline⟩ := s.unregister_eq other
    unfold step cleanUp at h
    dsimp only at h
    split at h
    · rw [honline] at h
      exact .setSocket h (fun _ => rfl) fun h => by cases h
    · exact .same h
  | write other | hangUp other => exact .setSocket h (fun _ => rfl) .same
  | collect now => exact .same h

end Server

end Cmp.Relay
