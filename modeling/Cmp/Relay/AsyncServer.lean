import Cmp.Relay.Authentication
import Cmp.Relay.Displacement
import Cmp.Relay.ReceiptTraffic
import Cmp.Relay.Storage

/-! The process at its awaits. Between the database call of a request and the rest of its
handler other connections may do anything, as between two errands of a delivery; and the
process may stop at any time and start again on its database. -/

namespace Cmp.Relay

open Cmp.Crypto Cmp.Protocol Cmp.Lib

variable {K Sec C D κ : Type}

/-! ## The registry -/

namespace Server

/-- The registry holds connections of its users. -/
def Registry (s : Server κ C D) : Prop :=
  ∀ userId entry, s.online userId = some entry → (s.session entry.conn).authedUser = some userId

namespace Registry

variable {s s' : Server κ C D}

theorem boot (db : Db C D) : Registry (Server.boot db : Server κ C D) := fun _ _ h => by cases h

theorem congr (h : Registry s) (honline : ∀ userId entry, s'.online userId = some entry →
      s.online userId = some entry)
    (hauthed : ∀ conn, (s'.session conn).authedUser = (s.session conn).authedUser) :
    Registry s' := by
  intro userId entry hentry
  rw [hauthed]
  exact h userId entry (honline userId entry hentry)

theorem idle (h : Registry s) (hidle : Idle s s') : Registry s' :=
  h.congr (fun _ _ hentry => hidle.online ▸ hentry) hidle.authedUser

theorem unregister (h : Registry s) (conn : κ) : Registry (s.unregister conn) := by
  unfold Server.unregister
  split
  · next userId connId _ _ =>
    unfold removeIfMatch
    split
    · refine h.congr (fun other entry hentry => ?_) fun _ => rfl
      dsimp only at hentry
      rw [Function.update_apply] at hentry
      split at hentry
      · cases hentry
      · exact hentry
    · exact h
  · exact h

variable [DecidableEq κ]

/-- A connection without a user has no entry, so a login gives it its first. -/
theorem login (h : Registry s) {conn : κ} (hnone : (s.session conn).authedUser = none)
    (userId : UserId) (status : Bool) : Registry (s.login conn userId status) := by
  intro other entry hentry
  have honline : (s.login conn userId status).online =
      Function.update s.online userId (some ⟨s.nextConnId, conn⟩) := rfl
  rw [honline, Function.update_apply] at hentry
  rw [session_login]
  split at hentry
  · next heq =>
    cases hentry
    rw [if_pos rfl, heq]
  · have hbefore := h other entry hentry
    have hne : entry.conn ≠ conn := by
      intro hconn
      rw [hconn, hnone] at hbefore
      cases hbefore
    rw [if_neg hne]
    exact hbefore

theorem setPending (h : Registry s) (conn : κ) (pending : Option PendingChallenge) :
    Registry (s.setPending conn pending) :=
  h.congr (fun _ _ hentry => hentry) (setSocket_keeps (·.session.authedUser) rfl)

theorem handled {R : Deployment K Sec C D} (h : Registry s) {conn : κ} {env : SessionEnv}
    {message : SessionMessage C} {result : Option (ServerMessage C) × Server κ C D}
    (hhandled : Handled R s conn env message result) : Registry result.2 := by
  cases hhandled with
  | served userId huser message result db husers hsends =>
    exact h.idle ((Idle.of_db husers).trans (.of_sends hsends))
  | refused => exact h
  | registered hnone registration bundle oneTimePrekeys db hstored =>
    have hdb : Registry { s with db := db } := h
    exact hdb.login hnone registration.userId false
  | issued hnone userId huser => exact h.setPending conn _
  | rejected => exact h.setPending conn none
  | verified hnone signature challenge =>
    refine (h.setPending conn none).login ?_ challenge.userId true
    rw [session_setPending, if_pos rfl]
    exact hnone

variable [DecidableEq D] (R : Deployment K Sec C D)

theorem step (h : Registry s) (event : Event κ C) : Registry (s.step R event) := by
  have hstepped := Server.step_stepped R event s
  generalize s.step R event = s' at hstepped
  cases hstepped with
  | handled conn message env hhandles =>
    exact (h.handled (handleMessage_handled R s conn message env)).idle (serve_idle R hhandles)
  | idle s' hidle hquiet => exact h.idle hidle
  | notified conn hevent hconn =>
    refine h.congr (fun userId entry hentry => ?_) fun other => by rw [session_notifyDisplaced]
    unfold notifyDisplaced at hentry
    rw [if_pos hconn] at hentry
    exact hentry
  | cleaned conn hevent hended =>
    refine (h.unregister conn).congr (fun userId entry hentry => ?_) fun other => ?_
    · unfold cleanUp at hentry
      simp only [hended] at hentry
      exact hentry
    · rw [session_cleanUp]
      obtain ⟨online, honline⟩ := s.unregister_eq conn
      rw [honline]
      rfl

end Registry

end Server

/-! ## The state -/

/-- A request whose database call has returned, with the answer of the database and the reply
of the handler. -/
structure Call (C : Type) where
  userId : UserId
  message : ClientMessage C
  env : SessionEnv
  answer : Option Answer
  reply : Option (ServerMessage C)

/-- `calls` are the requests that wait for the database; a connection does one thing at a time. -/
structure AsyncServer (κ C D : Type) where
  server : Server κ C D
  calls : κ → Option (Call C)

namespace AsyncServer

def boot (db : Db C D) : AsyncServer κ C D := ⟨.boot db, fun _ => none⟩

/-- The process stops, whatever it was doing, and starts again. -/
def restart (a : AsyncServer κ C D) : AsyncServer κ C D := boot a.server.db

variable [DecidableEq κ]

/-- The reply of a request goes onto the channel, and the loop goes on. -/
def respond (conn : κ) (reply : Option (ServerMessage C)) (s : Server κ C D) : Server κ C D :=
  let socket := s.sockets conn
  let sent := reply.elim (true, socket.channel) fun reply => socket.channel.trySend (.reply reply)
  s.setSocket conn
    { socket with
      channel := sent.2
      phase := if sent.1 then .reading else .ended }

theorem session_respond (conn other : κ) (reply : Option (ServerMessage C)) (s : Server κ C D) :
    (respond conn reply s).session other = s.session other := by
  unfold respond
  exact Server.setSocket_keeps (·.session) (by rfl) other

/-- The rest of a handler: what it pushes, and its reply. -/
def resume (conn : κ) (a : AsyncServer κ C D) : AsyncServer κ C D :=
  match a.calls conn with
  | none => a
  | some call =>
    { a with
      server := respond conn call.reply
        (a.server.pushes call.userId call.env call.answer call.message)
      calls := Function.update a.calls conn none }

section Steps

variable [DecidableEq D] (R : Deployment K Sec C D)

/-- The database call of a request. -/
def call (conn : κ) (userId : UserId) (message : ClientMessage C) (env : SessionEnv)
    (a : AsyncServer κ C D) : AsyncServer κ C D :=
  let handling :=
    Relay.handleMessage R.suite (pageLen R.wire) userId env.toRelayEnv a.server.db message
  let handled := handling.run R.digest env.fails a.server.db
  { a with
    server := { a.server with db := handled.2 }
    calls := Function.update a.calls conn (some ⟨userId, message, env,
      handling.answer? R.digest env.fails a.server.db, handled.1⟩) }

/-- A request of a user is left at its database call; other frames are handled at once. -/
def turn (conn : κ) (env : SessionEnv) (a : AsyncServer κ C D) : AsyncServer κ C D :=
  if (a.calls conn).isSome then a
  else
    match (a.server.sockets conn).phase, (a.server.sockets conn).cancelled,
        (a.server.session conn).authedUser with
    | .framed (.text (some (.request message))), false, some userId =>
      a.call R conn userId message env
    | _, _, _ => { a with server := a.server.turn R conn env }

inductive Event (κ C : Type)
  | server (event : Server.Event κ C)
  | resume (conn : κ)
  | restart

def step (event : Event κ C) (a : AsyncServer κ C D) : AsyncServer κ C D :=
  match event with
  | .server (.turn conn env) => a.turn R conn env
  | .server event => { a with server := a.server.step R event }
  | .resume conn => a.resume conn
  | .restart => a.restart

/-- The state after the first events of a run. -/
def after (events : Nat → Event κ C) (a : AsyncServer κ C D) : Nat → AsyncServer κ C D
  | 0 => a
  | n + 1 => (after events a n).step R (events n)

theorem after_succ (events : Nat → Event κ C) (a : AsyncServer κ C D) (n : Nat) :
    a.after R events (n + 1) = (a.after R events n).step R (events n) := rfl

end Steps

section Runs

variable [DecidableEq D] (R : Deployment K Sec C D) (events : Nat → Event κ C)
  (a : AsyncServer κ C D)

/-- What the event `n` puts on the channel of `conn`. -/
def puts (n : Nat) (conn : κ) : List (Outbound C) :=
  ((a.after R events (n + 1)).server.sockets conn).channel.sent.drop
    ((a.after R events n).server.sockets conn).channel.sent.length

variable {R events a}

theorem mem_puts {P : κ → Outbound C → Prop} {n : Nat} {conn : κ} {message : Outbound C}
    (h : Server.Puts P (a.after R events n).server (a.after R events (n + 1)).server)
    (hmessage : message ∈ puts R events a n conn) : P conn message := by
  obtain ⟨new, hnew, hP⟩ := h conn
  unfold puts at hmessage
  rw [hnew, List.drop_left] at hmessage
  exact hP message hmessage

end Runs

/-- In this event a request of `userId` comes to its database call. -/
def Asks (conn : κ) (userId : UserId) (message : ClientMessage C) (env : SessionEnv)
    (event : Event κ C) (a : AsyncServer κ C D) : Prop :=
  event = .server (.turn conn env) ∧
    a.server.Handles conn (.request message) env (.turn conn env) ∧
    (a.server.session conn).authedUser = some userId ∧ a.calls conn = none

/-! ## What an event does -/

variable [DecidableEq D] (R : Deployment K Sec C D)

/-- The ways a step can end. -/
inductive Stepped (a : AsyncServer κ C D) (event : Event κ C) : AsyncServer κ C D → Prop
  | idle : Stepped a event a
  | called (conn : κ) (userId : UserId) (message : ClientMessage C) (env : SessionEnv)
      (hasks : a.Asks conn userId message env event) :
      Stepped a event (a.call R conn userId message env)
  | served (serverEvent : Server.Event κ C) (hevent : event = .server serverEvent)
      (hunasked : a.server.Unasked serverEvent) :
      Stepped a event { a with server := a.server.step R serverEvent }
  | resumed (conn : κ) (call : Call C) (hevent : event = .resume conn)
      (hcall : a.calls conn = some call) :
      Stepped a event
        { a with
          server := respond conn call.reply
            (a.server.pushes call.userId call.env call.answer call.message)
          calls := Function.update a.calls conn none }
  | restarted (hevent : event = .restart) : Stepped a event a.restart

theorem turn_stepped (conn : κ) (env : SessionEnv) (a : AsyncServer κ C D) :
    Stepped R a (.server (.turn conn env)) (a.turn R conn env) := by
  unfold turn
  split
  · exact .idle
  next hcalls =>
  have hnone : a.calls conn = none := Option.not_isSome_iff_eq_none.mp hcalls
  split
  · next message userId hphase hcancelled huser =>
    exact .called conn userId message env ⟨rfl, ⟨rfl, hphase, hcancelled⟩, huser, hnone⟩
  · next hother =>
    refine .served (.turn conn env) rfl fun other request env' hhandles => ?_
    obtain ⟨hevent, hphase, hcancelled⟩ := hhandles
    cases hevent
    cases huser : (a.server.session conn).authedUser with
    | none => rfl
    | some userId => exact (hother request userId hphase hcancelled huser).elim

theorem step_stepped (event : Event κ C) (a : AsyncServer κ C D) :
    Stepped R a event (a.step R event) := by
  cases event with
  | server event =>
    cases event with
    | turn conn env => exact turn_stepped R conn env a
    | _ => exact .served _ rfl fun _ _ _ h => by cases h.1
  | resume conn =>
    unfold step resume
    dsimp only
    split
    · exact .idle
    · next call hcall => exact .resumed conn call rfl hcall
  | restart => exact .restarted rfl

variable {R} {a : AsyncServer κ C D} {event : Event κ C}

theorem step_of_asks {conn : κ} {userId : UserId} {message : ClientMessage C} {env : SessionEnv}
    (h : a.Asks conn userId message env event) :
    a.step R event = a.call R conn userId message env := by
  obtain ⟨rfl, ⟨-, hphase, hcancelled⟩, huser, hnone⟩ := h
  unfold step turn
  simp only [hnone, hphase, hcancelled, huser]
  rfl

/-- With nothing in between, the call and the rest of the handler are one step of the process. -/
theorem resume_of_asks {conn : κ} {userId : UserId} {message : ClientMessage C} {env : SessionEnv}
    (h : a.Asks conn userId message env event) :
    (a.step R event).resume conn = { a with server := a.server.step R (.turn conn env) } := by
  rw [step_of_asks h]
  obtain ⟨-, hhandles, huser, hnone⟩ := h
  rw [Server.step_of_handles R hhandles]
  unfold resume call
  simp only [Function.update_self, Function.update_idem]
  congr 1
  · simp only [Server.serve, Server.handleMessage, huser, Server.handleRequest]
    rfl
  · rw [← hnone, Function.update_eq_self]

/-! ## Handlers without interruption -/

def atRest (s : Server κ C D) : AsyncServer κ C D := ⟨s, fun _ => none⟩

def uninterrupted : Server.Event κ C → List (Event κ C)
  | .turn conn env => [.server (.turn conn env), .resume conn]
  | event => [.server event]

theorem uninterrupted_step (s : Server κ C D) (event : Server.Event κ C) :
    (uninterrupted event).foldl (fun a event => step R event a) (atRest s) =
      atRest (s.step R event) := by
  cases event with
  | turn conn env =>
    change ((atRest s).step R (.server (.turn conn env))).resume conn = _
    unfold step turn
    dsimp only
    rw [if_neg (by exact Bool.false_ne_true)]
    split
    · next message userId hphase hcancelled huser =>
      have hasks : (atRest s).Asks conn userId message env (.server (.turn conn env)) :=
        ⟨rfl, ⟨rfl, hphase, hcancelled⟩, huser, rfl⟩
      exact step_of_asks (R := R) hasks ▸ resume_of_asks hasks
    · rfl
  | _ => rfl

/-- Without interruptions the process does what the server does. -/
theorem uninterrupted_run (events : List (Server.Event κ C)) (s : Server κ C D) :
    (events.flatMap uninterrupted).foldl (fun a event => step R event a) (atRest s) =
      atRest (events.foldl (fun s event => Server.step R event s) s) := by
  induction events generalizing s with
  | nil => rfl
  | cons event rest ih =>
    rw [List.flatMap_cons, List.foldl_append, uninterrupted_step, ih]
    rfl

/-! ## Users -/

theorem registry_step (h : a.server.Registry) (event : Event κ C) :
    (a.step R event).server.Registry := by
  have hstepped := step_stepped R event a
  generalize a.step R event = b at hstepped
  cases hstepped with
  | idle | called => exact h
  | served serverEvent => exact h.step R serverEvent
  | resumed conn call =>
    have hpushed := Server.pushes_sends call.userId call.env call.answer a.server call.message
    refine h.congr (fun userId entry hentry => ?_) fun other => ?_
    · exact hpushed.online ▸ hentry
    · dsimp only
      rw [session_respond, hpushed.session]
  | restarted => exact .boot _

/-- A connection keeps its user until the process ends. -/
theorem authed_step {conn : κ} {userId : UserId} (hevent : event ≠ .restart)
    (h : (a.server.session conn).authedUser = some userId) :
    ((a.step R event).server.session conn).authedUser = some userId := by
  have hstepped := step_stepped R event a
  generalize a.step R event = b at hstepped
  cases hstepped with
  | idle | called => exact h
  | served serverEvent => exact (Server.step_moved (R := R) serverEvent a.server conn).authed_kept h
  | resumed caller call =>
    have hpushed := Server.pushes_sends call.userId call.env call.answer a.server call.message
    dsimp only
    rw [session_respond, hpushed.session]
    exact h
  | restarted hrestart => exact absurd hrestart hevent

/-! ## Handlers -/

/-- A call in flight was there before, or is the one of this event. -/
theorem calls_step {conn : κ} {call : Call C} (h : (a.step R event).calls conn = some call) :
    event ≠ .restart ∧ (a.calls conn = some call ∨
      ∃ userId message env, a.Asks conn userId message env event ∧
        (a.call R conn userId message env).calls conn = some call ∧ call.userId = userId) := by
  have hstepped := step_stepped R event a
  refine ⟨?_, ?_⟩
  · rintro rfl
    cases h
  generalize a.step R event = b at h hstepped
  cases hstepped with
  | called caller userId message env hasks =>
    by_cases hconn : conn = caller
    · subst hconn
      refine .inr ⟨userId, message, env, hasks, h, ?_⟩
      unfold AsyncServer.call at h
      dsimp only at h
      rw [Function.update_self] at h
      cases h
      rfl
    · unfold AsyncServer.call at h
      dsimp only at h
      rw [Function.update_of_ne hconn] at h
      exact .inl h
  | resumed caller done =>
    dsimp only at h
    rw [Function.update_apply] at h
    split at h
    · cases h
    · exact .inl h
  | restarted => cases h
  | _ => exact .inl h

/-- A delivery follows from the state before. -/
theorem step_follows {conn : κ} {delivery : Delivery C}
    (h : ((a.step R event).server.sockets conn).phase = .greeting delivery) :
    event ≠ .restart ∧
      a.server.Follows R.wire (a.step R event).server conn delivery := by
  have hstepped := step_stepped R event a
  refine ⟨?_, ?_⟩
  · rintro rfl
    cases h
  generalize a.step R event = b at h hstepped
  cases hstepped with
  | idle | called => exact .same h
  | served serverEvent => exact Server.step_follows R h
  | resumed caller call =>
    have hpushed := Server.pushes_sends call.userId call.env call.answer a.server call.message
    unfold respond at h
    refine .setSocket h hpushed.phase fun hnew => ?_
    dsimp only at hnew
    split at hnew <;> cases hnew
  | restarted => cases h

/-- What an event does to the database. -/
theorem step_stored (event : Event κ C) (a : AsyncServer κ C D) :
    Server.Stored R a.server (fun conn userId message env => a.Asks conn userId message env event)
      (fun now => event = .server (.collect now)) (a.step R event).server.db := by
  have hstepped := step_stepped R event a
  generalize a.step R event = b at hstepped
  cases hstepped with
  | idle => exact .kept
  | called conn userId message env hasks =>
    unfold call Handling.run
    dsimp only
    cases hhandling : Relay.handleMessage R.suite (pageLen R.wire) userId env.toRelayEnv a.server.db
        message with
    | reply => exact .kept
    | transact t respond =>
      cases hfails : env.fails with
      | true => exact .kept
      | false => exact .requested conn userId message env hasks t respond hhandling hfails
  | served serverEvent hevent hunasked =>
    refine (Server.step_stored serverEvent a.server).mono ?_ ?_
    · rintro conn userId message env ⟨hhandles, huser⟩
      cases (hunasked conn message env hhandles).symm.trans huser
    · rintro now rfl
      exact hevent
  | resumed conn call =>
    have hdb : (respond conn call.reply (a.server.pushes call.userId call.env call.answer
        call.message)).db = a.server.db :=
      (Server.pushes_sends call.userId call.env call.answer a.server call.message).db
    dsimp only
    rw [hdb]
    exact .kept
  | restarted => exact .kept

variable (R) in
/-- However the handlers interleave, what a connection does it does for its user. -/
theorem acts_for_user (db : Db C D) (events : Nat → Event κ C) (n : Nat) :
    let a : AsyncServer κ C D := (boot db).after R events n
    a.server.Registry ∧
      (∀ conn call, a.calls conn = some call →
        (a.server.session conn).authedUser = some call.userId) ∧
      ∀ conn delivery, (a.server.sockets conn).phase = .greeting delivery →
        (a.server.session conn).authedUser = some delivery.userId := by
  induction n with
  | zero => exact ⟨.boot db, fun _ _ h => (by cases h), fun _ _ h => (by cases h)⟩
  | succ n ih =>
    obtain ⟨hregistry, hcalls, hdeliveries⟩ := ih
    refine ⟨registry_step hregistry _, fun conn call h => ?_, fun conn delivery h => ?_⟩
    · obtain ⟨hevent, hold | ⟨userId, message, env, hasks, -, huser⟩⟩ := calls_step h
      · exact authed_step hevent (hcalls conn call hold)
      · exact authed_step hevent (huser ▸ hasks.2.2.1)
    · obtain ⟨hevent, hfollows⟩ := step_follows h
      rcases hfollows.user with ⟨old, hold⟩ | huser
      · exact authed_step hevent (hdeliveries conn ⟨_, old⟩ hold)
      · exact huser

end AsyncServer

/-! ## A delivery beside a request -/

def bobConn : Fin 3 := 0

def aliceConn : Fin 3 := 1

/-- Where Alice or Bob logs in again. -/
def nextConn : Fin 3 := 2

/-- A message on a connection is read and handled, a request up to its database call. -/
def frameOn (conn : Fin 3) (message : SessionMessage Ciphertext) :
    List (AsyncServer.Event (Fin 3) Ciphertext) :=
  [.server (.poll conn (some (.text (some message)))), .server (.turn conn sampleSessionEnv)]

def requestOn (conn : Fin 3) (message : ClientMessage Ciphertext) :
    List (AsyncServer.Event (Fin 3) Ciphertext) :=
  frameOn conn (.request message) ++ [.resume conn]

def writeOn (conn : Fin 3) : AsyncServer.Event (Fin 3) Ciphertext := .server (.write conn)

/-- An await of the deliveries, with a database that answers. -/
def greetOn (conn : Fin 3) : AsyncServer.Event (Fin 3) Ciphertext :=
  .server (.greet conn ⟨true, 100⟩)

/-- A registration with an identity and a signed prekey, and the deliveries to the end. -/
def registerOn (conn : Fin 3) (userId : UserId) (identity drawn : Key32) :
    List (AsyncServer.Event (Fin 3) Ciphertext) :=
  let spk := SignedPreKey.generate symbolicIdentity 1 identity drawn
  frameOn conn (.register userId ⟨b64Encode (symbolicIdentity.verifyingKey identity).toList,
    b64Encode spk.publicKey.toList, 1, b64Encode spk.signature.toList, none⟩ []) ++
  [writeOn conn] ++ List.replicate 5 (greetOn conn)

/-- A challenge is asked for and signed. -/
def loginOn (conn : Fin 3) (userId : UserId) (identity : Key32) :
    List (AsyncServer.Event (Fin 3) Ciphertext) :=
  let signature := symbolicIdentity.sign identity (signedData (key32 5).toList 100 "relay")
  frameOn conn (.authChallenge userId) ++ [writeOn conn] ++
  frameOn conn (.authResponse (b64Encode signature.toList)) ++ [writeOn conn]

/-- A list of events, after which nothing is left to write. -/
def eventAt (events : List (AsyncServer.Event (Fin 3) Ciphertext)) (n : Nat) :
    AsyncServer.Event (Fin 3) Ciphertext :=
  events.getD n (writeOn bobConn)

/-- Alice registers, Bob logs in, and a request of Alice comes to the database. -/
def besideEvents : List (AsyncServer.Event (Fin 3) Ciphertext) :=
  registerOn aliceConn alice (key32 10) (key32 11) ++ loginOn bobConn bob (key32 9) ++
  frameOn aliceConn (.request (.fetchPreKeyBundle bob))

def errandCount : Phase C → Nat
  | .greeting delivery => delivery.errands.length
  | _ => 0

set_option maxRecDepth 8000 in
/-- The request works for Alice, and the delivery for Bob. -/
theorem acts_for_user_beside :
    let a := (AsyncServer.boot bobRegistered.2).after sampleRelay (eventAt besideEvents) 16
    (∃ call, a.calls aliceConn = some call ∧ call.userId = alice) ∧
      ∃ delivery, (a.server.sockets bobConn).phase = .greeting delivery ∧
        delivery.userId = bob ∧ delivery.errands.length = 4 := by
  intro a
  obtain ⟨-, hcalls, hdeliveries⟩ :=
    AsyncServer.acts_for_user sampleRelay bobRegistered.2 (eventAt besideEvents) 16
  obtain ⟨call, hcall⟩ : ∃ call, a.calls aliceConn = some call := by
    refine Option.isSome_iff_exists.mp ?_
    decide +kernel
  have halice : (a.server.session aliceConn).authedUser = some alice := by decide +kernel
  have hbob : (a.server.session bobConn).authedUser = some bob := by decide +kernel
  have hcount : errandCount (a.server.sockets bobConn).phase = 4 := by decide +kernel
  refine ⟨⟨call, hcall, ?_⟩, ?_⟩
  · exact Option.some.inj ((hcalls aliceConn call hcall).symm.trans halice)
  · cases hphase : (a.server.sockets bobConn).phase with
    | greeting delivery =>
      rw [hphase] at hcount
      refine ⟨delivery, rfl, ?_, hcount⟩
      exact Option.some.inj ((hdeliveries bobConn delivery hphase).symm.trans hbob)
    | _ =>
      rw [hphase] at hcount
      cases hcount

end Cmp.Relay
