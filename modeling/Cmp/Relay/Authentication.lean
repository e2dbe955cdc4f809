import Cmp.Relay.Steps

/-! Who a connection is authenticated as. In every run, a session that has a user has
registered that user, or has answered a challenge that was issued to it; a challenge is
taken by the first response after it; and before its login a connection changes nothing. -/

namespace Cmp.Relay

open Cmp.Crypto Cmp.Protocol Cmp.Lib

variable {K Sec C D κ : Type} {challenge : PendingChallenge} {env : SessionEnv}

theorem checkResponse_ok {R : Deployment K Sec C D} {signature : B64Text Bytes} {db : Db C D}
    (h : checkResponse R challenge signature env db = .ok ()) :
    env.nowSecs.toNat - challenge.timestamp.toNat ≤ 60 ∧ ∃ key sig,
      getIdentityKey challenge.userId db = some (key : Key32).toList ∧
      signature.decoded = some (sig : Signature).toList ∧
      R.suite.verify key (signedData challenge.nonce.toList challenge.timestamp R.serverId) sig =
        true := by
  unfold checkResponse at h
  split at h
  · cases h
  next htime =>
  split at h
  · cases h
  split at h
  · cases h
  next identityBytes hidentity =>
  split at h
  · next hkey =>
    dsimp only at h
    split at h
    · cases h
    split at h
    · cases h
    next sigBytes hsignature =>
    split at h
    · next hsig =>
      split at h
      · next hverify =>
        exact ⟨not_lt.mp htime, ⟨identityBytes, hkey⟩, ⟨sigBytes, hsig⟩, hidentity, hsignature,
          hverify⟩
      · cases h
    · cases h
  · cases h

variable {message : SessionMessage C}

namespace Server

/-! ## Logins, challenges and responses -/

/-- A response on `conn` is held against this challenge. -/
def Attempts (conn : κ) (challenge : PendingChallenge) (event : Event κ C) (s : Server κ C D) :
    Prop :=
  ∃ signature env, s.Handles conn (.authResponse signature) env event ∧
    (s.session conn).authedUser = none ∧ (s.session conn).pendingChallenge = some challenge

theorem not_attempts {s : Server κ C D} {conn : κ} {event : Event κ C}
    (h : s.Handles conn message env event)
    (hmessage : ∀ signature, message ≠ .authResponse signature) (challenge : PendingChallenge) :
    ¬s.Attempts conn challenge event := by
  rintro ⟨signature, env', h', -⟩
  exact hmessage signature (h.unique h').2.1.symm

variable [DecidableEq κ] [DecidableEq D] (R : Deployment K Sec C D)

/-- The registration of `userId` on `conn` creates the user. -/
def Registers (conn : κ) (userId : UserId) (event : Event κ C) (s : Server κ C D) : Prop :=
  ∃ bundle oneTimePrekeys env, s.Handles conn (.register userId bundle oneTimePrekeys) env event ∧
    s.db.hasUser userId = false ∧ (s.step R event).db.hasUser userId = true

/-- The relay answers a message on `conn` with this challenge. -/
def Issues (conn : κ) (challenge : PendingChallenge) (event : Event κ C) (s : Server κ C D) :
    Prop :=
  ∃ env, s.Handles conn (.authChallenge challenge.userId) env event ∧
    env.nowSecs = challenge.timestamp ∧
    (s.handleMessage R conn (.authChallenge challenge.userId) env).1 =
      some (.challenge (b64Encode challenge.nonce.toList) challenge.timestamp R.serverId)

/-- A response in time, whose signature verifies under the key that is stored for the user
of the challenge. -/
def Verifies (conn : κ) (challenge : PendingChallenge) (nowSecs : UInt64) (event : Event κ C)
    (s : Server κ C D) : Prop :=
  ∃ signature env key sig, s.Handles conn (.authResponse signature) env event ∧
    env.nowSecs = nowSecs ∧ nowSecs.toNat - challenge.timestamp.toNat ≤ 60 ∧
    getIdentityKey challenge.userId s.db = some (key : Key32).toList ∧
    signature.decoded = some (sig : Signature).toList ∧
    R.suite.verify key (signedData challenge.nonce.toList challenge.timestamp R.serverId) sig = true

/-! ## One step -/

/-- User and pending challenge of `conn` after an event. -/
inductive Moved (s : Server κ C D) (event : Event κ C) (conn : κ) :
    Option UserId → Option PendingChallenge → Prop
  | kept (hissues : ∀ challenge, ¬s.Issues R conn challenge event)
      (hattempts : ∀ challenge, ¬s.Attempts conn challenge event) :
      Moved s event conn (s.session conn).authedUser (s.session conn).pendingChallenge
  | registered (hnone : (s.session conn).authedUser = none) (userId : UserId)
      (hregisters : s.Registers R conn userId event)
      (hissues : ∀ challenge, ¬s.Issues R conn challenge event)
      (hattempts : ∀ challenge, ¬s.Attempts conn challenge event) :
      Moved s event conn (some userId) (s.session conn).pendingChallenge
  | issued (hnone : (s.session conn).authedUser = none) (challenge : PendingChallenge)
      (hissues : s.Issues R conn challenge event)
      (hattempts : ∀ challenge, ¬s.Attempts conn challenge event) :
      Moved s event conn none (some challenge)
  | rejected (challenge : PendingChallenge) (hattempts : s.Attempts conn challenge event) :
      Moved s event conn none none
  | verified (challenge : PendingChallenge) (hattempts : s.Attempts conn challenge event)
      (nowSecs : UInt64) (hverifies : s.Verifies R conn challenge nowSecs event) :
      Moved s event conn (some challenge.userId) none

variable {R} {s : Server κ C D} {conn : κ} {event : Event κ C}

theorem not_issues (h : s.Handles conn message env event)
    (hmessage : ∀ userId, message ≠ .authChallenge userId) (challenge : PendingChallenge) :
    ¬s.Issues R conn challenge event := by
  rintro ⟨env', h', -⟩
  exact hmessage _ (h.unique h').2.1.symm

variable {authed : Option UserId} {pending : Option PendingChallenge}

/-- An event that is no message on `conn` leaves its session alone. -/
theorem Moved.of_other (hquiet : ∀ message env, ¬s.Handles conn message env event)
    (hauthed : authed = (s.session conn).authedUser)
    (hpending : pending = (s.session conn).pendingChallenge) :
    Moved R s event conn authed pending := by
  subst hauthed
  subst hpending
  refine .kept ?_ ?_
  · rintro challenge ⟨env, h, -⟩
    exact hquiet _ env h
  · rintro challenge ⟨signature, env, h, -⟩
    exact hquiet _ env h

/-- A session with a user keeps it. -/
theorem Moved.of_authed {userId : UserId} (huser : (s.session conn).authedUser = some userId)
    {session : Session} (hsession : session = s.session conn) :
    Moved R s event conn session.authedUser session.pendingChallenge := by
  subst hsession
  have hauthed : (s.session conn).authedUser.isSome = true := huser ▸ rfl
  refine .kept ?_ ?_
  · rintro challenge ⟨env', h', -, hreply⟩
    simp only [handleMessage, handleAuthChallenge, if_pos hauthed] at hreply
    cases hreply
  · rintro challenge ⟨signature, env', h', hnone, -⟩
    rw [huser] at hnone
    cases hnone

theorem moved_of_handles (h : s.Handles conn message env event) :
    Moved R s event conn ((s.handleMessage R conn message env).2.session conn).authedUser
      ((s.handleMessage R conn message env).2.session conn).pendingChallenge := by
  have hhandled := handleMessage_handled R s conn message env
  have hstep := step_of_handles R h
  generalize hresult : s.handleMessage R conn message env = result at hhandled hstep ⊢
  cases hhandled with
  | served userId huser message result db husers hsends =>
    exact .of_authed huser (hsends.session conn)
  | refused hnone message reply hchallenge hresponse =>
    refine .kept ?_ ?_
    · rintro challenge ⟨env', h', -, hreply⟩
      obtain ⟨-, hmessage, rfl⟩ := h.unique h'
      rw [hmessage, hresult] at hreply
      exact hchallenge _ _ _ _ hmessage.symm (Option.some.inj hreply)
    · rintro challenge ⟨signature, env', h', -, hpending⟩
      rw [hresponse signature (h.unique h').2.1.symm] at hpending
      cases hpending
  | registered hnone registration bundle oneTimePrekeys db hstored =>
    cases hstored with
    | stored users inventory husers =>
      rw [session_login, if_pos rfl]
      refine .registered hnone _ ⟨bundle, oneTimePrekeys, env, h, ?_, ?_⟩ (not_issues h nofun)
        (not_attempts h nofun)
      · refine Option.not_isSome_iff_eq_none.mpr ?_ |> eq_false_of_ne_true
        exact Table.find?_eq_none.mpr (Table.ne_of_insert husers)
      · have hidle := serve_idle (R := R) h
        rw [hresult] at hidle
        unfold Db.hasUser
        rw [hstep, hidle.users]
        exact Table.find?_isSome.mpr ⟨_, (Table.mem_insert husers).mpr (.inr rfl), rfl⟩
  | issued hnone userId huser =>
    rw [session_setPending, if_pos rfl]
    dsimp only
    rw [hnone]
    exact .issued hnone _ ⟨env, h, rfl, congrArg Prod.fst hresult⟩ (not_attempts h nofun)
  | rejected hnone signature challenge hpending reply hchecked =>
    rw [session_setPending, if_pos rfl]
    dsimp only
    rw [hnone]
    exact .rejected challenge ⟨signature, env, h, hnone, hpending⟩
  | verified hnone signature challenge hpending hchecked =>
    rw [session_login, if_pos rfl, session_setPending, if_pos rfl]
    obtain ⟨htime, key, sig, hidentity, hsignature, hverify⟩ := checkResponse_ok hchecked
    exact .verified challenge ⟨signature, env, h, hnone, hpending⟩ env.nowSecs
      ⟨signature, env, key, sig, h, rfl, htime, hidentity, hsignature, hverify⟩

theorem step_moved (event : Event κ C) (s : Server κ C D) (conn : κ) :
    Moved R s event conn ((s.step R event).session conn).authedUser
      ((s.step R event).session conn).pendingChallenge := by
  have hstepped := step_stepped R event s
  generalize s.step R event = s' at hstepped ⊢
  cases hstepped with
  | idle s' hidle hquiet =>
    exact .of_other (hquiet conn) (hidle.authedUser conn) (hidle.pendingChallenge conn)
  | notified other hevent hconn =>
    rw [session_notifyDisplaced]
    exact .of_other (fun _ _ h => by cases hevent.symm.trans h.1) rfl rfl
  | cleaned other hevent hended =>
    rw [session_cleanUp]
    exact .of_other (fun _ _ h => by cases hevent.symm.trans h.1) rfl rfl
  | handled other message env hhandles =>
    have hidle := serve_idle (R := R) hhandles
    rw [hidle.authedUser, hidle.pendingChallenge]
    by_cases heq : conn = other
    · subst heq
      exact moved_of_handles hhandles
    · rw [(handleMessage_handled R s other message env).session_other heq]
      exact .of_other (fun _ _ h => heq (hhandles.unique h).1) rfl rfl

theorem Moved.pending_of_some (h : Moved R s event conn authed pending)
    (hpending : pending = some challenge) :
    s.Issues R conn challenge event ∨
      ((s.session conn).pendingChallenge = some challenge ∧
        (∀ other, ¬s.Issues R conn other event) ∧ ∀ other, ¬s.Attempts conn other event) := by
  cases h with
  | kept hissues hattempts | registered hnone userId hregisters hissues hattempts =>
    exact .inr ⟨hpending, hissues, hattempts⟩
  | issued hnone challenge' hissues =>
    cases hpending
    exact .inl hissues
  | rejected | verified => cases hpending

theorem Moved.authed_of_some {userId : UserId} (h : Moved R s event conn authed pending)
    (hauthed : authed = some userId) :
    (s.session conn).authedUser = some userId ∨ s.Registers R conn userId event ∨
      ∃ challenge nowSecs, challenge.userId = userId ∧ s.Attempts conn challenge event ∧
        s.Verifies R conn challenge nowSecs event := by
  cases h with
  | kept => exact .inl hauthed
  | registered hnone userId' hregisters =>
    cases hauthed
    exact .inr (.inl hregisters)
  | issued | rejected => cases hauthed
  | verified challenge hattempts nowSecs hverifies =>
    cases hauthed
    exact .inr (.inr ⟨challenge, nowSecs, rfl, hattempts, hverifies⟩)

/-- A login is for good. -/
theorem Moved.authed_kept {userId : UserId} (h : Moved R s event conn authed pending)
    (huser : (s.session conn).authedUser = some userId) : authed = some userId := by
  cases h with
  | kept => exact huser
  | registered hnone | issued hnone => cases hnone.symm.trans huser
  | rejected challenge hattempts | verified challenge hattempts =>
    obtain ⟨_, _, _, hnone, -⟩ := hattempts
    cases hnone.symm.trans huser

end Server

/-! ## Whole runs -/

namespace Server

/-- The clock that an event reads. -/
def Event.clock? : Event κ C → Option UInt64
  | .turn _ env => some env.nowSecs
  | _ => none

def NonDecreasing (events : Nat → Event κ C) : Prop :=
  ∀ i j earlier later, i ≤ j → (events i).clock? = some earlier → (events j).clock? = some later →
    earlier ≤ later

theorem clock_of_handles {s : Server κ C D} {conn : κ} {event : Event κ C}
    (h : s.Handles conn message env event) :
    event.clock? = some env.nowSecs := by
  rw [h.1]
  rfl

variable [DecidableEq κ] [DecidableEq D] (R : Deployment K Sec C D) (db : Db C D)
  (events : Nat → Event κ C)

/-- Before event `n`, `conn` has registered `userId`, or has answered within a minute a
challenge that was issued to it for `userId`. -/
def LoggedIn (conn : κ) (userId : UserId) (n : Nat) : Prop :=
  ∃ m < n, ((boot db).after R events m).Registers R conn userId (events m) ∨
    ∃ challenge nowSecs, challenge.userId = userId ∧
      ((boot db).after R events m).Attempts conn challenge (events m) ∧
      ((boot db).after R events m).Verifies R conn challenge nowSecs (events m) ∧
      (∃ k < m, ((boot db).after R events k).Issues R conn challenge (events k)) ∧
      challenge.timestamp ≤ nowSecs ∧ nowSecs.toNat ≤ challenge.timestamp.toNat + 60

/-- The response in event `j` is held against the challenge of event `k`, the last one that
was issued to `conn` before. -/
def Uses (conn : κ) (k j : Nat) : Prop :=
  k < j ∧ (∃ challenge, ((boot db).after R events k).Issues R conn challenge (events k) ∧
    ((boot db).after R events j).Attempts conn challenge (events j)) ∧
    ∀ i, k < i → i < j →
      ∀ challenge, ¬((boot db).after R events i).Issues R conn challenge (events i)

/-- What is pending was issued, and there has been no response to it. -/
def PendingSince (conn : κ) (challenge : PendingChallenge) (n : Nat) : Prop :=
  ∃ k < n, ((boot db).after R events k).Issues R conn challenge (events k) ∧
    ∀ i, k < i → i < n →
      (∀ other, ¬((boot db).after R events i).Issues R conn other (events i)) ∧
      ∀ other, ¬((boot db).after R events i).Attempts conn other (events i)

variable {R db events}

theorem PendingSince.succ {conn : κ} {n : Nat} (h : PendingSince R db events conn challenge n)
    (hissues : ∀ other, ¬((boot db).after R events n).Issues R conn other (events n))
    (hattempts : ∀ other, ¬((boot db).after R events n).Attempts conn other (events n)) :
    PendingSince R db events conn challenge (n + 1) := by
  obtain ⟨k, hk, hissued, hsince⟩ := h
  refine ⟨k, Nat.lt_succ_of_lt hk, hissued, fun i hki hin => ?_⟩
  rcases Nat.lt_succ_iff_lt_or_eq.mp hin with hin | rfl
  · exact hsince i hki hin
  · exact ⟨hissues, hattempts⟩

theorem pendingSince (conn : κ) : ∀ (n : Nat) (challenge : PendingChallenge),
    (((boot db).after R events n).session conn).pendingChallenge = some challenge →
      PendingSince R db events conn challenge n := by
  intro n
  induction n with
  | zero => intro challenge h; cases h
  | succ n ih =>
    intro challenge hpending
    have hmoved := step_moved (R := R) (events n) ((boot db).after R events n) conn
    rcases hmoved.pending_of_some hpending with hissues | ⟨hold, hissues, hattempts⟩
    · refine ⟨n, Nat.lt_succ_self n, hissues, fun i hni hin => ?_⟩
      exact absurd (Nat.lt_of_lt_of_le hni (Nat.le_of_lt_succ hin)) (Nat.lt_irrefl n)
    · exact (ih challenge hold).succ hissues hattempts

/-- A response is held against the challenge that was issued last. -/
theorem exists_uses {conn : κ} {j : Nat}
    (h : ((boot db).after R events j).Attempts conn challenge (events j)) :
    ∃ k, Uses R db events conn k j := by
  obtain ⟨signature, env, hhandles, hnone, hpending⟩ := id h
  obtain ⟨k, hk, hissues, hsince⟩ := pendingSince conn j challenge hpending
  exact ⟨k, hk, ⟨challenge, hissues, h⟩, fun i hki hij => (hsince i hki hij).1⟩

/-- The first response after a challenge is the only one that is held against it. -/
theorem Uses.not_lt {conn : κ} {k j j' : Nat} (h : Uses R db events conn k j)
    (h' : Uses R db events conn k j') : ¬j < j' := by
  intro hlt
  obtain ⟨hkj, ⟨challenge, hissued, hattempts⟩, -⟩ := h
  obtain ⟨hkj', ⟨challenge', -, signature, env, hhandles, hnone, hpending⟩, hlast⟩ := h'
  obtain ⟨i, hi, hissues, hsince⟩ := pendingSince conn j' challenge' hpending
  rcases Nat.lt_trichotomy i k with hik | rfl | hki
  · exact (hsince k hik hkj').1 challenge hissued
  · exact (hsince j hkj hlt).2 challenge hattempts
  · exact hlast i hki hi challenge' hissues

theorem loggedIn (hclock : NonDecreasing events) (conn : κ) : ∀ (n : Nat) (userId : UserId),
    (((boot db).after R events n).session conn).authedUser = some userId →
      LoggedIn R db events conn userId n := by
  intro n
  induction n with
  | zero => intro userId h; cases h
  | succ n ih =>
    intro userId hauthed
    have hmoved := step_moved (R := R) (events n) ((boot db).after R events n) conn
    rcases hmoved.authed_of_some hauthed with
      hold | hregisters | ⟨challenge, nowSecs, huser, hattempts, hverifies⟩
    · obtain ⟨m, hm, h⟩ := ih userId hold
      exact ⟨m, Nat.lt_succ_of_lt hm, h⟩
    · exact ⟨n, Nat.lt_succ_self n, .inl hregisters⟩
    · obtain ⟨-, -, -, -, hpending⟩ := id hattempts
      obtain ⟨k, hk, hissues, -⟩ := pendingSince conn n challenge hpending
      obtain ⟨env, hhandles, htimestamp, -⟩ := id hissues
      obtain ⟨signature, env', key, sig, hhandles', hnow, htime, -⟩ := id hverifies
      have hle : challenge.timestamp ≤ nowSecs := by
        rw [← htimestamp, ← hnow]
        exact hclock k n _ _ (Nat.le_of_lt hk) (clock_of_handles hhandles)
          (clock_of_handles hhandles')
      refine ⟨n, Nat.lt_succ_self n, .inr ⟨challenge, nowSecs, huser, hattempts, hverifies,
        ⟨k, hk, hissues⟩, hle, ?_⟩⟩
      exact Nat.sub_le_iff_le_add'.mp htime

theorem authed_kept (conn : κ) {userId : UserId} {m n : Nat} (hmn : m ≤ n)
    (h : (((boot db).after R events m).session conn).authedUser = some userId) :
    (((boot db).after R events n).session conn).authedUser = some userId := by
  induction hmn with
  | refl => exact h
  | step _ ih => exact (step_moved (R := R) (events _) _ conn).authed_kept ih

/-- A message of a connection without a user that has changed the database or the registry
is a login. -/
theorem unchanged_or_login {s : Server κ C D} {conn : κ} {event : Event κ C}
    (h : s.Handles conn message env event) (hnone : (s.session conn).authedUser = none) :
    ((s.step R event).db = s.db ∧ (s.step R event).online = s.online) ∨
      (s.handleMessage R conn message env).1 = some .authSuccess ∧
        ((∃ userId bundle oneTimePrekeys, message = .register userId bundle oneTimePrekeys) ∨
          (∃ signature, message = .authResponse signature) ∧ (s.step R event).db = s.db) := by
  have hhandled := handleMessage_handled R s conn message env
  rw [step_of_handles R h]
  have hdb : (s.serve R conn message env).db = (s.handleMessage R conn message env).2.db := rfl
  have honline : (s.serve R conn message env).online =
    (s.handleMessage R conn message env).2.online := rfl
  rw [hdb, honline]
  generalize s.handleMessage R conn message env = result at hhandled ⊢
  cases hhandled with
  | served userId huser => cases hnone.symm.trans huser
  | refused => exact .inl ⟨rfl, rfl⟩
  | registered _ registration bundle oneTimePrekeys =>
    exact .inr ⟨rfl, .inl ⟨_, bundle, oneTimePrekeys, rfl⟩⟩
  | issued | rejected => exact .inl ⟨rfl, rfl⟩
  | verified _ signature => exact .inr ⟨rfl, .inr ⟨⟨signature, rfl⟩, rfl⟩⟩

variable (R db events)

/-- **Authentication.** In every run with a clock that does not go back: a session with a
user has registered that user or answered a challenge of its own within a minute; every
response is held against a challenge that was issued to the session, and no challenge has two
responses held against it; the user of a session is never replaced; and a message of a session
without one changes database and registry only as a successful `Register`, or the registry only as
a successful `AuthResponse`. -/
theorem authentication (hclock : NonDecreasing events) (conn : κ) :
    (∀ n userId, (((boot db).after R events n).session conn).authedUser = some userId →
      LoggedIn R db events conn userId n) ∧
    (∀ j challenge, ((boot db).after R events j).Attempts conn challenge (events j) →
      ∃ k, Uses R db events conn k j) ∧
    (∀ k j j', Uses R db events conn k j → Uses R db events conn k j' → j = j') ∧
    (∀ m n userId, m ≤ n → (((boot db).after R events m).session conn).authedUser = some userId →
      (((boot db).after R events n).session conn).authedUser = some userId) ∧
    ∀ n message env, ((boot db).after R events n).Handles conn message env (events n) →
      (((boot db).after R events n).session conn).authedUser = none →
      (((boot db).after R events (n + 1)).db = ((boot db).after R events n).db ∧
        ((boot db).after R events (n + 1)).online = ((boot db).after R events n).online) ∨
      (((boot db).after R events n).handleMessage R conn message env).1 = some .authSuccess ∧
        ((∃ userId bundle oneTimePrekeys, message = .register userId bundle oneTimePrekeys) ∨
          (∃ signature, message = .authResponse signature) ∧
            ((boot db).after R events (n + 1)).db = ((boot db).after R events n).db) := by
  refine ⟨loggedIn hclock conn, fun j challenge => exists_uses, fun k j j' h h' => ?_,
    fun m n userId => authed_kept conn, fun n message env h hnone => unchanged_or_login h hnone⟩
  exact Nat.le_antisymm (not_lt.mp (h'.not_lt h)) (not_lt.mp (h.not_lt h'))

end Server

/-! ## A login -/

def bobSignature : Signature :=
  symbolicIdentity.sign (key32 9) (signedData (key32 5).toList 100 "relay")

/-- Bob asks for a challenge and signs it. -/
def bobLogsIn : Nat → Server.Event Unit Ciphertext
  | 0 => .poll () (some (.text (some (.authChallenge bob))))
  | 1 => .turn () sampleSessionEnv
  | 2 => .poll () (some (.text (some (.authResponse (b64Encode bobSignature.toList)))))
  | 3 => .turn () sampleSessionEnv
  | _ => .write ()

theorem bobLogsIn_clock : Server.NonDecreasing bobLogsIn := by
  have hclock : ∀ n time, (bobLogsIn n).clock? = some time → time = 100 := by
    intro n time h
    match n, h with
    | 1, h => cases h; rfl
    | 3, h => cases h; rfl
    | 0, h => cases h
    | 2, h => cases h
    | _ + 4, h => cases h
  intro i j earlier later _ hi hj
  rw [hclock i earlier hi, hclock j later hj]
  exact UInt64.le_refl 100

set_option maxRecDepth 8000 in
theorem authentication_bob :
    (((Server.boot bobRegistered.2).after sampleRelay bobLogsIn 4).session ()).authedUser =
      some bob ∧ Server.LoggedIn sampleRelay bobRegistered.2 bobLogsIn () bob 4 := by
  have hauthed : (((Server.boot bobRegistered.2).after sampleRelay bobLogsIn 4).session
      ()).authedUser = some bob := by decide
  exact ⟨hauthed, (Server.authentication sampleRelay bobRegistered.2 bobLogsIn bobLogsIn_clock
    ()).1 4 bob hauthed⟩

end Cmp.Relay
