import Cmp.Relay.Authentication

/-! One live connection for each user. The registry holds the connection that has logged in
last; the one before it is displaced and, once it has been told, cancelled. An insert tells the
displaced connection in a step of its own, and inserts, words to displaced connections and
clean-ups come in any order. -/

namespace Cmp.Relay

open Cmp.Crypto Cmp.Protocol Cmp.Lib

variable {K Sec C D κ : Type}

namespace Server

/-- A connection of `userId` that is neither cancelled nor cleaned up. -/
def Live (conn : κ) (userId : UserId) (s : Server κ C D) : Prop :=
  (s.session conn).authedUser = some userId ∧ (s.sockets conn).cancelled = false ∧
    (s.sockets conn).phase ≠ .gone

/-- The registry and the connections agree. -/
structure Sound (s : Server κ C D) : Prop where
  entry : ∀ userId connId conn, s.online userId = some ⟨connId, conn⟩ →
    s.Live conn userId ∧ (s.session conn).connId = some connId ∧ conn ∉ s.displaced
  covered : ∀ conn userId, s.Live conn userId →
    conn ∈ s.displaced ∨ ∃ connId, s.online userId = some ⟨connId, conn⟩
  authed : ∀ conn ∈ s.displaced, (s.session conn).authedUser ≠ none
  fresh : ∀ conn connId, (s.session conn).connId = some connId → connId < s.nextConnId
  unique : ∀ conn other connId, (s.session conn).connId = some connId →
    (s.session other).connId = some connId → conn = other
  nodup : s.displaced.Nodup

variable {result : Option (ServerMessage C) × Server κ C D}

namespace Sound

variable {s s' : Server κ C D}

theorem boot (db : Db C D) : Sound (boot db : Server κ C D) where
  entry _ _ _ h := by cases h
  covered _ _ h := by cases h.1
  authed _ h := by cases h
  fresh _ _ h := by cases h
  unique _ _ _ h := by cases h
  nodup := List.nodup_nil

/-- What `Sound` looks at. -/
theorem congr (h : Sound s) (honline : s'.online = s.online)
    (hnext : s'.nextConnId = s.nextConnId) (hdisplaced : s'.displaced = s.displaced)
    (hauthed : ∀ conn, (s'.session conn).authedUser = (s.session conn).authedUser)
    (hconnId : ∀ conn, (s'.session conn).connId = (s.session conn).connId)
    (hcancelled : ∀ conn, (s'.sockets conn).cancelled = (s.sockets conn).cancelled)
    (hgone : ∀ conn, (s'.sockets conn).phase = .gone ↔ (s.sockets conn).phase = .gone) :
    Sound s' := by
  have hlive : ∀ conn userId, s'.Live conn userId ↔ s.Live conn userId := by
    intro conn userId
    unfold Live
    rw [hauthed, hcancelled, ne_eq, hgone]
  refine ⟨?_, ?_, ?_, ?_, ?_, hdisplaced ▸ h.nodup⟩
  · intro userId connId conn hentry
    rw [honline] at hentry
    rw [hlive, hconnId, hdisplaced]
    exact h.entry userId connId conn hentry
  · intro conn userId hconn
    rw [hdisplaced, honline]
    exact h.covered conn userId ((hlive conn userId).mp hconn)
  · intro conn hconn
    rw [hauthed]
    exact h.authed conn (hdisplaced ▸ hconn)
  · intro conn connId hid
    rw [hnext]
    exact h.fresh conn connId (hconnId conn ▸ hid)
  · intro conn other connId hid hid'
    exact h.unique conn other connId (hconnId conn ▸ hid) (hconnId other ▸ hid')

theorem idle (h : Sound s) (hidle : Idle s s') : Sound s' :=
  h.congr hidle.online hidle.nextConnId hidle.displaced hidle.authedUser hidle.connId
    hidle.cancelled hidle.gone

/-- No user has two entries, and no connection two. -/
theorem entry_unique (h : Sound s) {userId userId' : UserId} {connId connId' : Nat} {conn : κ}
    (hentry : s.online userId = some ⟨connId, conn⟩)
    (hentry' : s.online userId' = some ⟨connId', conn⟩) : userId = userId' :=
  Option.some.inj ((h.entry _ _ _ hentry).1.1.symm.trans (h.entry _ _ _ hentry').1.1)

/-- A connection takes its own entry out of the registry, and no other. -/
theorem online_unregister (h : Sound s) (conn : κ) (user : UserId) (connId : Nat) (other : κ) :
    (s.unregister conn).online user = some ⟨connId, other⟩ ↔
      s.online user = some ⟨connId, other⟩ ∧ other ≠ conn := by
  unfold unregister
  split
  · next ownUser ownId hauthed hownId =>
    unfold removeIfMatch
    split
    · next hmatch =>
      -- the entry under the own number is the own entry
      obtain ⟨⟨connId', conn'⟩, hentry⟩ : ∃ entry, s.online ownUser = some entry :=
        Option.isSome_iff_exists.mp (Option.isSome_of_any hmatch)
      rw [hentry] at hmatch
      obtain rfl : connId' = ownId := of_decide_eq_true hmatch
      obtain rfl : conn' = conn :=
        h.unique conn' conn connId' (h.entry _ _ _ hentry).2.1 hownId
      dsimp only
      rw [Function.update_apply]
      split
      · next huser =>
        subst huser
        refine iff_of_false nofun ?_
        rintro ⟨hother, hne⟩
        cases hentry.symm.trans hother
        exact hne rfl
      · next huser =>
        refine (and_iff_left_of_imp ?_).symm
        rintro hother rfl
        exact huser (h.entry_unique hother hentry)
    · next hmatch =>
      refine (and_iff_left_of_imp ?_).symm
      rintro hother rfl
      obtain ⟨hlive, hid, -⟩ := h.entry _ _ _ hother
      cases hauthed.symm.trans hlive.1
      cases hownId.symm.trans hid
      exact hmatch (by rw [hother]; exact decide_eq_true rfl)
  · next hnone =>
    refine (and_iff_left_of_imp ?_).symm
    rintro hother rfl
    obtain ⟨hlive, hid, -⟩ := h.entry _ _ _ hother
    exact hnone _ _ hlive.1 hid

/-- A live connection is not one without a user. -/
theorem ne_of_live {conn other : κ} {user : UserId} (hnone : (s.session conn).authedUser = none)
    (hother : s.Live other user) : other ≠ conn := by
  rintro rfl
  cases hnone.symm.trans hother.1

/-- A connection ceases to be live and loses its entry; all sessions stay. -/
theorem retire (h : Sound s) {conn : κ} (hsession : ∀ other, s'.session other = s.session other)
    (hnext : s'.nextConnId = s.nextConnId)
    (hlive : ∀ other user, s'.Live other user ↔ other ≠ conn ∧ s.Live other user)
    (honline : ∀ user connId other, s'.online user = some ⟨connId, other⟩ ↔
      s.online user = some ⟨connId, other⟩ ∧ other ≠ conn)
    (hdisplaced : s'.displaced.Sublist s.displaced)
    (hkept : ∀ other ∈ s.displaced, other ≠ conn → other ∈ s'.displaced) : Sound s' := by
  refine ⟨?_, ?_, ?_, ?_, ?_, h.nodup.sublist hdisplaced⟩
  · intro user connId other hentry
    obtain ⟨hentry, hne⟩ := (honline user connId other).mp hentry
    obtain ⟨hother, hid, hnot⟩ := h.entry user connId other hentry
    rw [hlive, hsession]
    exact ⟨⟨hne, hother⟩, hid, fun hmem => hnot (hdisplaced.subset hmem)⟩
  · intro other user hother
    obtain ⟨hne, hother⟩ := (hlive other user).mp hother
    rcases h.covered other user hother with hmem | ⟨connId, hentry⟩
    · exact .inl (hkept other hmem hne)
    · exact .inr ⟨connId, (honline user connId other).mpr ⟨hentry, hne⟩⟩
  · intro other hmem
    rw [hsession]
    exact h.authed other (hdisplaced.subset hmem)
  · intro other connId hid
    rw [hnext]
    exact h.fresh other connId (hsession other ▸ hid)
  · intro first second connId hfirst hsecond
    exact h.unique first second connId (hsession first ▸ hfirst) (hsession second ▸ hsecond)

variable [DecidableEq κ]

theorem mem_displaced_login (conn other : κ) (userId : UserId) (status : Bool) :
    other ∈ (s.login conn userId status).displaced ↔
      other ∈ s.displaced ∨ ∃ connId, s.online userId = some ⟨connId, other⟩ := by
  refine List.mem_append.trans (or_congr_right ?_)
  rw [Option.mem_toList, Option.map_eq_some_iff]
  constructor
  · rintro ⟨entry, hentry, rfl⟩
    exact ⟨entry.connId, hentry⟩
  · rintro ⟨connId, hentry⟩
    exact ⟨_, hentry, rfl⟩

section Login

variable {conn other : κ} {userId user : UserId} {status : Bool}

theorem session_login_self :
    ((s.login conn userId status).session conn).authedUser = some userId ∧
      ((s.login conn userId status).session conn).connId = some s.nextConnId := by
  rw [session_login, if_pos rfl]
  exact ⟨rfl, rfl⟩

theorem session_login_other (hother : other ≠ conn) :
    (s.login conn userId status).session other = s.session other := by
  rw [session_login, if_neg hother]

theorem online_login (user : UserId) : (s.login conn userId status).online user =
    if user = userId then some ⟨s.nextConnId, conn⟩ else s.online user :=
  Function.update_apply _ _ _ _

theorem phase_login : ((s.login conn userId status).sockets other).phase =
    (s.sockets other).phase :=
  phase_setSession _ conn _ other

theorem cancelled_login : ((s.login conn userId status).sockets other).cancelled =
    (s.sockets other).cancelled :=
  cancelled_setSession _ conn _ other

theorem live_login_other (hother : other ≠ conn) :
    (s.login conn userId status).Live other user ↔ s.Live other user := by
  unfold Live
  rw [session_login_other hother, phase_login, cancelled_login]

variable (h : Sound s) (hnone : (s.session conn).authedUser = none)

include h

include hnone in
/-- The new entry is of the connection that logs in, which had none. -/
theorem login_entry (hcancelled : (s.sockets conn).cancelled = false)
    (hgone : (s.sockets conn).phase ≠ .gone) {connId : Nat}
    (hentry : (s.login conn userId status).online user = some ⟨connId, other⟩) :
    (s.login conn userId status).Live other user ∧
      ((s.login conn userId status).session other).connId = some connId ∧
      other ∉ (s.login conn userId status).displaced := by
  rw [mem_displaced_login]
  rw [online_login] at hentry
  split at hentry
  · next huser =>
    subst huser
    cases hentry
    refine ⟨⟨session_login_self.1, cancelled_login.trans hcancelled, by rwa [phase_login]⟩,
      session_login_self.2, ?_⟩
    rintro (hmem | ⟨connId, hold⟩)
    · exact h.authed conn hmem hnone
    · exact ne_of_live hnone (h.entry _ _ _ hold).1 rfl
  · next huser =>
    obtain ⟨hother, hid, hnot⟩ := h.entry user connId other hentry
    have hconn := ne_of_live hnone hother
    refine ⟨(live_login_other hconn).mpr hother, by rw [session_login_other hconn, hid], ?_⟩
    rintro (hmem | ⟨connId', hold⟩)
    · exact hnot hmem
    · exact huser (h.entry_unique hentry hold)

theorem login_covered (hother : (s.login conn userId status).Live other user) :
    other ∈ (s.login conn userId status).displaced ∨
      ∃ connId, (s.login conn userId status).online user = some ⟨connId, other⟩ := by
  rw [mem_displaced_login, online_login]
  by_cases hconn : other = conn
  · subst hconn
    have huser : user = userId :=
      Option.some.inj (hother.1.symm.trans session_login_self.1)
    exact .inr ⟨s.nextConnId, if_pos huser⟩
  · rcases h.covered other user ((live_login_other hconn).mp hother) with hmem | ⟨connId, hentry⟩
    · exact .inl (.inl hmem)
    · by_cases huser : user = userId
      · exact .inl (.inr ⟨connId, huser ▸ hentry⟩)
      · exact .inr ⟨connId, by rw [if_neg huser, hentry]⟩

theorem login_authed (hmem : other ∈ (s.login conn userId status).displaced) :
    ((s.login conn userId status).session other).authedUser ≠ none := by
  by_cases hconn : other = conn
  · rw [hconn, session_login_self.1]
    exact Option.some_ne_none _
  · rw [session_login_other hconn]
    rcases (mem_displaced_login conn other userId status).mp hmem with hmem | ⟨connId, hold⟩
    · exact h.authed other hmem
    · rw [(h.entry _ _ _ hold).1.1]
      exact Option.some_ne_none _

/-- The entry that is replaced was not displaced before. -/
theorem login_nodup : (s.login conn userId status).displaced.Nodup := by
  refine h.nodup.append ?_ fun other hmem hold => ?_
  · cases s.online userId <;> simp
  · obtain ⟨entry, hentry, rfl⟩ := Option.map_eq_some_iff.mp (Option.mem_toList.mp hold)
    exact (h.entry _ _ _ hentry).2.2 hmem

/-- The number of the connection that logs in is new. -/
theorem connId_login {connId : Nat}
    (hid : ((s.login conn userId status).session other).connId = some connId) :
    other = conn ∧ connId = s.nextConnId ∨
      other ≠ conn ∧ (s.session other).connId = some connId ∧ connId < s.nextConnId := by
  by_cases hconn : other = conn
  · rw [hconn, session_login_self.2] at hid
    exact .inl ⟨hconn, (Option.some.inj hid).symm⟩
  · rw [session_login_other hconn] at hid
    exact .inr ⟨hconn, hid, h.fresh other connId hid⟩

include hnone in
/-- A login on a live connection without a user. -/
theorem login (hcancelled : (s.sockets conn).cancelled = false)
    (hgone : (s.sockets conn).phase ≠ .gone) (userId : UserId) (status : Bool) :
    Sound (s.login conn userId status) where
  entry _ _ _ hentry := h.login_entry hnone hcancelled hgone hentry
  covered _ _ hother := h.login_covered hother
  authed _ hmem := h.login_authed hmem
  fresh other connId hid := by
    have hnext : (s.login conn userId status).nextConnId = s.nextConnId + 1 := rfl
    rcases h.connId_login hid with ⟨-, hnew⟩ | ⟨-, -, hlt⟩ <;> omega
  unique first second connId hfirst hsecond := by
    rcases h.connId_login hfirst with ⟨hconn, hnew⟩ | ⟨-, hid, hlt⟩ <;>
      rcases h.connId_login hsecond with ⟨hconn', hnew'⟩ | ⟨-, hid', hlt'⟩
    · rw [hconn, hconn']
    · omega
    · omega
    · exact h.unique first second connId hid hid'
  nodup := h.login_nodup

end Login

/-- A displaced connection is told. -/
theorem notified (h : Sound s) {conn : κ} (hconn : conn ∈ s.displaced) :
    Sound (s.notifyDisplaced conn) := by
  have hstate : s.notifyDisplaced conn =
      { s with displaced := s.displaced.erase conn }.setSocket conn
        { s.sockets conn with
          channel := ((s.sockets conn).channel.trySend
            (.reply (.error 409 "session replaced by new connection"))).2
          cancelled := true } := if_pos hconn
  have hsession := session_notifyDisplaced s conn
  rw [hstate] at hsession ⊢
  refine h.retire hsession rfl (fun other user => ?_) (fun user connId other => ?_)
    List.erase_sublist fun other hmem hne => (List.mem_erase_of_ne hne).mpr hmem
  · unfold Live
    rw [hsession, sockets_setSocket]
    by_cases hother : other = conn
    · simp [hother]
    · rw [if_neg hother, and_iff_right hother]
  · refine (and_iff_left_of_imp ?_).symm
    rintro hentry rfl
    exact (h.entry user connId other hentry).2.2 hconn

theorem cleaned (h : Sound s) {conn : κ} (hended : (s.sockets conn).phase = .ended) :
    Sound (s.cleanUp conn) := by
  obtain ⟨online', hunregister⟩ := s.unregister_eq conn
  have hstate : s.cleanUp conn = (s.unregister conn).setSocket conn
      { s.sockets conn with
        phase := .gone
        channel := { (s.sockets conn).channel with isOpen := false } } := by
    unfold cleanUp
    rw [hended]
  have hsession := session_cleanUp s conn
  have hunregistered := h.online_unregister conn
  rw [hunregister] at hunregistered hstate
  rw [hstate] at hsession ⊢
  refine h.retire hsession rfl (fun other user => ?_) hunregistered (List.Sublist.refl _)
    fun other hmem _ => hmem
  unfold Live
  rw [hsession, sockets_setSocket]
  by_cases hother : other = conn
  · simp [hother]
  · rw [if_neg hother, and_iff_right hother]

theorem handled {R : Deployment K Sec C D} (h : Sound s) {conn : κ} {env : SessionEnv}
    {message : SessionMessage C} (hcancelled : (s.sockets conn).cancelled = false)
    (hgone : (s.sockets conn).phase ≠ .gone) (hhandled : Handled R s conn env message result) :
    Sound result.2 := by
  have hpending : ∀ pending, Sound (s.setPending conn pending) := by
    intro pending
    refine h.congr rfl rfl rfl ?_ ?_ (cancelled_setSession s conn _) ?_
    · exact setSocket_keeps (·.session.authedUser) rfl
    · exact setSocket_keeps (·.session.connId) rfl
    · intro other
      unfold setPending
      rw [phase_setSession]
  cases hhandled with
  | served userId huser message result db husers hsends =>
    have hdb : Sound { s with db := db } :=
      h.congr rfl rfl rfl (fun _ => rfl) (fun _ => rfl) (fun _ => rfl) fun _ => Iff.rfl
    exact hdb.idle (.of_sends hsends)
  | refused => exact h
  | registered hnone registration bundle oneTimePrekeys db hstored =>
    have hdb : Sound { s with db := db } :=
      h.congr rfl rfl rfl (fun _ => rfl) (fun _ => rfl) (fun _ => rfl) fun _ => Iff.rfl
    exact hdb.login hnone hcancelled hgone registration.userId false
  | issued => exact hpending _
  | rejected => exact hpending none
  | verified hnone signature challenge =>
    refine (hpending none).login ?_ ?_ ?_ challenge.userId true
    · rw [session_setPending, if_pos rfl]
      exact hnone
    · exact (cancelled_setSession s conn _ conn).trans hcancelled
    · exact fun hphase => hgone ((phase_setSession s conn _ conn).symm.trans hphase)

variable [DecidableEq D] (R : Deployment K Sec C D)

theorem step (h : Sound s) (event : Event κ C) : Sound (s.step R event) := by
  have hstepped := step_stepped R event s
  generalize s.step R event = s' at hstepped
  cases hstepped with
  | handled conn message env hhandles =>
    have hlive : (s.sockets conn).phase ≠ .gone := hhandles.2.1 ▸ nofun
    have hhandled := handleMessage_handled R s conn message env
    exact (h.handled hhandles.2.2 hlive hhandled).idle (serve_idle R hhandles)
  | idle s' hidle hquiet => exact h.idle hidle
  | notified conn hevent hconn => exact h.notified hconn
  | cleaned conn hevent hended => exact h.cleaned hended

theorem after (events : Nat → Event κ C) (db : Db C D) (n : Nat) :
    Sound ((Server.boot db).after R events n) := by
  induction n with
  | zero => exact boot db
  | succ n ih => exact ih.step R (events n)

end Sound

/-! ## Displaced connections -/

/-- An insert has replaced the entry of this connection: it is cancelled, or about to be. -/
def Displaced (conn : κ) (s : Server κ C D) : Prop :=
  conn ∈ s.displaced ∨ (s.sockets conn).cancelled = true

section

variable [DecidableEq κ] {R : Deployment K Sec C D} {s : Server κ C D} {conn : κ}

/-- The registry is as before, or it has a new entry and the one before it is displaced. -/
theorem Handled.registry {env : SessionEnv} {message : SessionMessage C}
    (h : Handled R s conn env message result) :
    (result.2.online = s.online ∧ result.2.displaced = s.displaced) ∨
      ∃ userId connId, result.2.online = Function.update s.online userId (some ⟨connId, conn⟩) ∧
        result.2.displaced = s.displaced ++ ((s.online userId).map ConnEntry.conn).toList := by
  cases h with
  | served userId huser message result db husers hsends =>
    exact .inl ⟨hsends.online, hsends.displaced⟩
  | refused => exact .inl ⟨rfl, rfl⟩
  | registered hnone registration => exact .inr ⟨registration.userId, _, rfl, rfl⟩
  | issued | rejected => exact .inl ⟨rfl, rfl⟩
  | verified hnone signature challenge => exact .inr ⟨challenge.userId, _, rfl, rfl⟩

theorem Handled.displaced_subset {env : SessionEnv} {message : SessionMessage C}
    (h : Handled R s conn env message result) :
    s.displaced ⊆ result.2.displaced := by
  rcases h.registry with ⟨-, hdisplaced⟩ | ⟨userId, connId, -, hdisplaced⟩
  · rw [hdisplaced]
    exact List.Subset.refl _
  · rw [hdisplaced]
    exact List.subset_append_left _ _

theorem sockets_notifyDisplaced (hconn : conn ∈ s.displaced) (other : κ) :
    ((s.notifyDisplaced conn).sockets other).cancelled =
      if other = conn then true else (s.sockets other).cancelled := by
  unfold notifyDisplaced
  rw [if_pos hconn]
  dsimp only
  rw [sockets_setSocket]
  split <;> rfl

theorem displaced_notifyDisplaced (hconn : conn ∈ s.displaced) :
    (s.notifyDisplaced conn).displaced = s.displaced.erase conn := by
  unfold notifyDisplaced
  rw [if_pos hconn]
  rfl

theorem cancelled_cleanUp (s : Server κ C D) (conn other : κ) :
    ((s.cleanUp conn).sockets other).cancelled = (s.sockets other).cancelled := by
  obtain ⟨online, honline⟩ := s.unregister_eq conn
  unfold cleanUp
  split
  · dsimp only
    rw [honline]
    rw [sockets_setSocket]
    split
    · next h => rw [h]
    · rfl
  · rfl

theorem displaced_cleanUp (s : Server κ C D) (conn : κ) :
    (s.cleanUp conn).displaced = s.displaced := by
  obtain ⟨online, honline⟩ := s.unregister_eq conn
  unfold cleanUp
  split
  · dsimp only
    rw [honline]
    rfl
  · rfl

theorem poll_of_cancelled (h : (s.sockets conn).cancelled = true) (next : Option (Frame C)) :
    s.poll conn next = s ∨ s.poll conn next = s.setPhase conn .ended := by
  unfold poll
  split
  · exact .inr (if_pos h)
  · exact .inl rfl

variable [DecidableEq D] (R)

/-- A watch that is set stays set. -/
theorem cancelled_step (event : Event κ C) (h : (s.sockets conn).cancelled = true) :
    ((s.step R event).sockets conn).cancelled = true := by
  have hstepped := step_stepped R event s
  generalize s.step R event = s' at hstepped
  cases hstepped with
  | handled other message env hhandles =>
    have hhandled := (handleMessage_handled R s other message env).socket conn
    exact ((serve_idle R hhandles).cancelled conn).trans (hhandled.2.trans h)
  | idle s' hidle hquiet => exact (hidle.cancelled conn).trans h
  | notified other hevent hother =>
    rw [sockets_notifyDisplaced hother]
    split
    · rfl
    · exact h
  | cleaned other hevent hended => exact (cancelled_cleanUp s other conn).trans h

theorem Displaced.step (h : s.Displaced conn) (event : Event κ C) :
    (s.step R event).Displaced conn := by
  rcases h with hmem | hcancelled
  · have hstepped := step_stepped R event s
    generalize s.step R event = s' at hstepped
    cases hstepped with
    | handled other message env hhandles =>
      have hsubset := (handleMessage_handled R s other message env).displaced_subset
      exact .inl ((serve_idle R hhandles).displaced ▸ hsubset hmem)
    | idle s' hidle hquiet => exact .inl (hidle.displaced ▸ hmem)
    | notified other hevent hother =>
      by_cases hconn : conn = other
      · exact .inr (by rw [sockets_notifyDisplaced hother, if_pos hconn])
      · refine .inl ?_
        rw [displaced_notifyDisplaced hother]
        exact (List.mem_erase_of_ne hconn).mpr hmem
    | cleaned other hevent hended => exact .inl (displaced_cleanUp s other ▸ hmem)
  · exact .inr (cancelled_step R event hcancelled)

/-- An entry leaves the registry by the clean-up of its own connection, or by an insert that
displaces it. -/
theorem Sound.entry_step (h : Sound s) {userId : UserId} {connId : Nat}
    (hentry : s.online userId = some ⟨connId, conn⟩) (event : Event κ C) :
    (s.step R event).online userId = some ⟨connId, conn⟩ ∨ conn ∈ (s.step R event).displaced ∨
      event = .cleanUp conn := by
  have hstepped := step_stepped R event s
  generalize s.step R event = s' at hstepped
  cases hstepped with
  | handled other message env hhandles =>
    have hidle := serve_idle R hhandles
    rw [hidle.online, hidle.displaced]
    rcases (handleMessage_handled R s other message env).registry with
      ⟨honline, -⟩ | ⟨newUser, newId, honline, hdisplaced⟩
    · exact .inl (honline ▸ hentry)
    · by_cases huser : userId = newUser
      · subst huser
        refine .inr (.inl ?_)
        rw [hdisplaced, hentry]
        exact List.mem_append_right _ (List.mem_singleton.mpr rfl)
      · exact .inl (by rw [honline, Function.update_of_ne huser, hentry])
  | idle s' hidle hquiet => exact .inl (hidle.online ▸ hentry)
  | notified other hevent hother =>
    refine .inl ?_
    unfold notifyDisplaced
    rw [if_pos hother]
    exact hentry
  | cleaned other hevent hended =>
    by_cases hconn : conn = other
    · exact .inr (.inr (hconn ▸ hevent))
    · refine .inl ?_
      unfold cleanUp
      rw [hended]
      exact (h.online_unregister other userId connId conn).mpr ⟨hentry, hconn⟩

/-- A cancelled connection ends its loop without a look at the frame. -/
theorem turn_of_cancelled (h : (s.sockets conn).cancelled = true) (env : SessionEnv) :
    s.turn R conn env = s ∨ s.turn R conn env = s.setPhase conn .ended := by
  unfold turn
  split
  · exact .inr (if_pos h)
  · exact .inl rfl

/-- What holds in one state carries over to all that come after it. -/
theorem after_of_step {P : Server κ C D → Prop}
    (hstep : ∀ s event, P s → P (Server.step R event s)) (events : Nat → Event κ C) {n m : Nat}
    (hle : n ≤ m) (h : P (s.after R events n)) : P (s.after R events m) := by
  induction hle with
  | refl => exact h
  | step _ ih => exact hstep _ _ ih

end

section

variable [DecidableEq κ] [DecidableEq D] (R : Deployment K Sec C D)

/-- However logins, words to displaced connections and clean-ups interleave, a user has one live
connection, the one in the registry. -/
theorem single_live_connection (db : Db C D) (events : Nat → Event κ C) (n : Nat) :
    let s := (boot db : Server κ C D).after R events
    -- the registry holds the one live connection of a user that no insert is displacing
    (∀ conn userId, (s n).Live conn userId ∧ conn ∉ (s n).displaced ↔
      ∃ connId, (s n).online userId = some ⟨connId, conn⟩) ∧
    ((s n).displaced = [] → ∀ userId conn other, (s n).Live conn userId →
      (s n).Live other userId → conn = other) ∧
    -- an entry that is replaced belongs to a connection that is told and cancelled
    (∀ userId connId conn, (s n).online userId = some ⟨connId, conn⟩ →
      (s (n + 1)).online userId ≠ some ⟨connId, conn⟩ → events n ≠ .cleanUp conn →
      ∀ m > n, (s m).Displaced conn) ∧
    (∀ conn ∈ (s n).displaced, events n = .notify conn →
      ((s (n + 1)).sockets conn).cancelled = true ∧ conn ∉ (s (n + 1)).displaced) ∧
    -- a clean-up leaves the entries of the other connections
    (∀ conn, events n = .cleanUp conn → ∀ userId connId other, other ≠ conn →
      (s n).online userId = some ⟨connId, other⟩ →
      (s (n + 1)).online userId = some ⟨connId, other⟩) ∧
    -- a cancelled connection takes no frame and handles no message
    (∀ conn, ((s n).sockets conn).cancelled = true → ∀ m ≥ n,
      (∀ env, (s m).turn R conn env = s m ∨ (s m).turn R conn env = (s m).setPhase conn .ended) ∧
      (∀ next, (s m).poll conn next = s m ∨ (s m).poll conn next = (s m).setPhase conn .ended) ∧
      ∀ message env, ¬(s m).Handles conn message env (events m)) := by
  intro s
  have hsound : Sound (s n) := .after R events db n
  have hregistry : ∀ conn userId, (s n).Live conn userId ∧ conn ∉ (s n).displaced ↔
      ∃ connId, (s n).online userId = some ⟨connId, conn⟩ := by
    intro conn userId
    constructor
    · rintro ⟨hlive, hnot⟩
      exact (hsound.covered conn userId hlive).resolve_left hnot
    · rintro ⟨connId, hentry⟩
      obtain ⟨hlive, -, hnot⟩ := hsound.entry userId connId conn hentry
      exact ⟨hlive, hnot⟩
  refine ⟨hregistry, ?_, ?_, ?_, ?_, ?_⟩
  · intro hempty userId conn other hconn hother
    have hnot : ∀ c, c ∉ (s n).displaced := fun c hc => by rw [hempty] at hc; cases hc
    obtain ⟨connId, hentry⟩ := (hregistry conn userId).mp ⟨hconn, hnot conn⟩
    obtain ⟨otherId, hentry'⟩ := (hregistry other userId).mp ⟨hother, hnot other⟩
    cases hentry.symm.trans hentry'
    rfl
  · intro userId connId conn hentry hgone hevent m hm
    have hdisplaced : (s (n + 1)).Displaced conn := by
      rcases hsound.entry_step R hentry (events n) with hkept | hmem | hclean
      · exact absurd hkept hgone
      · exact .inl hmem
      · exact absurd hclean hevent
    exact after_of_step R (fun _ event h => h.step R event) events hm hdisplaced
  · intro conn hconn hevent
    have hstep : s (n + 1) = (s n).notifyDisplaced conn := congrArg (fun e => (s n).step R e) hevent
    rw [hstep, sockets_notifyDisplaced hconn, if_pos rfl, displaced_notifyDisplaced hconn]
    exact ⟨rfl, hsound.nodup.not_mem_erase⟩
  · intro conn hevent userId connId other hother hentry
    rcases hsound.entry_step R hentry (events n) with hkept | hmem | hclean
    · exact hkept
    · rw [hevent] at hmem
      have hdisplaced := displaced_cleanUp (s n) conn
      exact absurd (hdisplaced ▸ hmem) (hsound.entry _ _ _ hentry).2.2
    · cases hevent.symm.trans hclean
      exact absurd rfl hother
  · intro conn hcancelled m hm
    have hset : ((s m).sockets conn).cancelled = true :=
      after_of_step R (P := fun s => (s.sockets conn).cancelled = true)
        (fun _ event h => cancelled_step R event h) events hm hcancelled
    refine ⟨turn_of_cancelled R hset, poll_of_cancelled hset, ?_⟩
    intro message env hhandles
    cases hset.symm.trans hhandles.2.2

end

end Server

/-! ## Two logins -/

def bobLogsInOn (conn : Bool) : List (Server.Event Bool Ciphertext) :=
  [.poll conn (some (.text (some (.authChallenge bob)))), .turn conn sampleSessionEnv,
    .poll conn (some (.text (some (.authResponse (b64Encode bobSignature.toList))))),
    .turn conn sampleSessionEnv]

/-- Bob logs in twice. The first connection is told, comes to the end of its deliveries and is
cleaned up. -/
def loginEvents : List (Server.Event Bool Ciphertext) :=
  bobLogsInOn false ++ bobLogsInOn true ++ [.notify false, .write false] ++
  List.replicate 8 (.greet false ⟨true, 100⟩) ++ [.poll false none, .cleanUp false]

def twoLogins (n : Nat) : Server.Event Bool Ciphertext := loginEvents.getD n (.write false)

abbrev LoginState (n : Nat) : Server Bool Ciphertext Unit :=
  (Server.boot bobRegistered.2).after sampleRelay twoLogins n

set_option maxRecDepth 20000 in
/-- Once the first connection is told, the second is the only one that lives, and it stays in the
registry when the first is cleaned up. -/
theorem single_live_connection_bob :
    (((LoginState 9).sockets false).cancelled = true ∧ false ∉ (LoginState 9).displaced) ∧
      (∀ conn, (LoginState 9).Live conn bob → conn = true) ∧
      ((LoginState 19).sockets false).phase = .ended ∧
      (LoginState 20).online bob = some ⟨2, true⟩ := by
  have hlive : (LoginState 9).Live true bob :=
    ⟨by decide +kernel, by decide +kernel, by with_unfolding_all exact fun h => (by cases h)⟩
  obtain ⟨-, -, -, htold, -, -⟩ :=
    Server.single_live_connection sampleRelay bobRegistered.2 twoLogins 8
  obtain ⟨-, hone, -, -, -, -⟩ :=
    Server.single_live_connection sampleRelay bobRegistered.2 twoLogins 9
  obtain ⟨-, -, -, -, hcleaned, -⟩ :=
    Server.single_live_connection sampleRelay bobRegistered.2 twoLogins 19
  refine ⟨htold false (by decide +kernel) rfl, fun conn hconn => ?_, by with_unfolding_all rfl, ?_⟩
  · exact hone (by decide +kernel) bob conn true hconn hlive
  · exact hcleaned false rfl bob 2 true (by decide) (by with_unfolding_all rfl)

end Cmp.Relay
