import Cmp.Client.KeyUse
import Cmp.Relay.SignedPrekeys
import Cmp.System.Link

/-! `register_with_server`, which `app::run` calls on each start while the client has no
signed prekey. The relay commits the registration before it answers, and the client persists
the keys only after the answer. -/

namespace Cmp.System

open Cmp.Crypto Cmp.Protocol Cmp.Lib Cmp.Lib.Action Cmp.Client Cmp.Relay

variable {K Sec C D : Type}

def needsRegistration (m : Manager K Sec C) : Bool := m.storedSpk.isNone

/-- One attempt: the drawn secrets, the error of connecting or sending if there is one,
whether the request reaches the relay and the answer the client, the clocks, and the
transactions that the two systems refuse. -/
structure Attempt (Sec : Type) where
  drawn : Sec
  opksDrawn : Nat → Sec
  transport : Option ManagerError
  arrives : Bool
  relay : RelayEnv
  relayFails : Bool
  answered : Bool
  rotatedAt : Nat
  createdAt : Nat
  fails : Bool

/-- The client's side and the relay's. -/
structure Account (K Sec C D : Type) where
  manager : Manager K Sec C
  db : Db C D

section Attempts

variable [DecidableEq D] (S : IdentitySuite K Sec C) (digest : EncryptedEnvelope C → D)
  (me : UserId)

/-- What `register_with_server` does with the answer. -/
def finishRegistration (spk : SignedPreKey Sec) (opks : List (UInt32 × OneTimePreKey Sec))
    (attempt : Attempt Sec) (s : Account K Sec C D) :
    Option (ServerMessage C) → Except ManagerError Unit × Account K Sec C D
  | some .authSuccess =>
    match (persistRegistrationKeys spk opks attempt.rotatedAt attempt.createdAt attempt.fails).run
      s.manager with
    | .ok () m => (.ok (), { s with manager := m })
    | .error e m => (.error e, { s with manager := m })
  | some (.authFailure reason) =>
    (.error (.other (.text ("registration rejected: " ++ reason))), s)
  | _ => (.error (.other (.text "unexpected server response during registration")), s)

def registerWithServer (attempt : Attempt Sec) (s : Account K Sec C D) :
    Except ManagerError Unit × Account K Sec C D :=
  let noResponse : Except ManagerError Unit := .error (attempt.transport.getD
    (.other (.text "no response from server during registration")))
  let spk := SignedPreKey.generate S 0 s.manager.identity attempt.drawn
  match generateOneTimePrekeys S 0 ((List.range PREKEY_TARGET).map attempt.opksDrawn) with
  | .error _ => (.error (.other (.text "pre-key ID range overflow")), s)
  | .ok opks =>
    if ¬attempt.arrives then (noResponse, s)
    else
      let handled := (handleRegister S me (publishedBundle S s.manager.identity spk none)
        (opks.map publicPrekey) attempt.relay).run digest attempt.relayFails s.db
      if ¬attempt.answered then (noResponse, { s with db := handled.2 })
      else finishRegistration spk opks attempt { s with db := handled.2 } handled.1

/-- The account of `me` at the relay is another's. -/
def Account.Foreign (s : Account K Sec C D) : Prop :=
  ∃ row ∈ s.db.users, row.userId = me ∧
    row.identityKey ≠ (S.verifyingKey s.manager.identity).toList

/-- The transactions that are not this client's: those of other users, and those of who
else registers the name `me`, with another identity key. -/
def Account.Others (s : Account K Sec C D) (t : Transaction C) : Prop :=
  OfOthers me t ∨ s.Foreign S me ∨ ∃ registration createdAt,
    t = .registerAtomic registration createdAt ∧
      registration.identityKey ≠ (S.verifyingKey s.manager.identity).toList

/-- Attempts that `allows` lets through, restarts and the transactions of others. A crash
inside an attempt is one without an answer, or with a refused store call, and a restart. -/
inductive Account.Run (allows : Attempt Sec → Prop) (start : Account K Sec C D) :
    Account K Sec C D → Prop
  | refl : Run allows start start
  | attempt {s : Account K Sec C D} (run : Run allows start s)
      (hneeds : needsRegistration s.manager = true) (attempt : Attempt Sec)
      (hallows : allows attempt) : Run allows start (registerWithServer S digest me attempt s).2
  | restart {s : Account K Sec C D} (run : Run allows start s) (loadedAt cutoffNow pruneNow : Nat)
      (m : Manager K Sec C)
      (hload : loadOrGenerate s.manager.identity s.manager.store loadedAt cutoffNow pruneNow
        false = .ok m) : Run allows start { s with manager := m }
  | transact {s : Account K Sec C D} (run : Run allows start s) (t : Transaction C)
      (hothers : s.Others S me t) : Run allows start { s with db := t.after digest s.db }

/-- Some later attempt registers the client. -/
def Account.CanRegister (s : Account K Sec C D) : Prop :=
  ∃ s', Account.Run S digest me (fun _ => True) s s' ∧ needsRegistration s'.manager = true ∧
    ∃ attempt, (registerWithServer S digest me attempt s').1 = .ok ()

end Attempts

/-- An attempt whose request arrives is answered, and its keys can be stored. -/
def Attempt.Completes (attempt : Attempt Sec) : Prop :=
  attempt.arrives = true → attempt.answered = true ∧ attempt.fails = false

/-- The relay knows nothing of the user. -/
structure Account.Fresh (me : UserId) (s : Account K Sec C D) : Prop where
  users : ∀ row ∈ s.db.users, row.userId ≠ me
  signed : ∀ row ∈ s.db.signedPrekeys, row.userId ≠ me
  oneTime : ∀ row ∈ s.db.prekeys, row.userId ≠ me

/-- The account of `me` at the relay is the client's own. -/
def Account.Own (S : IdentitySuite K Sec C) (me : UserId) (s : Account K Sec C D) : Prop :=
  ⟨me, (S.verifyingKey s.manager.identity).toList⟩ ∈ s.db.users

/-- The durable state holds the private half of every key that the relay stores. -/
structure Account.KeysHeld (S : IdentitySuite K Sec C) (me : UserId) (s : Account K Sec C D) :
    Prop where
  signed : ∀ row ∈ s.db.signedPrekeys, row.userId = me → ∃ core spk,
    s.manager.store.core = some core ∧ core.signedPrekey = some spk ∧ spk.keyId = row.keyId ∧
      spk.publicKey.toList = row.publicKey ∧ S.toPublic spk.secret = spk.publicKey
  oneTime : ∀ row ∈ s.db.prekeys, row.userId = me → ∃ core opk,
    s.manager.store.core = some core ∧ core.oneTimePrekeys.lookup row.keyId = some opk ∧
      opk.publicKey.toList = row.publicKey ∧ S.toPublic opk.secret = opk.publicKey

/-! ## What an attempt can do -/

/-- The keys that were generated for an attempt. -/
structure Drawn (S : IdentitySuite K Sec C) (opks : List (UInt32 × OneTimePreKey Sec)) : Prop where
  nodup : (opks.map Prod.fst).Nodup
  genuine : ∀ entry ∈ opks, S.toPublic entry.2.secret = entry.2.publicKey

/-- The one-time prekeys of an attempt. -/
def Attempt.opks (S : IdentitySuite K Sec C) (attempt : Attempt Sec) :
    List (UInt32 × OneTimePreKey Sec) :=
  generateFrom S 0 ((List.range PREKEY_TARGET).map attempt.opksDrawn)

theorem Attempt.opks_in_range (attempt : Attempt Sec) :
    (0 : UInt32).toNat + ((List.range PREKEY_TARGET).map attempt.opksDrawn).length <
      UInt32.size := by
  rw [List.length_map, List.length_range]
  decide

theorem Attempt.generate_opks (S : IdentitySuite K Sec C) (attempt : Attempt Sec) :
    generateOneTimePrekeys S 0 ((List.range PREKEY_TARGET).map attempt.opksDrawn) =
      .ok (attempt.opks S) := by
  unfold generateOneTimePrekeys
  rw [if_pos attempt.opks_in_range]
  rfl

theorem Attempt.opks_drawn (S : IdentitySuite K Sec C) (attempt : Attempt Sec) :
    Drawn S (attempt.opks S) where
  nodup := generateFrom_nodup S _ 0 attempt.opks_in_range
  genuine := fun entry hentry =>
    (congrArg (·.publicKey) (generateFrom_made S _ 0 entry hentry)).symm

theorem Attempt.opks_length (S : IdentitySuite K Sec C) (attempt : Attempt Sec) :
    (attempt.opks S).length = PREKEY_TARGET := by
  unfold Attempt.opks
  rw [generateFrom_length, List.length_map, List.length_range]

/-- The registration consists of the keys of an attempt. -/
structure AsksFor (S : IdentitySuite K Sec C) (me : UserId) (identity : Sec)
    (spk : SignedPreKey Sec)
    (opks : List (UInt32 × OneTimePreKey Sec)) (registration : Registration) : Prop where
  user : registration.userId = me
  identityKey : registration.identityKey = (S.verifyingKey identity).toList
  signedId : registration.signedPrekeyId = spk.keyId
  signedPublic : registration.signedPrekeyPublic = spk.publicKey.toList
  oneTime : ∀ pair ∈ registration.oneTimePrekeys, ∃ entry ∈ opks,
    entry.1 = pair.1 ∧ entry.2.publicKey.toList = pair.2

theorem finishRegistration_refused (spk : SignedPreKey Sec)
    (opks : List (UInt32 × OneTimePreKey Sec)) (attempt : Attempt Sec) (s : Account K Sec C D)
    {answer : Option (ServerMessage C)} (hanswer : answer ≠ some .authSuccess) :
    (∃ e, (finishRegistration spk opks attempt s answer).1 = .error e) ∧
      (finishRegistration spk opks attempt s answer).2 = s := by
  unfold finishRegistration
  split
  · exact absurd rfl hanswer
  · exact ⟨⟨_, rfl⟩, rfl⟩
  · exact ⟨⟨_, rfl⟩, rfl⟩

section Cases

variable [DecidableEq D] (S : IdentitySuite K Sec C) (digest : EncryptedEnvelope C → D)
  (me : UserId)

/-- The relay registers the keys and says so, or it changes nothing and refuses. -/
theorem handleRegister_run (identity : Sec) (spk : SignedPreKey Sec)
    (opks : List (UInt32 × OneTimePreKey Sec)) (env : RelayEnv) (fails : Bool) (db : Db C D) :
    let handled := (handleRegister S me (publishedBundle S identity spk none)
      (opks.map publicPrekey) env).run digest fails db
    (handled.1 ≠ some .authSuccess ∧ handled.2 = db) ∨
    handled.1 = some .authSuccess ∧ ∃ registration, AsksFor S me identity spk opks registration ∧
      Registered registration env.createdAt db true handled.2 := by
  dsimp only
  rcases handleRegister_cases S me (publishedBundle S identity spk none) (opks.map publicPrekey)
    env with ⟨reply, heq, hfailure⟩ | ⟨registration, huser, hkey, hid, hpublic, -, hpairs, -, heq⟩
  · rw [heq]
    refine .inl ⟨fun h => ?_, rfl⟩
    rw [Option.some.inj h] at hfailure
    cases hfailure
  rw [heq]
  cases fails with
  | true => exact .inl ⟨nofun, rfl⟩
  | false =>
    have heffect := (Transaction.registerAtomic registration env.createdAt).effect digest db
    dsimp only [Handling.run]
    rw [if_neg Bool.false_ne_true]
    generalize (Transaction.registerAtomic registration env.createdAt).answer? digest db = answer,
      (Transaction.registerAtomic registration env.createdAt).after digest db = db' at heffect ⊢
    cases heffect with
    | failed => exact .inl ⟨nofun, rfl⟩
    | registered _ _ result db' h =>
      cases result with
      | false =>
        cases h
        exact .inl ⟨nofun, rfl⟩
      | true =>
        refine .inr ⟨rfl, registration, ⟨huser, (Option.some.inj hkey).symm, hid.symm,
          (Option.some.inj hpublic).symm, fun pair hpair => ?_⟩, h⟩
        obtain ⟨pk, hpk, hfst, hsnd⟩ := mem_of_decodePrekeys hpairs pair hpair
        obtain ⟨entry, hentry, rfl⟩ := List.mem_map.mp hpk
        exact ⟨entry, hentry, hfst, Option.some.inj hsnd⟩

/-- What the relay makes of the request of an attempt. -/
def Attempt.handled (attempt : Attempt Sec) (s : Account K Sec C D) :
    Option (ServerMessage C) × Db C D :=
  (handleRegister S me (publishedBundle S s.manager.identity
    (SignedPreKey.generate S 0 s.manager.identity attempt.drawn) none)
    ((attempt.opks S).map publicPrekey) attempt.relay).run digest attempt.relayFails s.db

/-- The client and the relay after an attempt that the relay has accepted. -/
structure Attempt.Accepted (attempt : Attempt Sec) (s s' : Account K Sec C D) : Prop where
  arrives : attempt.arrives = true
  registered : ∃ registration,
    AsksFor S me s.manager.identity (SignedPreKey.generate S 0 s.manager.identity attempt.drawn)
      (attempt.opks S) registration ∧
    Registered registration attempt.relay.createdAt s.db true s'.db
  manager : s'.manager = s.manager ∧ (attempt.answered = false ∨ attempt.fails = true) ∨
    s'.manager = (registrationKeys (SignedPreKey.generate S 0 s.manager.identity attempt.drawn)
      (attempt.opks S) attempt.rotatedAt attempt.createdAt s.manager).saved ∧
      attempt.answered = true ∧ attempt.fails = false

/-- An attempt fails and leaves all as it was, or the relay has accepted it. -/
theorem registerWithServer_cases (attempt : Attempt Sec) (s : Account K Sec C D) :
    ((∃ e, (registerWithServer S digest me attempt s).1 = .error e) ∧
      (registerWithServer S digest me attempt s).2 = s ∧
      (attempt.arrives = true → (attempt.handled S digest me s).1 ≠ some .authSuccess)) ∨
    attempt.Accepted S me s (registerWithServer S digest me attempt s).2 := by
  have hrun := handleRegister_run S digest me s.manager.identity
    (SignedPreKey.generate S 0 s.manager.identity attempt.drawn) (attempt.opks S) attempt.relay
    attempt.relayFails s.db
  unfold registerWithServer Attempt.handled
  dsimp only at hrun ⊢
  rw [attempt.generate_opks S]
  dsimp only
  generalize (handleRegister S me _ _ attempt.relay).run digest attempt.relayFails s.db = handled
    at hrun ⊢
  obtain ⟨answer, db⟩ := handled
  split
  · next harrives => exact .inl ⟨⟨_, rfl⟩, rfl, fun h => absurd h harrives⟩
  next harrives =>
  rw [not_not] at harrives
  rcases hrun with ⟨hanswer, rfl⟩ | ⟨rfl, hregistered⟩
  · left
    split
    · exact ⟨⟨_, rfl⟩, rfl, fun _ => hanswer⟩
    · obtain ⟨herror, hsame⟩ := finishRegistration_refused
        (SignedPreKey.generate S 0 s.manager.identity attempt.drawn)
          (attempt.opks S) attempt s hanswer
      exact ⟨herror, hsame, fun _ => hanswer⟩
  · right
    split
    · next hanswered =>
      exact ⟨harrives, hregistered, .inl ⟨rfl, .inl (Bool.eq_false_of_not_eq_true hanswered)⟩⟩
    next hanswered =>
    unfold finishRegistration
    dsimp only
    cases hfails : attempt.fails with
    | true => exact ⟨harrives, hregistered, .inl ⟨rfl, .inr hfails⟩⟩
    | false => exact ⟨harrives, hregistered, .inr ⟨rfl, not_not.mp hanswered, hfails⟩⟩

end Cases

/-! ## Every run -/

/-- The user has got no row. -/
structure NothingNew (me : UserId) (db db' : Db C D) : Prop where
  users : ∀ row ∈ db'.users, row.userId = me → row ∈ db.users
  signed : ∀ row ∈ db'.signedPrekeys, row.userId = me → row ∈ db.signedPrekeys
  oneTime : ∀ row ∈ db'.prekeys, row.userId = me → row ∈ db.prekeys

theorem NothingNew.refl (me : UserId) (db : Db C D) : NothingNew me db db where
  users _ hrow _ := hrow
  signed _ hrow _ := hrow
  oneTime _ hrow _ := hrow

/-- Where the user stands with the relay. -/
inductive Account.Stage (S : IdentitySuite K Sec C) (me : UserId) (s : Account K Sec C D) : Prop
  | fresh (h : s.Fresh me)
  | foreign (h : s.Foreign S me)
  | own (hown : s.Own S me) (h : s.KeysHeld S me)

section Steps

variable {S : IdentitySuite K Sec C} {me : UserId} {s s' : Account K Sec C D} {db : Db C D}
  {attempt : Attempt Sec}

theorem Account.Fresh.keep (h : s.Fresh me) (hnew : NothingNew me s.db db) :
    Account.Fresh me { s with db := db } where
  users row hrow huser := h.users row (hnew.users row hrow huser) huser
  signed row hrow huser := h.signed row (hnew.signed row hrow huser) huser
  oneTime row hrow huser := h.oneTime row (hnew.oneTime row hrow huser) huser

theorem Account.KeysHeld.keep (h : s.KeysHeld S me) (hnew : NothingNew me s.db db) :
    Account.KeysHeld S me { s with db := db } where
  signed row hrow huser := h.signed row (hnew.signed row hrow huser) huser
  oneTime row hrow huser := h.oneTime row (hnew.oneTime row hrow huser) huser

theorem load_keeps {identity : Sec} {store : CryptoStore K Sec C}
    {loadedAt cutoffNow pruneNow : Nat} {m : Manager K Sec C}
    (h : loadOrGenerate identity store loadedAt cutoffNow pruneNow false = .ok m) :
    m.identity = identity ∧ m.store.core = store.core := by
  unfold loadOrGenerate at h
  dsimp only at h
  cases hvalid : validatePendingProtocolVersions (store.outbox.map Prod.snd) with
  | error e =>
    rw [hvalid] at h
    cases h
  | ok _ =>
    rw [hvalid] at h
    cases h
    exact ⟨rfl, rfl⟩

theorem Account.Stage.restart (h : s.Stage S me) {m : Manager K Sec C}
    (hidentity : m.identity = s.manager.identity) (hcore : m.store.core = s.manager.store.core) :
    Account.Stage S me { s with manager := m } := by
  cases h with
  | fresh h => exact .fresh ⟨h.users, h.signed, h.oneTime⟩
  | foreign h =>
    refine .foreign ?_
    unfold Account.Foreign
    rw [hidentity]
    exact h
  | own hown h =>
    refine .own ?_ ⟨?_, ?_⟩
    · unfold Account.Own
      rw [hidentity]
      exact hown
    · rw [hcore]
      exact h.signed
    · rw [hcore]
      exact h.oneTime

/-- The relay accepts no registration of a user it has. -/
theorem Attempt.Accepted.unknown (h : attempt.Accepted S me s s') :
    ∀ row ∈ s.db.users, row.userId ≠ me := by
  obtain ⟨-, ⟨registration, hasks, hregistered⟩, -⟩ := h
  generalize s'.db = db' at hregistered
  cases hregistered with
  | stored users inventory husers =>
    intro row hrow
    rw [← hasks.user]
    exact Table.ne_of_insert husers row hrow

theorem Attempt.Accepted.own (h : attempt.Accepted S me s s') : s'.Own S me := by
  obtain ⟨-, ⟨registration, hasks, hregistered⟩, hmanager⟩ := h
  have hidentity : s'.manager.identity = s.manager.identity := by
    rcases hmanager with ⟨hm, -⟩ | ⟨hm, -⟩
    · rw [hm]
    · rw [hm]
      rfl
  unfold Account.Own
  rw [hidentity]
  generalize s'.db = db' at hregistered ⊢
  cases hregistered with
  | stored users inventory husers =>
    refine (Table.mem_insert husers).mpr (.inr ?_)
    rw [hasks.user, hasks.identityKey]

/-- The keys of an accepted attempt are held once the client has stored them. -/
theorem Attempt.Accepted.keysHeld (h : attempt.Accepted S me s s') (hfresh : s.Fresh me)
    (hcompletes : attempt.Completes) : s'.KeysHeld S me := by
  obtain ⟨harrives, ⟨registration, hasks, hregistered⟩, hmanager⟩ := h
  obtain ⟨hanswered, hstored⟩ := hcompletes harrives
  have hdrawn := attempt.opks_drawn S
  obtain ⟨hsaved, -⟩ := hmanager.resolve_left fun hlost => by
    rcases hlost.2 with hlost | hlost
    · exact absurd (hanswered.symm.trans hlost) nofun
    · exact absurd (hstored.symm.trans hlost) nofun
  clear hmanager
  generalize attempt.opks S = opks at hdrawn hasks hsaved
  obtain ⟨m', db'⟩ := s'
  dsimp only at hsaved hregistered
  subst hsaved
  cases hregistered with
  | stored users inventory =>
    constructor
    · intro row hrow huser
      rcases Table.mem_insertOrReplace.mp hrow with rfl | ⟨hold, -⟩
      · exact ⟨_, _, rfl, rfl, hasks.signedId.symm, hasks.signedPublic.symm, rfl⟩
      · exact absurd huser (hfresh.signed row hold)
    · intro row hrow huser
      rcases mem_of_mem_insertBatch hrow with hold | ⟨-, hpair, -⟩
      · exact absurd huser (hfresh.oneTime row hold)
      · obtain ⟨entry, hentry, hid, hpublic⟩ := hasks.oneTime _ hpair
        refine ⟨_, entry.2, rfl, ?_, hpublic, hdrawn.genuine entry hentry⟩
        dsimp only at hid
        rw [← hid]
        exact HMap.lookup_insertAll_of_mem opks hdrawn.nodup hentry ∅

/-- The private halves of an accepted attempt are lost where the answer is, or where the keys
cannot be stored. -/
theorem Attempt.Accepted.lost (h : attempt.Accepted S me s s')
    (hlost : attempt.answered = false ∨ attempt.fails = true)
    (hcore : s.manager.store.core = none) : ¬s'.KeysHeld S me := by
  intro hheld
  obtain ⟨-, ⟨registration, hasks, hregistered⟩, hmanager⟩ := h
  obtain ⟨hm, -⟩ := hmanager.resolve_right fun hsaved => by
    rcases hlost with hlost | hlost
    · exact absurd (hsaved.2.1.symm.trans hlost) nofun
    · exact absurd (hsaved.2.2.symm.trans hlost) nofun
  have hrow : ∃ row ∈ s'.db.signedPrekeys, row.userId = me := by
    generalize s'.db = db' at hregistered
    cases hregistered with
    | stored => exact ⟨_, Table.mem_insertOrReplace.mpr (.inl rfl), hasks.user⟩
  obtain ⟨row, hrow, huser⟩ := hrow
  obtain ⟨core, -, hsome, -⟩ := hheld.signed row hrow huser
  rw [hm, hcore] at hsome
  cases hsome

/-! ### What the relay does with an honest request -/

theorem decodePrekeys_publicPrekey {opks : List (UInt32 × OneTimePreKey Sec)}
    (hnodup : (opks.map Prod.fst).Nodup) :
    decodePrekeys (C := C) (opks.map publicPrekey) =
      .ok (opks.map fun entry => (entry.1, entry.2.publicKey.toList)) := by
  have hpairs : ∀ pair ∈ opks.map fun entry => (entry.1, entry.2.publicKey.toList),
      pair.2.length = 32 := by
    intro pair hpair
    obtain ⟨entry, -, rfl⟩ := List.mem_map.mp hpair
    exact entry.2.publicKey.toList_length
  rw [← decodePrekeys_eq (C := C) hpairs (by rwa [List.map_map]), List.map_map]
  rfl

theorem handleRegister_honest (hS : S.Lawful) (me : UserId) (identity drawn : Sec) (keyId : UInt32)
    {opks : List (UInt32 × OneTimePreKey Sec)} (hnodup : (opks.map Prod.fst).Nodup)
    (hlength : opks.length ≤ MAX_PREKEYS_PER_UPLOAD) (env : RelayEnv) :
    ∃ registration, registration.userId = me ∧
      handleRegister S me (publishedBundle S identity
        (SignedPreKey.generate S keyId identity drawn) none) (opks.map publicPrekey) env =
        .transact (.registerAtomic registration env.createdAt) registerReply := by
  refine ⟨⟨me, (S.verifyingKey identity).toList, keyId, (S.toPublic drawn).toList,
    (S.sign identity (S.toPublic drawn).toList).toList,
    opks.map fun entry => (entry.1, entry.2.publicKey.toList)⟩, rfl, ?_⟩
  unfold handleRegister
  dsimp only [publishedBundle, b64Encode, SignedPreKey.generate]
  rw [List.length_map, if_neg (not_lt.mpr hlength),
    dif_neg (not_not.mpr (List.Vector.toList_length _))]
  split
  · next hkey => exact absurd (hS.isKey identity) hkey
  rw [if_neg (not_not.mpr (List.Vector.toList_length _)),
    dif_neg (not_not.mpr (List.Vector.toList_length _))]
  split
  · next hverify => exact absurd (hS.verifies identity _) hverify
  rw [decodePrekeys_publicPrekey hnodup]

end Steps

section Runs

variable [DecidableEq D] {S : IdentitySuite K Sec C} {digest : EncryptedEnvelope C → D}
  {me : UserId} {s start : Account K Sec C D}

theorem nothingNew_of_others {db db' : Db C D} {t : Transaction C} {answer : Option Answer}
    (h : Effect digest db t answer db') (hothers : OfOthers me t) : NothingNew me db db' where
  users row hrow huser := by
    refine (h.user_from.mp hrow).resolve_right ?_
    rintro ⟨registration, createdAt, rfl, -, rfl⟩
    exact hothers huser
  signed row hrow huser := by
    have hother : t.spkOwner? ≠ some me := by
      cases t with
      | registerAtomic | rotateSignedPrekey => exact fun heq => hothers (Option.some.inj heq)
      | _ => exact nofun
    have hrest : db.Retains me (db.signedPrekeys.rows.filter fun row => decide (row.userId = me)) :=
      fun row => by rw [List.mem_filter, decide_eq_true_eq]; rfl
    exact ((hrest row).mpr ((h.retains_of_others hother hrest row).mp ⟨hrow, huser⟩)).1
  oneTime row hrow huser := by
    refine (h.prekey_from hrow).resolve_right ?_
    rintro ⟨batch, hbatch, -⟩
    exact hothers.not_published (huser ▸ hbatch)

theorem Account.Stage.transact (h : s.Stage S me) {t : Transaction C} (hothers : s.Others S me t) :
    Account.Stage S me { s with db := t.after digest s.db } := by
  have heffect := t.effect digest s.db
  generalize t.answer? digest s.db = answer, t.after digest s.db = db at heffect ⊢
  have hstays : ∀ row ∈ s.db.users, row ∈ db.users :=
    fun row hrow => heffect.user_from.mpr (.inl hrow)
  have hkeep (hnew : NothingNew me s.db db) : Account.Stage S me { s with db := db } := by
    cases h with
    | fresh h => exact .fresh (h.keep hnew)
    | foreign h =>
      obtain ⟨row, hrow, huser, hne⟩ := h
      exact .foreign ⟨row, hstays row hrow, huser, hne⟩
    | own hown h => exact .own (hstays _ hown) (h.keep hnew)
  rcases hothers with hothers | ⟨row, hrow, huser, hne⟩ | ⟨registration, createdAt, rfl, hne⟩
  · exact hkeep (nothingNew_of_others heffect hothers)
  · exact .foreign ⟨row, hstays row hrow, huser, hne⟩
  by_cases huser : registration.userId = me
  · cases heffect with
    | failed => exact hkeep (.refl me s.db)
    | registered _ _ result _ hregistered =>
      cases hregistered with
      | known => exact hkeep (.refl me s.db)
      | stored users inventory husers =>
        exact .foreign ⟨_, (Table.mem_insert husers).mpr (.inr rfl), huser, hne⟩
  · exact hkeep (nothingNew_of_others heffect huser)

theorem Account.Stage.attempt (h : s.Stage S me) {attempt : Attempt Sec}
    (hcompletes : attempt.Completes) : (registerWithServer S digest me attempt s).2.Stage S me := by
  rcases registerWithServer_cases S digest me attempt s with ⟨-, heq, -⟩ | haccepted
  · rw [heq]
    exact h
  cases h with
  | fresh h => exact .own haccepted.own (haccepted.keysHeld h hcompletes)
  | foreign h =>
    obtain ⟨row, hrow, huser, -⟩ := h
    exact absurd huser (haccepted.unknown row hrow)
  | own hown => exact absurd rfl (haccepted.unknown _ hown)

/-- Where every attempt that reaches the relay completes, each signed and one-time prekey
that the relay stores for the user under the client's identity key has its private half in
the client's durable state. -/
theorem registration_keys_held (hstart : start.Fresh me)
    (run : Account.Run S digest me Attempt.Completes start s) (hown : s.Own S me) :
    s.KeysHeld S me := by
  have hstage : s.Stage S me := by
    clear hown
    induction run with
    | refl => exact .fresh hstart
    | attempt _ _ _ hcompletes ih => exact ih.attempt hcompletes
    | restart _ _ _ _ _ hload ih => exact ih.restart (load_keeps hload).1 (load_keeps hload).2
    | transact _ _ hothers ih => exact ih.transact hothers
  cases hstage with
  | fresh h => exact absurd rfl (h.users _ hown)
  | foreign h =>
    obtain ⟨row, hrow, huser, hne⟩ := h
    exact absurd (congrArg UserRow.identityKey (s.db.users.eq_of_key_eq hrow hown huser)) hne
  | own _ h => exact h

/-! ## An account that is lost -/

theorem registerWithServer_known {attempt : Attempt Sec} {row : UserRow} (hrow : row ∈ s.db.users)
    (huser : row.userId = me) :
    (∃ e, (registerWithServer S digest me attempt s).1 = .error e) ∧
      (registerWithServer S digest me attempt s).2 = s := by
  rcases registerWithServer_cases S digest me attempt s with ⟨herror, hsame, -⟩ | haccepted
  · exact ⟨herror, hsame⟩
  · exact absurd huser (haccepted.unknown row hrow)

theorem Account.Run.user_stays {allows : Attempt Sec → Prop} {row : UserRow}
    (run : Account.Run S digest me allows start s) (hrow : row ∈ start.db.users)
    (huser : row.userId = me) : row ∈ s.db.users := by
  induction run with
  | refl => exact hrow
  | attempt _ _ _ _ ih => rwa [(registerWithServer_known ih huser).2]
  | restart _ _ _ _ _ _ ih => exact ih
  | transact _ t _ ih => exact (t.effect digest _).user_from.mpr (.inl ih)

/-- Once the relay has the user, no attempt succeeds again. -/
theorem Account.not_canRegister {row : UserRow} (hrow : row ∈ s.db.users)
    (huser : row.userId = me) : ¬s.CanRegister S digest me := by
  rintro ⟨s', run, -, attempt, hok⟩
  have hknown : (∃ e, (registerWithServer S digest me attempt s').1 = .error e) ∧ _ :=
    registerWithServer_known (run.user_stays hrow huser) huser
  obtain ⟨⟨e, herror⟩, -⟩ := hknown
  exact absurd (hok.symm.trans herror) nofun

theorem registerAtomic_answer {db : Db C D} {registration : Registration}
    (createdAt : UInt32 → Nat) (husers : ∀ row ∈ db.users, row.userId ≠ registration.userId)
    (hinventory : ∀ row ∈ db.prekeyInventory, row.userId ≠ registration.userId) :
    (Transaction.registerAtomic registration createdAt).answer? digest db =
      some (.registered true) := by
  have huser : db.users.insert ⟨registration.userId, registration.identityKey⟩ ≠ none := by
    intro hnone
    obtain ⟨row, hrow, hid⟩ := Table.insert_eq_none.mp hnone
    exact husers row hrow hid
  have hrow : db.prekeyInventory.insert ⟨registration.userId,
      max ((batchIds registration.oneTimePrekeys).max?.getD (-1)) LEGACY_HIGH_WATER⟩ ≠ none := by
    intro hnone
    obtain ⟨row, hrow, hid⟩ := Table.insert_eq_none.mp hnone
    exact hinventory row hrow hid
  obtain ⟨users, husers⟩ := Option.ne_none_iff_exists'.mp huser
  obtain ⟨inventory, hinventory⟩ := Option.ne_none_iff_exists'.mp hrow
  unfold Transaction.answer?
  simp only [Transaction.run, Relay.registerAtomic, husers, hinventory, Except.map]

/-- The relay accepts the first request that reaches it. -/
theorem registerWithServer_fresh (hS : S.Lawful) (hfresh : s.Fresh me)
    (hinventory : ∀ row ∈ s.db.prekeyInventory, row.userId ≠ me) {attempt : Attempt Sec}
    (harrives : attempt.arrives = true) (hrelay : attempt.relayFails = false) :
    attempt.Accepted S me s (registerWithServer S digest me attempt s).2 := by
  refine (registerWithServer_cases S digest me attempt s).resolve_left ?_
  rintro ⟨-, -, hrefused⟩
  apply hrefused harrives
  have hlength : (attempt.opks S).length ≤ MAX_PREKEYS_PER_UPLOAD := by
    rw [attempt.opks_length]
    decide
  obtain ⟨registration, rfl, heq⟩ := handleRegister_honest hS me s.manager.identity attempt.drawn 0
    (attempt.opks_drawn S).nodup hlength attempt.relay
  unfold Attempt.handled
  rw [heq, hrelay]
  dsimp only [Handling.run]
  rw [if_neg Bool.false_ne_true, registerAtomic_answer _ hfresh.users hinventory]
  rfl

/-- A first request that the relay accepts and whose answer is lost, or whose keys cannot be
stored, leaves an account whose private keys nobody has and that cannot be registered again. -/
theorem registerWithServer_lost (hS : S.Lawful) (hfresh : s.Fresh me)
    (hinventory : ∀ row ∈ s.db.prekeyInventory, row.userId ≠ me)
    (hcore : s.manager.store.core = none) {attempt : Attempt Sec}
    (harrives : attempt.arrives = true) (hrelay : attempt.relayFails = false)
    (hlost : attempt.answered = false ∨ attempt.fails = true) :
    (registerWithServer S digest me attempt s).2.Own S me ∧
      ¬(registerWithServer S digest me attempt s).2.KeysHeld S me ∧
      ¬(registerWithServer S digest me attempt s).2.CanRegister S digest me := by
  have haccepted : attempt.Accepted S me s (registerWithServer S digest me attempt s).2 :=
    registerWithServer_fresh hS hfresh hinventory harrives hrelay
  exact ⟨haccepted.own, haccepted.lost hlost hcore, Account.not_canRegister haccepted.own rfl⟩

end Runs

/-! ## Bob registers -/

/-- Bob's new data directory and a relay without users. -/
def bobUnregistered : Account Term Key32 Ciphertext Unit := ⟨newManager (key32 9), Db.fresh⟩

theorem bobUnregistered_fresh : bobUnregistered.Fresh Client.bob where
  users _ hrow := absurd hrow List.not_mem_nil
  signed _ hrow := absurd hrow List.not_mem_nil
  oneTime _ hrow := absurd hrow List.not_mem_nil

def bobAttempt (answered : Bool) : Attempt Key32 where
  drawn := key32 8
  opksDrawn n := key32 (n + 10).toUInt8
  transport := none
  arrives := true
  relay := ⟨100, 100, 100, fun _ => 100, 100, 0⟩
  relayFails := false
  answered := answered
  rotatedAt := 100
  createdAt := 100
  fails := false

def bobAccount (answered : Bool) : Account Term Key32 Ciphertext Unit :=
  (registerWithServer symbolicIdentity (fun _ => ()) Client.bob (bobAttempt answered)
    bobUnregistered).2

theorem registration_keys_held_bob :
    (bobAccount true).Own symbolicIdentity Client.bob ∧
      (bobAccount true).KeysHeld symbolicIdentity Client.bob := by
  have haccepted : (bobAttempt true).Accepted symbolicIdentity Client.bob bobUnregistered
      (bobAccount true) :=
    registerWithServer_fresh symbolicIdentity_lawful bobUnregistered_fresh
      (fun _ hrow => absurd hrow List.not_mem_nil) rfl rfl
  exact ⟨haccepted.own, registration_keys_held bobUnregistered_fresh
    (.attempt .refl rfl (bobAttempt true) fun _ => ⟨rfl, rfl⟩) haccepted.own⟩

/-- The answer to Bob's request is lost. -/
theorem lost_answer_loses_account :
    Account.Run symbolicIdentity (fun _ => ()) Client.bob (fun _ => True) bobUnregistered
        (bobAccount false) ∧
      (bobAccount false).Own symbolicIdentity Client.bob ∧
      ¬(bobAccount false).KeysHeld symbolicIdentity Client.bob ∧
      ¬(bobAccount false).CanRegister symbolicIdentity (fun _ => ()) Client.bob :=
  ⟨.attempt .refl rfl (bobAttempt false) trivial,
    registerWithServer_lost symbolicIdentity_lawful bobUnregistered_fresh
      (fun _ hrow => absurd hrow List.not_mem_nil) rfl rfl rfl (.inl rfl)⟩

end Cmp.System
