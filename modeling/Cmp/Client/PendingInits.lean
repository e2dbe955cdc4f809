import Cmp.Client.Handlers
import Cmp.Client.FirstContact

/-! Peers a bundle has been asked for. As long as no first message of such a peer can be
decrypted, none of them has a session, and a bundle that arrives replaces nothing.
Otherwise the bundle takes the place of a session that is in use. -/

namespace Cmp.Client

open Cmp.Crypto Cmp.Protocol Cmp.Lib Cmp.Lib.Action

variable {K Sec C : Type} {S : IdentitySuite K Sec C} {texts : List MessageId → Bytes}
  {parses : String → Bool} {m m' : Manager K Sec C}

/-- No first message that can be decrypted arrives from a peer whose bundle has been asked for. -/
def Event.Uncrossed (S : IdentitySuite K Sec C) (app : App K Sec C) (e : Event Sec C) : Prop :=
  ∀ peerId ∈ app.crypto.pendingInits, ∀ envelope, e.Delivers peerId envelope →
    envelope.header.isPreKey = true → ∀ drawn plaintext session opkId,
      ¬Opens S app.crypto peerId envelope drawn plaintext session opkId

/-- A peer whose bundle has been asked for has no session. -/
def Manager.AwaitsAlone (m : Manager K Sec C) : Prop :=
  ∀ peerId ∈ m.pendingInits, m.sessions.lookup peerId = none

namespace Manager.AwaitsAlone

theorem same (h : m.AwaitsAlone) (hpending : m'.pendingInits = m.pendingInits)
    (hsessions : m'.sessions = m.sessions) : m'.AwaitsAlone := by
  intro peerId hpeer
  rw [hsessions]
  exact h peerId (hpending ▸ hpeer)

theorem erase (h : m.AwaitsAlone) {peerId : UserId} (hpending : m'.pendingInits = m.pendingInits)
    (hsessions : m'.sessions = m.sessions.erase peerId) : m'.AwaitsAlone := by
  intro other hother
  rw [hsessions, HMap.lookup_erase_eq]
  split
  · rfl
  · exact h other (hpending ▸ hother)

/-- A session of a peer that nobody waits for. -/
theorem insert (h : m.AwaitsAlone) {peerId : UserId} {session : PeerSession K Sec}
    (hpeer : peerId ∉ m'.pendingInits) (hpending : m'.pendingInits ⊆ m.pendingInits)
    (hsessions : m'.sessions = m.sessions.insert peerId session) : m'.AwaitsAlone := by
  intro other hother
  rw [hsessions, HMap.lookup_insert_eq]
  split
  · next heq => exact absurd (heq ▸ hother) hpeer
  · exact h other (hpending hother)

theorem not_pending (h : m.AwaitsAlone) {peerId : UserId} {session : PeerSession K Sec}
    (hsession : m.sessions.lookup peerId = some session) : peerId ∉ m.pendingInits := by
  intro hpending
  cases (h peerId hpending).symm.trans hsession

end Manager.AwaitsAlone

/-- Keys that are used up make no session. -/
theorem Manager.ReadsFrom.createBobSession {before : Manager K Sec C} (h : m.ReadsFrom before)
    {identityKey ephemeralKey : Key32} {spkId : UInt32} {opkId : Option UInt32}
    {session : SessionState K Sec}
    (hbob : Client.createBobSession S m identityKey ephemeralKey spkId opkId = .ok session) :
    Client.createBobSession S before identityKey ephemeralKey spkId opkId = .ok session := by
  unfold Client.createBobSession at hbob ⊢
  rw [h.signedPrekeys, h.identity] at hbob
  cases opkId with
  | none => exact hbob
  | some id =>
    cases hopk : m.storedOpks.lookup id with
    | none =>
      simp only [hopk] at hbob
      repeat' split at hbob
      all_goals cases hbob
    | some opk =>
      simp only [hopk] at hbob
      simp only [h.storedOpks id opk hopk]
      exact hbob

/-- The step: an operation that the event allows. -/
theorem Outcome.awaitsAlone {op : Op Sec C} {sent : List (UserId × EncryptedEnvelope C)}
    {e : Event Sec C} {app : App K Sec C} (h : Outcome S m op sent m')
    (hop : e.Allows app.crypto m op) (he : e.Uncrossed S app) (happ : app.crypto.AwaitsAlone)
    (hm : m.AwaitsAlone) : m'.AwaitsAlone := by
  cases h with
  | asked peerId =>
    intro other hother
    rcases Finset.mem_insert.mp hother with rfl | hother
    · exact hop
    · exact hm other hother
  | initiated peerId bundle ephemeral drawn now fails session =>
    exact hm.insert (Finset.notMem_erase _ _) (Finset.erase_subset _ _) rfl
  | expired | rejected => exact hm.erase rfl rfl
  | encrypted _ peerId _ _ original _ _ _ hsession =>
    exact hm.insert (hm.not_pending hsession) (Finset.Subset.refl _) rfl
  | decrypted peerId messageId envelope env plaintext session opkId hopens =>
    obtain ⟨hreads, hdelivers⟩ := hop
    have hpeer : peerId ∉ m.pendingInits := by
      intro hpeer
      cases hopens with
      | existing original _ _ _ _ _ _ hsession => exact hm.not_pending hsession hpeer
      | first _ _ _ _ _ fields bob ratchet _ hheader hfields _ hbob hopen =>
        -- what the message opened now it would have opened when the event came
        rw [hreads.pendingInits] at hpeer
        exact he peerId hpeer envelope hdelivers (by rw [hheader]; rfl) _ _ _ _
          (.first _ _ _ _ _ fields bob ratchet _ hheader hfields (happ peerId hpeer)
            (hreads.createBobSession hbob) hopen)
    unfold Manager.marked Manager.opened
    rw [takeOneTimePrekey_eq]
    exact hm.insert hpeer (Finset.Subset.refl _) rfl
  | _ => exact hm.same rfl rfl

/-- What holds of the manager in such runs. -/
structure Manager.Waiting (m : Manager K Sec C) : Prop where
  durable : ∃ prunedAt, m.Durable prunedAt
  alone : m.AwaitsAlone

theorem Manager.Waiting.acts {e : Event Sec C} {app : App K Sec C}
    (he : e.Uncrossed S app) (hm : app.crypto.Waiting)
    (h : Acts S texts (e.Allows app.crypto) app.crypto m') : m'.Waiting := by
  induction h with
  | refl => exact hm
  | tail _ hcall ih =>
    obtain ⟨op, hop, rfl⟩ := hcall
    obtain ⟨prunedAt, hdurable⟩ := ih.durable
    have houtcome := perform_outcome (S := S) texts hdurable.sound op
    exact ⟨⟨_, hdurable.outcome houtcome⟩, houtcome.awaitsAlone hop he hm.alone ih.alone⟩

theorem AppRun.waiting {app : App K Sec C} (run : AppRun S texts parses (Event.Uncrossed S) app) :
    app.crypto.Waiting := by
  induction run with
  | start userId identity loadedAt cutoffNow pruneNow m hload =>
    have hdurable := Manager.Durable.start hload
    cases hload
    exact ⟨⟨_, hdurable⟩, fun peerId hpeer => absurd hpeer (Finset.notMem_empty peerId)⟩
  | @register app run spk opks rotatedAt createdAt fails hneeds ih =>
    obtain ⟨prunedAt, hdurable⟩ := ih.durable
    rcases persistRegistrationKeys_cases spk opks rotatedAt createdAt fails app.crypto with
      ⟨err, hrun⟩ | hrun
    · rw [hrun]
      exact ih
    · have houtcome : Outcome S app.crypto _ [] _ :=
        .registered spk opks rotatedAt createdAt fails
      rw [hrun]
      exact ⟨⟨_, hdurable.outcome houtcome⟩, ih.alone.same rfl rfl⟩
  | event run e he ih => exact Manager.Waiting.acts he ih (handle_acts S texts parses e _)
  | restart run loadedAt cutoffNow pruneNow m hload ih =>
    obtain ⟨prunedAt, hdurable⟩ := ih.durable
    rw [hdurable.load] at hload
    cases hload
    exact ⟨⟨_, hdurable.reloaded cutoffNow pruneNow⟩,
      fun peerId hpeer => absurd hpeer (Finset.notMem_empty peerId)⟩

/-- **A late bundle replaces nothing.** In every run in which no first message that can be
decrypted arrives from a peer whose bundle has been asked for, a bundle for a peer with a session
leaves the session, and all else, as it was. -/
theorem late_bundle_ignored {app : App K Sec C}
    (run : AppRun S texts parses (Event.Uncrossed S) app) {peerId : UserId}
    {session : PeerSession K Sec} (hsession : app.crypto.sessions.lookup peerId = some session)
    (bundle : PreKeyBundle) (ephemeral drawn : Sec) (now : Nat) (fails : Bool) :
    (App.handle S texts parses (.preKeyBundleResponse peerId bundle ephemeral drawn now fails)).run
      app = .ok () app := by
  have hpeer := run.waiting.alone.not_pending hsession
  have hpending : ¬app.crypto.isPending peerId = true := fun h => hpeer (of_decide_eq_true h)
  show (App.handlePreKeyBundleResponse S peerId bundle ephemeral drawn now fails).run app = _
  unfold App.handlePreKeyBundleResponse
  rw [run_bind_ok (run_get app), run_ite, if_neg hpending]
  rfl

/-! ## A bundle that arrives after the first message -/

def bobSpk : SignedPreKey Key32 := SignedPreKey.generate symbolicIdentity 1 (key32 9) (key32 8)

/-- Bob after his registration. -/
def bobApp : App Term Key32 Ciphertext :=
  App.new bob (finalState ((persistRegistrationKeys bobSpk [] 100 100 false).run
    (newManager (key32 9)))) []

theorem bobApp_run (guard : App Term Key32 Ciphertext → Event Key32 Ciphertext → Prop) :
    AppRun symbolicIdentity (fun _ => []) (fun _ => true) guard bobApp :=
  .register (.start bob (key32 9) 0 0 0 (newManager (key32 9)) rfl) bobSpk [] 100 100 false rfl

/-- Alice's first message arrives. -/
def firstArrives : Event Key32 Ciphertext :=
  .incomingMessage ⟨⟨1⟩, alice, firstEnvelope⟩
    ⟨⟨200, 200, 200, key32 7, false, false⟩, false, false⟩ ⟨⟨21⟩, false⟩ ⟨⟨22⟩, false⟩ ⟨⟨23⟩, false⟩

/-- The answer to a request for Alice's bundle. -/
def bundleArrives : Event Key32 Ciphertext :=
  .preKeyBundleResponse alice (contactBundle true) (key32 12) (key32 13) 300 false

def handled (app : App Term Key32 Ciphertext) (e : Event Key32 Ciphertext) :
    App Term Key32 Ciphertext :=
  finalState ((App.handle symbolicIdentity (fun _ => []) (fun _ => true) e).run app)

set_option maxRecDepth 4000 in
theorem late_bundle_ignored_alice :
    ((handled bobApp firstArrives).crypto.sessions.lookup alice).map PeerSession.hasDecrypted =
        some true ∧
      (App.handle symbolicIdentity (fun _ => []) (fun _ => true) bundleArrives).run
        (handled bobApp firstArrives) = .ok () (handled bobApp firstArrives) :=
  ⟨rfl, late_bundle_ignored (.event (bobApp_run _) firstArrives
    fun _ hpeer => absurd hpeer (Finset.notMem_empty _)) rfl _ _ _ _ _⟩

def bobAsks : Event Key32 Ciphertext := .openConversation alice ⟨⟨20⟩, false⟩

/-- Bob has asked for Alice's bundle, and her first message has arrived. -/
def crossed : App Term Key32 Ciphertext := handled (handled bobApp bobAsks) firstArrives

theorem crossed_run :
    AppRun symbolicIdentity (fun _ => []) (fun _ => true) (fun _ _ => True) crossed :=
  .event (.event (bobApp_run _) bobAsks trivial) firstArrives trivial

set_option maxRecDepth 4000 in
/-- The bundle then replaces the session that has decrypted the message. -/
theorem late_bundle_replaces_session :
    ∃ app session, AppRun symbolicIdentity (fun _ => []) (fun _ => true) (fun _ _ => True) app ∧
      app.crypto.sessions.lookup alice = some session ∧ session.hasDecrypted = true ∧
      (handled app bundleArrives).crypto.sessions.lookup alice ≠ some session := by
  refine ⟨crossed, _, crossed_run, rfl, rfl, fun h => ?_⟩
  have hnew : ((handled crossed bundleArrives).crypto.sessions.lookup alice).map
      PeerSession.hasDecrypted = some false := rfl
  rw [h] at hnew
  cases hnew

end Cmp.Client
