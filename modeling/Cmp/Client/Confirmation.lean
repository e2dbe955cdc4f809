import Cmp.Client.FirstContact
import Cmp.Client.Screen

/-! Confirming a safety number. The dialog shows the number of the key that was stored when it
was opened; `y` computes the number again, from the key that is stored then. The two agree as
long as no other key of the peer arrives in between. -/

namespace Cmp.Client

open Cmp.Crypto Cmp.Protocol Cmp.Lib Cmp.Lib.Action

variable {K Sec C : Type} {S : IdentitySuite K Sec C} {V : Verifier}
  {texts : List MessageId → Bytes} {parses : String → Bool} {screen : Screen K Sec C}

/-- The key stored for a peer. -/
def Screen.storedKey (screen : Screen K Sec C) (peerId : UserId) : Option (B64Text Bytes) :=
  screen.db.bind fun db => db.identityKeys.lookup peerId

def Screen.verification (screen : Screen K Sec C) (peerId : UserId) : Option String :=
  screen.db.bind fun db => db.verified.lookup peerId

/-- While the dialog is open, nothing arrives with another identity key of the peer in it; and `y`
is pressed only below a number. -/
def Screen.Undisturbed (screen : Screen K Sec C) : ScreenEvent Sec C → Prop
  | .press .confirm _ =>
    ∀ entries, screen.modal = some (.verification entries) → ∃ number, Shows entries number
  | .press _ _ => True
  | .app e _ =>
    ∀ entries target, screen.modal = some (.verification entries) →
      screen.app.targetUser = some target →
      ∀ claim ∈ e.carries, claim.1 = target → screen.storedKey target = some claim.2

/-- The safety number with the open conversation's peer, as it would be computed now. -/
def Screen.currentNumber (S : IdentitySuite K Sec C) (V : Verifier) (screen : Screen K Sec C)
    (target : UserId) (number : String) : Prop :=
  ∃ db, screen.db = some db ∧ resolveSafetyNumber V screen.app.userId
    (screen.localIdentityKey S) target db = .ok number

/-- The dialog belongs to the open conversation, and a number in it is the current one. -/
def Screen.Current (S : IdentitySuite K Sec C) (V : Verifier) (screen : Screen K Sec C) : Prop :=
  ∀ entries, screen.modal = some (.verification entries) →
    ∃ target, screen.app.targetUser = some target ∧ target ≠ screen.app.userId ∧
      ((∀ number, ¬ Shows entries number) ∨
        ∃ number, screen.currentNumber S V target number ∧ Shows entries number)

theorem Screen.Current.of_closed (h : ∀ entries, screen.modal ≠ some (.verification entries)) :
    screen.Current S V := fun entries hmodal => absurd hmodal (h entries)

/-! ## Keys -/

theorem showVerification_current (action : VerificationAction) (fails : Bool)
    (h : screen.Current S V) :
    (screen.showVerification S V action fails).Current S V := by
  unfold Screen.showVerification
  cases htarget : screen.app.targetUser with
  | none => exact h
  | some target =>
    dsimp only
    split
    · exact h
    · next hother =>
      rintro entries ⟨⟩
      refine ⟨target, htarget, hother, ?_⟩
      by_cases haction : action = .view
      · subst haction
        rcases formatVerifyOutput_shows V screen.app.userId (screen.localIdentityKey S) target
          screen.db with ⟨entry, hentry⟩ | ⟨contacts, number, hdb, hresolve, hshows⟩
        · refine .inl fun number => ?_
          show ¬ Shows (formatVerifyOutput _ _ _ _ _) number
          rw [hentry]
          exact not_shows_singleton entry number
        · exact .inr ⟨number, ⟨contacts, hdb, hresolve⟩, hshows⟩
      · obtain ⟨entry, hentry⟩ := handleAction_singleton V screen.app.userId
          (screen.localIdentityKey S) target fails screen.db haction
        refine .inl fun number => ?_
        rw [hentry]
        exact not_shows_singleton entry number

theorem press_current (p : Press) (fails : Bool) (h : screen.Current S V) :
    (screen.press S V p fails).Current S V := by
  unfold Screen.press
  split
  · exact showVerification_current .view fails h
  · exact .of_closed fun entries hmodal => by cases hmodal
  · exact .of_closed fun entries hmodal => by cases hmodal
  · exact showVerification_current .confirm fails h
  · exact showVerification_current .clear fails h
  · exact .of_closed fun entries hmodal => by cases hmodal
  · exact .of_closed fun entries hmodal => by cases hmodal
  · exact h

/-! ## Events -/

theorem trackPeerIdentity_frame (peerId : UserId) (identityKey : B64Text Bytes) (fails : Bool)
    (screen : Screen K Sec C) :
    (screen.trackPeerIdentity peerId identityKey fails).app = screen.app ∧
      (screen.trackPeerIdentity peerId identityKey fails).modal = screen.modal := by
  unfold Screen.trackPeerIdentity
  split <;> exact ⟨rfl, rfl⟩

theorem trackPeerIdentity_storedKey {peerId target : UserId} {identityKey : B64Text Bytes}
    (fails : Bool) (h : peerId = target → screen.storedKey target = some identityKey) :
    (screen.trackPeerIdentity peerId identityKey fails).storedKey target =
      screen.storedKey target := by
  unfold Screen.trackPeerIdentity Screen.storedKey at *
  cases hdb : screen.db with
  | none =>
    dsimp only
    rw [hdb]
  | some db =>
    rw [hdb] at h
    exact checkPeerIdentity_lookup fails h

theorem trackAll_frame (tracked : List (UserId × B64Text Bytes)) :
    ∀ (fails : Nat → Bool) (screen : Screen K Sec C),
      (Screen.trackAll tracked fails screen).app = screen.app ∧
        (Screen.trackAll tracked fails screen).modal = screen.modal := by
  induction tracked with
  | nil => exact fun _ _ => ⟨rfl, rfl⟩
  | cons claim rest ih =>
    intro fails screen
    obtain ⟨happ, hmodal⟩ := trackPeerIdentity_frame claim.1 claim.2 (fails 0) screen
    obtain ⟨happ', hmodal'⟩ := ih (fun i => fails (i + 1))
      (screen.trackPeerIdentity claim.1 claim.2 (fails 0))
    exact ⟨happ'.trans happ, hmodal'.trans hmodal⟩

theorem trackAll_storedKey {target : UserId} (tracked : List (UserId × B64Text Bytes)) :
    ∀ (fails : Nat → Bool) (screen : Screen K Sec C),
      (∀ claim ∈ tracked, claim.1 = target → screen.storedKey target = some claim.2) →
      (Screen.trackAll tracked fails screen).storedKey target = screen.storedKey target := by
  induction tracked with
  | nil => exact fun _ _ _ => rfl
  | cons claim rest ih =>
    intro fails screen h
    have hfirst := trackPeerIdentity_storedKey (fails 0) (h claim List.mem_cons_self)
    refine (ih (fun i => fails (i + 1)) _ fun other hother htarget => ?_).trans hfirst
    rw [hfirst]
    exact h other (List.mem_cons_of_mem _ hother) htarget

/-- The number depends on the own name and key and on the stored key. -/
theorem currentNumber_congr {screen' : Screen K Sec C} {target : UserId} {number : String}
    (huser : screen'.app.userId = screen.app.userId)
    (hidentity : screen'.app.crypto.identity = screen.app.crypto.identity)
    (hkey : screen'.storedKey target = screen.storedKey target)
    (h : screen.currentNumber S V target number) :
    screen'.currentNumber S V target number := by
  obtain ⟨db, hdb, hresolve⟩ := h
  have hstored : (screen'.db.bind fun db => db.identityKeys.lookup target) =
      db.identityKeys.lookup target := by
    unfold Screen.storedKey at hkey
    rw [hkey, hdb]
    rfl
  cases hdb' : screen'.db with
  | none =>
    -- without a database no key is stored, and there was no number
    rw [hdb'] at hstored
    unfold resolveSafetyNumber at hresolve
    rw [← hstored] at hresolve
    cases hresolve
  | some db' =>
    rw [hdb'] at hstored
    refine ⟨db', hdb', ?_⟩
    unfold Screen.localIdentityKey at hresolve ⊢
    rw [huser, hidentity, resolveSafetyNumber_congr hstored]
    exact hresolve

theorem handle_current (e : Event Sec C) (trackFails : Nat → Bool)
    (hdurable : ∃ prunedAt, screen.app.crypto.Durable prunedAt) (h : screen.Current S V)
    (hguard : screen.Undisturbed (.app e trackFails)) :
    (screen.handle S texts parses e trackFails).Current S V := by
  unfold Screen.handle
  generalize hafter : finalState ((App.handle S texts parses e).run screen.app) = after
  obtain ⟨happ, hmodal⟩ := trackAll_frame (e.identities S screen.app) trackFails
    { screen with app := after, modal := if e.opens screen.app after then none else screen.modal }
  intro entries hentries
  rw [hmodal] at hentries
  -- the dialog is still open, so it was open before, in the same conversation
  dsimp only at hentries
  split at hentries
  · cases hentries
  · next hopens =>
    obtain ⟨target, htarget, hother, hshown⟩ := h entries hentries
    have hscope : after.scope = screen.app.scope := by
      rw [← hafter] at hopens ⊢
      exact handle_scope e (by rw [htarget]; rfl) (Bool.not_eq_true _ ▸ hopens)
    have huser : after.userId = screen.app.userId := congrArg Prod.fst hscope
    have htarget' : after.targetUser = some target := (congrArg Prod.snd hscope).trans htarget
    have hidentity : after.crypto.identity = screen.app.crypto.identity := by
      rw [← hafter]
      exact ((handle_acts S texts parses e screen.app).durable hdurable).2
    rw [happ]
    refine ⟨target, htarget', by rw [huser]; exact hother, hshown.imp_right ?_⟩
    rintro ⟨number, hcurrent, hnumber⟩
    refine ⟨number, currentNumber_congr ?_ ?_ ?_ hcurrent, hnumber⟩
    · rw [happ]
      exact huser
    · rw [happ]
      exact hidentity
    · exact trackAll_storedKey _ trackFails _ fun claim hclaim hpeer =>
        hguard entries target hentries htarget claim (e.identities_subset S screen.app hclaim) hpeer

/-! ## Runs -/

theorem trackAll_app (S : IdentitySuite K Sec C) (texts : List MessageId → Bytes)
    (parses : String → Bool) (e : Event Sec C) (trackFails : Nat → Bool)
    (screen : Screen K Sec C) :
    (screen.handle S texts parses e trackFails).app =
      finalState ((App.handle S texts parses e).run screen.app) :=
  (trackAll_frame _ trackFails _).1

theorem press_app (p : Press) (fails : Bool) (screen : Screen K Sec C) :
    (screen.press S V p fails).app = screen.app := by
  have hshow (action : VerificationAction) :
      (screen.showVerification S V action fails).app = screen.app := by
    unfold Screen.showVerification
    split
    · rfl
    · split <;> rfl
  unfold Screen.press
  split
  · exact hshow .view
  · rfl
  · rfl
  · exact hshow .confirm
  · exact hshow .clear
  · rfl
  · rfl
  · rfl

theorem ScreenRun.app {guard : Screen K Sec C → ScreenEvent Sec C → Prop}
    (run : ScreenRun S V texts parses guard screen) :
    AppRun S texts parses (fun _ _ => True) screen.app := by
  induction run with
  | start screen run _ => exact run
  | event run e _ ih =>
    cases e with
    | press p fails =>
      show AppRun S texts parses _ (Screen.press S V p fails _).app
      rw [press_app]
      exact ih
    | app e trackFails =>
      show AppRun S texts parses _ (Screen.handle S texts parses e trackFails _).app
      rw [trackAll_app]
      exact ih.event e trivial

theorem ScreenRun.current (run : ScreenRun S V texts parses Screen.Undisturbed screen) :
    screen.Current S V := by
  induction run with
  | start screen _ hmodal =>
    exact .of_closed fun entries hentries => by
      rw [hmodal] at hentries
      cases hentries
  | event run e hguard ih =>
    cases e with
    | press p fails => exact press_current p fails ih
    | app e trackFails => exact handle_current e trackFails run.app.durable ih hguard

/-- What `y` does: the current number is stored, and the warning goes. -/
theorem press_confirm {entries : List ChatEntry} {target : UserId} {number : String}
    (hmodal : screen.modal = some (.verification entries))
    (htarget : screen.app.targetUser = some target) (hother : target ≠ screen.app.userId)
    (hcurrent : screen.currentNumber S V target number) :
    (screen.press S V .confirm false).verification target = some number ∧
      (screen.press S V .confirm false).storedKey target = screen.storedKey target ∧
      (screen.press S V .confirm false).identityWarnings =
        screen.identityWarnings.erase target := by
  obtain ⟨db, hdb, hresolve⟩ := hcurrent
  have hstored : (db.verified.insert target number).lookup target = some number :=
    Finmap.lookup_insert _
  have hpress : screen.press S V .confirm false =
      screen.showVerification S V .confirm false := by
    unfold Screen.press
    rw [hmodal]
  rw [hpress]
  unfold Screen.showVerification
  rw [htarget]
  simp only [if_neg hother, handleAction, hdb, confirmVerification, hresolve, Bool.false_eq_true,
    if_false, Option.bind_some, hstored, Option.isSome_some, and_self, if_true]
  refine ⟨hstored, ?_, trivial⟩
  unfold Screen.storedKey
  rw [hdb]
  rfl

/-- **Confirmation.** In every run in which no other identity key of the peer arrives while the
dialog is open, and `y` is pressed only below a number, `y` stores the number that the dialog
shows, and that number is the one of the key stored for the peer. -/
theorem confirm_stores_shown (run : ScreenRun S V texts parses Screen.Undisturbed screen)
    {entries : List ChatEntry} (hmodal : screen.modal = some (.verification entries))
    (hguard : screen.Undisturbed (.press .confirm false)) :
    ∃ target number, screen.app.targetUser = some target ∧ Shows entries number ∧
      screen.currentNumber S V target number ∧
      (screen.press S V .confirm false).verification target = some number ∧
      (screen.press S V .confirm false).storedKey target = screen.storedKey target := by
  obtain ⟨target, htarget, hother, hshown⟩ := run.current entries hmodal
  obtain ⟨shown, hsome⟩ := hguard entries hmodal
  rcases hshown with hnone | ⟨number, ⟨db, hdb, hresolve⟩, hshows⟩
  · exact absurd hsome (hnone shown)
  · refine ⟨target, number, htarget, hshows, ⟨db, hdb, hresolve⟩, ?_⟩
    obtain ⟨hverified, hkey, -⟩ := press_confirm hmodal htarget hother ⟨db, hdb, hresolve⟩
    exact ⟨hverified, hkey⟩

/-! ## A key that arrives behind the dialog -/

/-- A hash that only sees the second byte of its input, the first one of a key. -/
def flatSha512 : Sha512 := fun bytes => List.Vector.replicate 64 (bytes.getD 1 0)

def flatVerifier : Verifier := ⟨flatSha512, fun _ => "Invalid padding"⟩

theorem iteratedDigest_flat (userId : String) (n : UInt8) :
    iteratedDigest flatSha512 userId (key32 n) = List.Vector.replicate 64 n :=
  Function.iterate_fixed rfl _

/-- Bob's key is known, and there is no session with Bob. -/
def bobKnown : Screen Term Key32 Ciphertext where
  app := App.new alice (newManager (key32 1)) []
  db := some ⟨(∅ : HMap UserId (B64Text Bytes)).insert bob (b64Encode (key32 9).toList), ∅⟩
  identityWarnings := ∅
  modal := none

def numberOf (n : UInt8) : String :=
  (Fingerprint.compute flatSha512 "alice" (key32 1) "bob" (key32 n)).displayGrouped

theorem numberRows_nine :
    numberRows (numberOf 9) = [.status "  10305 10305 10305 10305",
      .status "  10305 10305 92745 92745", .status "  92745 92745 92745 92745"] := by
  unfold numberOf Fingerprint.compute iteratedHash
  simp only [iteratedDigest_flat]
  decide

theorem numberRows_thirteen :
    numberRows (numberOf 13) = [.status "  10305 10305 10305 10305",
      .status "  10305 10305 33965 33965", .status "  33965 33965 33965 33965"] := by
  unfold numberOf Fingerprint.compute iteratedHash
  simp only [iteratedDigest_flat]
  decide

/-- Alice opens the conversation and the dialog. -/
def dialogOpen : Screen Term Key32 Ciphertext :=
  (bobKnown.step symbolicIdentity flatVerifier (fun _ => []) (fun _ => true)
    (.app (.openConversation bob ⟨⟨1⟩, false⟩) fun _ => false)).step symbolicIdentity flatVerifier
      (fun _ => []) (fun _ => true) (.press .view false)

theorem dialogOpen_run {guard : Screen Term Key32 Ciphertext → ScreenEvent Key32 Ciphertext → Prop}
    (hguard : ∀ screen e, screen.modal = none → guard screen e) :
    ScreenRun symbolicIdentity flatVerifier (fun _ => []) (fun _ => true) guard dialogOpen :=
  .event (.event (.start bobKnown (.start alice (key32 1) 0 0 0 (newManager (key32 1)) rfl) rfl) _
    (hguard _ _ rfl)) _ (hguard _ _ rfl)

def shownEntries : List ChatEntry :=
  .status "safety number with bob:" :: (numberRows (numberOf 9) ++
    [.status "compare this number with your contact out-of-band to verify E2EE",
      .status "not yet verified — press y after comparing numbers"])

theorem dialogOpen_modal : dialogOpen.modal = some (.verification shownEntries) := rfl

theorem shownEntries_shows : Shows shownEntries (numberOf 9) := ⟨_, _, rfl⟩

theorem confirm_stores_shown_bob :
    ∃ screen : Screen Term Key32 Ciphertext,
      ScreenRun symbolicIdentity flatVerifier (fun _ => [])
        (fun _ => true) Screen.Undisturbed screen ∧
      ∃ entries number, screen.modal = some (.verification entries) ∧ Shows entries number ∧
        (screen.press symbolicIdentity flatVerifier .confirm false).verification bob =
          some number := by
  have run : ScreenRun symbolicIdentity flatVerifier (fun _ => []) (fun _ => true)
      Screen.Undisturbed dialogOpen := dialogOpen_run fun screen e hmodal => by
    have hclosed : ∀ entries, screen.modal ≠ some (.verification entries) := by simp [hmodal]
    cases e with
    | press p fails =>
      cases p <;> first | trivial | exact fun entries h => absurd h (hclosed entries)
    | app e trackFails => exact fun entries target h => absurd h (hclosed entries)
  obtain ⟨target, number, htarget, hshows, -, hstored, -⟩ :=
    confirm_stores_shown run dialogOpen_modal fun entries hmodal => by
      cases hmodal
      exact ⟨_, shownEntries_shows⟩
  have hbob : target = bob := Option.some.inj (htarget.symm.trans rfl)
  rw [hbob] at hstored
  exact ⟨_, run, _, number, dialogOpen_modal, hshows, hstored⟩

/-- A bundle with another identity key of Bob arrives. -/
def keyChanged : Screen Term Key32 Ciphertext :=
  dialogOpen.step symbolicIdentity flatVerifier (fun _ => []) (fun _ => true)
    (.app (.preKeyBundleResponse bob
      (publishedBundle symbolicIdentity (key32 13)
        (SignedPreKey.generate symbolicIdentity 1 (key32 13) (key32 8)) none)
      (key32 2) (key32 3) 0 false) fun _ => false)

/-- The number of the new key is not the one in the dialog. -/
theorem shownEntries_not_shows : ¬ Shows shownEntries (numberOf 13) := by
  rintro ⟨header, rest, heq⟩
  have hrows := (List.cons.inj heq).2
  rw [numberRows_nine, numberRows_thirteen] at hrows
  have hrow := (List.cons.inj (List.cons.inj hrows).2).1
  revert hrow
  decide

/-- With the key changed behind the dialog, `y` marks the new key as verified, takes the warning
away, and the number it stores was never shown. -/
theorem confirm_stores_unseen :
    ∃ (screen : Screen Term Key32 Ciphertext) (entries : List ChatEntry) (shown stored : String),
      ScreenRun symbolicIdentity flatVerifier (fun _ => []) (fun _ => true)
        (fun _ _ => True) screen ∧
      screen.modal = some (.verification entries) ∧ Shows entries shown ∧
      (screen.identityWarnings.lookup bob).isSome = true ∧
      (screen.press symbolicIdentity flatVerifier .confirm false).verification bob = some stored ∧
      (screen.press symbolicIdentity flatVerifier .confirm false).identityWarnings.lookup
        bob = none ∧
      ¬ Shows entries stored := by
  have run : ScreenRun symbolicIdentity flatVerifier (fun _ => []) (fun _ => true) (fun _ _ => True)
      keyChanged := .event (dialogOpen_run fun _ _ _ => trivial) _ trivial
  have hmodal : keyChanged.modal = some (.verification shownEntries) := rfl
  have hcurrent : keyChanged.currentNumber symbolicIdentity flatVerifier bob (numberOf 13) :=
    ⟨_, rfl, rfl⟩
  obtain ⟨hverified, -, hwarnings⟩ := press_confirm hmodal rfl (by decide) hcurrent
  refine ⟨keyChanged, shownEntries, numberOf 9, numberOf 13, run, hmodal, shownEntries_shows, rfl,
    hverified, ?_, shownEntries_not_shows⟩
  rw [hwarnings]
  exact Finmap.lookup_erase _ _

end Cmp.Client
