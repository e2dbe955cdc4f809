import Cmp.Client.KeyUse
import Cmp.Client.Verification

/-! Which marks are current. A row of `verified_contacts` is written with the number of the key
that is stored, and a key that changes takes the row with it; so a row that is there always has
the number of the key that is there. -/

namespace Cmp.Client

open Cmp.Crypto Cmp.Protocol Cmp.Lib

/-- What writes to the two tables: a key that arrives, and an action in the dialog. -/
inductive ContactAction
  | checkPeerIdentity (peerId : UserId) (identityKey : B64Text Bytes) (fails : Bool)
  | handleAction (peerId : UserId) (fails : Bool) (action : VerificationAction)

/-- What follows a name in the list of conversations: the suffix of `render_conversations`. -/
def conversationSuffix (identityWarnings : HMap UserId String)
    (unreadMessages : HMap UserId (List MessageId)) (db : Option Contacts) (peer : UserId) :
    String :=
  let verified := (db.bind fun db => db.verified.lookup peer).isSome
  let unread := ((unreadMessages.lookup peer).map List.length).getD 0
  let warning := (identityWarnings.lookup peer).isSome
  match warning, verified, unread with
  | true, _, 0 => "  !"
  | true, _, count => "  ! " ++ toString count
  | false, true, 0 => "  ✓"
  | false, true, count => "  ✓ " ++ toString count
  | false, false, 0 => ""
  | false, false, count => "  " ++ toString count

section

variable (V : Verifier) (localUserId : UserId) (localKey : B64Text Bytes)

def ContactAction.run (db : Option Contacts) : ContactAction → Option Contacts
  | .checkPeerIdentity peerId identityKey fails =>
    db.map fun contacts => (Client.checkPeerIdentity peerId identityKey fails contacts).1
  | .handleAction peerId fails action =>
    (Client.handleAction V localUserId localKey peerId fails db action).1

/-- The tables of a client that has just been set up. -/
def Contacts.empty : Contacts := ⟨∅, ∅⟩

def ContactAction.runAll (actions : List ContactAction) (db : Option Contacts) : Option Contacts :=
  actions.foldl (fun db action => action.run V localUserId localKey db) db

/-- Every mark is the number of the key that is stored. -/
def Contacts.Current (db : Contacts) : Prop :=
  ∀ peerId fingerprint, db.verified.lookup peerId = some fingerprint →
    resolveSafetyNumber V localUserId localKey peerId db = .ok fingerprint

end

section

variable {V : Verifier} {localUserId : UserId} {localKey : B64Text Bytes} {db : Contacts}

theorem resolveSafetyNumber_eq_ok {peerId : UserId} {number : String} :
    resolveSafetyNumber V localUserId localKey peerId db = .ok number ↔
      ∃ peerKey own peer, db.identityKeys.lookup peerId = some peerKey ∧
        decodeIdentityKey localKey = .ok own ∧ decodeIdentityKey peerKey = .ok peer ∧
        number =
          (Fingerprint.compute V.sha512 localUserId.text own peerId.text peer).displayGrouped := by
  unfold resolveSafetyNumber
  cases db.identityKeys.lookup peerId with
  | none => simp
  | some peerKey =>
    cases decodeIdentityKey localKey with
    | error e => simp
    | ok own =>
      cases hpeer : decodeIdentityKey peerKey with
      | error e => simp [hpeer]
      | ok peer => simp [hpeer, eq_comm]

namespace Contacts.Current

theorem empty : Contacts.empty.Current V localUserId localKey := by
  intro peerId fingerprint h
  unfold Contacts.empty at h
  rw [Finmap.lookup_empty] at h
  cases h

/-- A table with the same key of a peer has the same number for it. -/
theorem of_lookup {db' : Contacts} (h : db.Current V localUserId localKey)
    (hkept : ∀ peerId fingerprint, db'.verified.lookup peerId = some fingerprint →
      db.verified.lookup peerId = some fingerprint ∧
        db'.identityKeys.lookup peerId = db.identityKeys.lookup peerId) :
    db'.Current V localUserId localKey := by
  intro peerId fingerprint hmark
  obtain ⟨hbefore, hkey⟩ := hkept peerId fingerprint hmark
  rw [resolveSafetyNumber_congr hkey]
  exact h peerId fingerprint hbefore

/-- A key that changes takes the mark with it, and a first key finds none. -/
theorem storePeerIdentityKey (h : db.Current V localUserId localKey) (peerId : UserId)
    (identityKey : B64Text Bytes) :
    (storePeerIdentityKey peerId identityKey db).1.Current V localUserId localKey := by
  refine h.of_lookup fun other fingerprint hmark => ?_
  rw [storePeerIdentityKey_lookup]
  unfold Client.storePeerIdentityKey at hmark
  split at hmark
  · next stored hstored =>
    split at hmark
    · next heq =>
      refine ⟨hmark, ?_⟩
      split
      · next hpeer => rw [hpeer, hstored, heq]
      · rfl
    · dsimp only at hmark
      rw [HMap.lookup_erase_eq] at hmark
      split at hmark
      · cases hmark
      · next hne => exact ⟨hmark, if_neg hne⟩
  · next hnone =>
    refine ⟨hmark, if_neg ?_⟩
    rintro rfl
    obtain ⟨peerKey, own, peer, hkey, -⟩ := resolveSafetyNumber_eq_ok.mp (h other fingerprint hmark)
    cases hnone.symm.trans hkey

theorem checkPeerIdentity (h : db.Current V localUserId localKey) (peerId : UserId)
    (identityKey : B64Text Bytes) (fails : Bool) :
    (checkPeerIdentity peerId identityKey fails db).1.Current V localUserId localKey := by
  rcases checkPeerIdentity_identityKeys peerId identityKey fails db with hsame | hstore
  · rw [hsame]
    exact h
  · rw [hstore]
    exact h.storePeerIdentityKey peerId identityKey

/-- A mark is set to the number that was just computed. -/
theorem confirmVerification (h : db.Current V localUserId localKey) (peerId : UserId)
    (fails : Bool) :
    (confirmVerification V localUserId localKey peerId fails db).1.Current V localUserId
      localKey := by
  unfold Client.confirmVerification
  split
  · exact h
  · next number hnumber =>
    split
    · exact h
    · intro other fingerprint hmark
      dsimp only at hmark
      rw [HMap.lookup_insert_eq] at hmark
      split at hmark
      · next heq =>
        cases hmark
        rw [heq]
        exact hnumber
      · exact h other fingerprint hmark

theorem clearVerification (h : db.Current V localUserId localKey) (peerId : UserId) :
    Contacts.Current V localUserId localKey
      { db with verified := db.verified.erase peerId } := by
  refine h.of_lookup fun other fingerprint hmark => ?_
  dsimp only at hmark
  rw [HMap.lookup_erase_eq] at hmark
  split at hmark
  · cases hmark
  · exact ⟨hmark, rfl⟩

/-- An action on a database leaves one, and its marks are current. -/
theorem run (h : db.Current V localUserId localKey) (action : ContactAction) :
    ∃ db', action.run V localUserId localKey (some db) = some db' ∧
      db'.Current V localUserId localKey := by
  cases action with
  | checkPeerIdentity peerId identityKey fails =>
    exact ⟨_, rfl, h.checkPeerIdentity peerId identityKey fails⟩
  | handleAction peerId fails action =>
    cases action with
    | view => exact ⟨db, rfl, h⟩
    | confirm => exact ⟨_, rfl, h.confirmVerification peerId fails⟩
    | clear =>
      cases fails with
      | true => exact ⟨db, rfl, h⟩
      | false => exact ⟨_, rfl, h.clearVerification peerId⟩

theorem runAll (h : db.Current V localUserId localKey) (actions : List ContactAction) :
    ∃ db', ContactAction.runAll V localUserId localKey actions (some db) = some db' ∧
      db'.Current V localUserId localKey := by
  induction actions generalizing db with
  | nil => exact ⟨db, rfl, h⟩
  | cons action actions ih =>
    obtain ⟨next, hnext, hcurrent⟩ := h.run action
    unfold ContactAction.runAll
    rw [List.foldl_cons, hnext]
    exact ih hcurrent

end Contacts.Current

end

/-! ## What a reader sees -/

/-- The line of a dialog whose mark is not the number of the stored key. -/
def outdatedEntry : ChatEntry :=
  .warning "stored verification is outdated — key has changed since verification"

def verifiedEntry : ChatEntry := .status "✅ this contact is verified"

theorem check_not_mem_toDigits (count : Nat) : '✓' ∉ Nat.toDigits 10 count := by
  intro hmem
  have hdigit := Nat.isDigit_of_mem_toDigits (by decide) (by decide) hmem
  exact absurd hdigit (by decide)

/-- The check stands only beside a name that has a row. -/
theorem conversationSuffix_check {identityWarnings : HMap UserId String}
    {unreadMessages : HMap UserId (List MessageId)} {db : Contacts} {peer : UserId}
    (h : '✓' ∈ (conversationSuffix identityWarnings unreadMessages (some db) peer).toList) :
    (db.verified.lookup peer).isSome = true := by
  unfold conversationSuffix at h
  rw [Option.bind_some] at h
  cases hverified : (db.verified.lookup peer).isSome with
  | true => rfl
  | false =>
    dsimp only at h
    rw [hverified] at h
    split at h <;> simp_all [check_not_mem_toDigits]

section

variable {V : Verifier} {localUserId : UserId} {localKey : B64Text Bytes} {db : Contacts}
  {peerId : UserId}

/-- The dialog of a peer with a mark that is current. -/
theorem formatVerifyOutput_verified {number : String}
    (hmark : db.verified.lookup peerId = some number)
    (hresolve : resolveSafetyNumber V localUserId localKey peerId db = .ok number) :
    formatVerifyOutput V localUserId localKey peerId (some db) =
      .status ("safety number with " ++ peerId.text ++ ":") :: (numberRows number ++
        [.status "compare this number with your contact out-of-band to verify E2EE",
          verifiedEntry]) := by
  unfold formatVerifyOutput
  simp only [hresolve, hmark, if_true, verifiedEntry]

theorem resolveSafetyNumber_error {entry : ChatEntry}
    (h : resolveSafetyNumber V localUserId localKey peerId db = .error entry) :
    ∃ text, entry = .status text := by
  unfold resolveSafetyNumber at h
  split at h
  · cases h
    exact ⟨_, rfl⟩
  · split at h <;> cases h <;> exact ⟨_, rfl⟩

theorem outdatedEntry_not_mem_numberRows (number : String) :
    outdatedEntry ∉ numberRows number := by
  intro hmem
  obtain ⟨row, -, heq⟩ := List.mem_map.mp hmem
  cases heq

/-- A dialog warns only of a mark that is not the number of the stored key. -/
theorem outdatedEntry_mem
    (h : outdatedEntry ∈ formatVerifyOutput V localUserId localKey peerId (some db)) :
    ∃ stored number, db.verified.lookup peerId = some stored ∧
      resolveSafetyNumber V localUserId localKey peerId db = .ok number ∧
      stored ≠ number := by
  unfold formatVerifyOutput at h
  dsimp only at h
  cases hresolve : resolveSafetyNumber V localUserId localKey peerId db with
  | error entry =>
    rw [hresolve] at h
    obtain ⟨text, rfl⟩ := resolveSafetyNumber_error hresolve
    cases List.mem_singleton.mp h
  | ok number =>
    rw [hresolve] at h
    rcases List.mem_cons.mp h with hheader | h
    · cases hheader
    rcases List.mem_append.mp h with hrow | h
    · exact absurd hrow (outdatedEntry_not_mem_numberRows number)
    rcases List.mem_cons.mp h with hcompare | h
    · cases hcompare
    -- the last line is the one that reads the mark
    have hlast := List.mem_singleton.mp h
    split at hlast
    · next stored hstored =>
      split at hlast
      · cases hlast
      · next hne => exact ⟨stored, number, hstored, rfl, hne⟩
    · cases hlast

end

/-- Whatever keys arrive, well formed or not, and whatever a user confirms and clears: a mark is
the safety number of the key that is stored for the peer. So no dialog finds one that is outdated,
and a check in the list of conversations stands for a contact that the dialog calls verified. -/
theorem verified_mark_current (V : Verifier) (localUserId : UserId) (localKey : B64Text Bytes)
    (actions : List ContactAction) :
    ∃ db, ContactAction.runAll V localUserId localKey actions (some Contacts.empty) = some db ∧
      (∀ peerId fingerprint, db.verified.lookup peerId = some fingerprint →
        ∃ peerKey own peer, db.identityKeys.lookup peerId = some peerKey ∧
          decodeIdentityKey localKey = .ok own ∧ decodeIdentityKey peerKey = .ok peer ∧
          fingerprint = (Fingerprint.compute V.sha512 localUserId.text own peerId.text
            peer).displayGrouped) ∧
      (∀ peerId,
        outdatedEntry ∉ formatVerifyOutput V localUserId localKey peerId (some db)) ∧
      ∀ identityWarnings unreadMessages peerId,
        '✓' ∈ (conversationSuffix identityWarnings unreadMessages (some db) peerId).toList →
          verifiedEntry ∈ formatVerifyOutput V localUserId localKey peerId (some db) := by
  have hempty : Contacts.empty.Current V localUserId localKey := Contacts.Current.empty
  obtain ⟨db, hrun, hcurrent⟩ := hempty.runAll actions
  refine ⟨db, hrun, ?_, ?_, ?_⟩
  · intro peerId fingerprint hmark
    exact resolveSafetyNumber_eq_ok.mp (hcurrent peerId fingerprint hmark)
  · intro peerId hmem
    obtain ⟨stored, number, hmark, hresolve, hne⟩ := outdatedEntry_mem hmem
    have hstored := hcurrent peerId stored hmark
    exact hne (Except.ok.inj (hstored.symm.trans hresolve))
  · intro identityWarnings unreadMessages peerId hcheck
    obtain ⟨fingerprint, hmark⟩ :=
      Option.isSome_iff_exists.mp (conversationSuffix_check hcheck)
    rw [formatVerifyOutput_verified hmark (hcurrent peerId fingerprint hmark)]
    simp

/-- The key of a peer arrives and the user confirms it. -/
def confirmBob : List ContactAction :=
  [.checkPeerIdentity bob (b64Encode (List.replicate 32 2)) false, .handleAction bob false .confirm]

def zeroVerifier : Verifier := ⟨fun _ => List.Vector.replicate 64 0, fun _ => "Invalid padding"⟩

theorem verified_mark_current_bob :
    ∃ db, ContactAction.runAll zeroVerifier alice
        (b64Encode (List.replicate 32 1)) confirmBob (some Contacts.empty) = some db ∧
      conversationSuffix ∅ ∅ (some db) bob = "  ✓" ∧
      verifiedEntry ∈ formatVerifyOutput zeroVerifier alice
        (b64Encode (List.replicate 32 1)) bob (some db) := by
  obtain ⟨db, hrun, -, -, hverified⟩ := verified_mark_current
    zeroVerifier alice (b64Encode (List.replicate 32 1)) confirmBob
  have hsuffix : conversationSuffix ∅ ∅ (some db) bob = "  ✓" := by
    rw [← hrun]
    rfl
  refine ⟨db, hrun, hsuffix, hverified ∅ ∅ bob ?_⟩
  rw [hsuffix]
  decide

end Cmp.Client
