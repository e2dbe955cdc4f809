import Cmp.Client.App
import Cmp.Crypto.Fingerprint

/-! Identity keys of peers and their verification: `verification.rs` and the tables
`peer_identity_keys` and `verified_contacts` of `db.rs`. A statement that SQLite refuses is an
argument. -/

namespace Cmp.Client

open Cmp.Crypto Cmp.Protocol Cmp.Lib

inductive ChatEntry
  | sent (text : String)
  | received (sender text : String)
  | status (text : String)
  | warning (text : String)
  deriving DecidableEq

structure Contacts where
  identityKeys : HMap UserId (B64Text Bytes)
  verified : HMap UserId String

inductive IdentityKeyStatus
  | new
  | unchanged
  | changed
  deriving DecidableEq

/-- A changed key takes the verification with it. -/
def storePeerIdentityKey (peerId : UserId) (identityKey : B64Text Bytes) (db : Contacts) :
    Contacts × IdentityKeyStatus :=
  match db.identityKeys.lookup peerId with
  | some stored =>
    if stored = identityKey then (db, .unchanged)
    else
      (⟨db.identityKeys.insert peerId identityKey, db.verified.erase peerId⟩, .changed)
  | none => ({ db with identityKeys := db.identityKeys.insert peerId identityKey }, .new)

/-- What the safety number takes from its libraries: the hash, and the text of the error of a
text that is not base64. -/
structure Verifier where
  sha512 : Sha512
  decodeError : B64Text Bytes → String

inductive IdentityKeyError
  | decode (b64 : B64Text Bytes)
  | length

def IdentityKeyError.text (V : Verifier) : IdentityKeyError → String
  | .decode b64 => V.decodeError b64
  | .length => "identity key must be 32 bytes"

def decodeIdentityKey (b64 : B64Text Bytes) : Except IdentityKeyError Key32 :=
  match b64.decoded with
  | none => .error (.decode b64)
  | some bytes => if h : bytes.length = 32 then .ok ⟨bytes, h⟩ else .error .length

/-- Stores a peer's key, with a warning if it changed. -/
def checkPeerIdentity (peerId : UserId) (identityKey : B64Text Bytes) (fails : Bool)
    (db : Contacts) : Contacts × Option String :=
  match decodeIdentityKey identityKey with
  | .error _ => (db, none)
  | .ok _ =>
    if fails then (db, none)
    else
      match storePeerIdentityKey peerId identityKey db with
      | (db', .changed) =>
        (db', some ("security alert: " ++ peerId.text ++ "'s identity key has changed! " ++
          "Previous verification is no longer valid. " ++
          "Open verification to see the new safety number."))
      | (db', _) => (db', none)

/-- The safety number with a peer, from the key that is stored now. -/
def resolveSafetyNumber (V : Verifier) (localUserId : UserId) (localKey : B64Text Bytes)
    (peerId : UserId) (db : Contacts) : Except ChatEntry String :=
  match db.identityKeys.lookup peerId with
  | none =>
    .error (.status ("no identity key stored for " ++ peerId.text ++
      " — send or receive a message first"))
  | some peerKey =>
    match decodeIdentityKey localKey, decodeIdentityKey peerKey with
    | .error e, _ => .error (.status ("failed to compute safety number: " ++ e.text V))
    | .ok _, .error e => .error (.status ("failed to compute safety number: " ++ e.text V))
    | .ok own, .ok peer =>
      .ok (Fingerprint.compute V.sha512 localUserId.text own peerId.text peer).displayGrouped

/-- `slice::chunks(4)`. -/
def chunks4 {α : Type} : List α → List (List α)
  | a :: b :: c :: d :: rest => [a, b, c, d] :: chunks4 rest
  | [] => []
  | short => [short]

/-- The number in rows of four groups. -/
def numberRows (number : String) : List ChatEntry :=
  (chunks4 ((number.toList.splitOn ' ').map String.ofList)).map fun row =>
    .status ("  " ++ " ".intercalate row)

def formatVerifyOutput (V : Verifier) (localUserId : UserId) (localKey : B64Text Bytes)
    (peerId : UserId) : Option Contacts → List ChatEntry
  | none => [.status "database unavailable"]
  | some db =>
    match resolveSafetyNumber V localUserId localKey peerId db with
    | .error entry => [entry]
    | .ok number =>
      .status ("safety number with " ++ peerId.text ++ ":") :: (numberRows number ++
        [.status "compare this number with your contact out-of-band to verify E2EE",
          match db.verified.lookup peerId with
          | some stored =>
            if stored = number then .status "✅ this contact is verified"
            else .warning "stored verification is outdated — key has changed since verification"
          | none => .status "not yet verified — press y after comparing numbers"])

def confirmVerification (V : Verifier) (localUserId : UserId) (localKey : B64Text Bytes)
    (peerId : UserId) (fails : Bool) (db : Contacts) : Contacts × List ChatEntry :=
  match resolveSafetyNumber V localUserId localKey peerId db with
  | .error entry => (db, [entry])
  | .ok number =>
    if fails then (db, [.status "failed to store verification"])
    else
      ({ db with verified := db.verified.insert peerId number },
        [.status ("✅ " ++ peerId.text ++ " marked as verified")])

def clearVerification (peerId : UserId) (fails : Bool) :
    Option Contacts → Option Contacts × List ChatEntry
  | none => (none, [.status "database unavailable"])
  | some db =>
    if fails then (some db, [.status "failed to clear verification"])
    else
      (some { db with verified := db.verified.erase peerId },
        [.status ("verification cleared for " ++ peerId.text)])

inductive VerificationAction
  | view
  | confirm
  | clear
  deriving DecidableEq

def handleAction (V : Verifier) (localUserId : UserId) (localKey : B64Text Bytes)
    (peerId : UserId) (fails : Bool) (db : Option Contacts) :
    VerificationAction → Option Contacts × List ChatEntry
  | .clear => clearVerification peerId fails db
  | .confirm =>
    match db with
    | none => (none, [.status "database unavailable"])
    | some db =>
      let (db', entries) := confirmVerification V localUserId localKey peerId fails db
      (some db', entries)
  | .view => (db, formatVerifyOutput V localUserId localKey peerId db)

/-! ## What a dialog shows -/

/-- A dialog with the rows of a number below its first line. -/
def Shows (entries : List ChatEntry) (number : String) : Prop :=
  ∃ header rest, entries = header :: (numberRows number ++ rest)

theorem chunks4_ne_nil {α : Type} {l : List α} (h : l ≠ []) : chunks4 l ≠ [] := by
  match l with
  | [] => exact absurd rfl h
  | [_] => exact List.cons_ne_nil _ _
  | [_, _] => exact List.cons_ne_nil _ _
  | [_, _, _] => exact List.cons_ne_nil _ _
  | _ :: _ :: _ :: _ :: _ => exact List.cons_ne_nil _ _

theorem numberRows_ne_nil (number : String) : numberRows number ≠ [] := by
  have hgroups : (number.toList.splitOn ' ').map String.ofList ≠ [] := by
    rw [Ne, List.map_eq_nil_iff]
    exact List.splitOn_ne_nil _ _
  rw [numberRows, Ne, List.map_eq_nil_iff]
  exact chunks4_ne_nil hgroups

/-- A line alone is no number. -/
theorem not_shows_singleton (entry : ChatEntry) (number : String) : ¬ Shows [entry] number := by
  rintro ⟨header, rest, heq⟩
  obtain ⟨-, hrows⟩ := List.cons.inj heq
  exact numberRows_ne_nil number (List.append_eq_nil_iff.mp hrows.symm).1

/-- What `view` shows: the number of the stored key, or a single line. -/
theorem formatVerifyOutput_shows (V : Verifier) (localUserId : UserId) (localKey : B64Text Bytes)
    (peerId : UserId) (db : Option Contacts) :
    (∃ entry, formatVerifyOutput V localUserId localKey peerId db = [entry]) ∨
    ∃ contacts number, db = some contacts ∧
      resolveSafetyNumber V localUserId localKey peerId contacts = .ok number ∧
      Shows (formatVerifyOutput V localUserId localKey peerId db) number := by
  cases db with
  | none => exact .inl ⟨_, rfl⟩
  | some contacts =>
    cases hresolve : resolveSafetyNumber V localUserId localKey peerId contacts with
    | error entry =>
      refine .inl ⟨entry, ?_⟩
      simp only [formatVerifyOutput, hresolve]
    | ok number =>
      refine .inr ⟨contacts, number, rfl, hresolve, ?_⟩
      simp only [formatVerifyOutput, hresolve]
      exact ⟨_, _, rfl⟩

/-- The answer to `confirm` and `clear` is a single line. -/
theorem handleAction_singleton (V : Verifier) (localUserId : UserId) (localKey : B64Text Bytes)
    (peerId : UserId) (fails : Bool) (db : Option Contacts) {action : VerificationAction}
    (haction : action ≠ .view) :
    ∃ entry, (handleAction V localUserId localKey peerId fails db action).2 = [entry] := by
  cases action with
  | view => exact absurd rfl haction
  | clear =>
    unfold handleAction clearVerification
    cases db with
    | none => exact ⟨_, rfl⟩
    | some db => cases fails <;> exact ⟨_, rfl⟩
  | confirm =>
    cases db with
    | none => exact ⟨_, rfl⟩
    | some db =>
      simp only [handleAction, confirmVerification]
      split
      · exact ⟨_, rfl⟩
      · cases fails <;> exact ⟨_, rfl⟩

/-! ## Which keys a table has -/

/-- A number depends on the stored key alone. -/
theorem resolveSafetyNumber_congr {V : Verifier} {localUserId : UserId}
    {localKey : B64Text Bytes} {peerId : UserId} {db db' : Contacts}
    (h : db'.identityKeys.lookup peerId = db.identityKeys.lookup peerId) :
    resolveSafetyNumber V localUserId localKey peerId db' =
      resolveSafetyNumber V localUserId localKey peerId db := by
  unfold resolveSafetyNumber
  rw [h]

theorem storePeerIdentityKey_lookup (other peerId : UserId) (identityKey : B64Text Bytes)
    (db : Contacts) :
    (storePeerIdentityKey other identityKey db).1.identityKeys.lookup peerId =
      if peerId = other then some identityKey else db.identityKeys.lookup peerId := by
  unfold storePeerIdentityKey
  split
  · next stored hstored =>
    split
    · next heq =>
      split
      · next hpeer => rw [hpeer, hstored, heq]
      · rfl
    · exact HMap.lookup_insert_eq _ _ _ _
  · exact HMap.lookup_insert_eq _ _ _ _

/-- Two users who have stored each other's identity key read the same safety number. -/
theorem safety_numbers_agree (V : Verifier) (userA userB : UserId) (keyA keyB : B64Text Bytes)
    (dbA dbB : Contacts) (number : String) :
    resolveSafetyNumber V userA keyA userB (storePeerIdentityKey userB keyB dbA).1 =
        .ok number ↔
      resolveSafetyNumber V userB keyB userA (storePeerIdentityKey userA keyA dbB).1 =
        .ok number := by
  simp only [resolveSafetyNumber, storePeerIdentityKey_lookup, if_true]
  cases decodeIdentityKey keyA <;> cases decodeIdentityKey keyB <;> simp [Fingerprint.compute_comm]

theorem checkPeerIdentity_identityKeys (peerId : UserId) (identityKey : B64Text Bytes)
    (fails : Bool) (db : Contacts) :
    (checkPeerIdentity peerId identityKey fails db).1 = db ∨
      (checkPeerIdentity peerId identityKey fails db).1 =
        (storePeerIdentityKey peerId identityKey db).1 := by
  unfold checkPeerIdentity
  cases decodeIdentityKey identityKey with
  | error e => exact .inl rfl
  | ok key =>
    cases fails with
    | true => exact .inl rfl
    | false =>
      refine .inr ?_
      obtain ⟨db', status⟩ := storePeerIdentityKey peerId identityKey db
      cases status <;> rfl

/-- Storing a key of another peer, or the key that is there, changes nothing for a peer. -/
theorem checkPeerIdentity_lookup {peerId other : UserId} {identityKey : B64Text Bytes}
    {db : Contacts} (fails : Bool)
    (h : other = peerId → db.identityKeys.lookup peerId = some identityKey) :
    (checkPeerIdentity other identityKey fails db).1.identityKeys.lookup peerId =
      db.identityKeys.lookup peerId := by
  rcases checkPeerIdentity_identityKeys other identityKey fails db with hsame | hstore
  · rw [hsame]
  · rw [hstore, storePeerIdentityKey_lookup]
    split
    · next hpeer => exact (h hpeer.symm).symm
    · rfl

end Cmp.Client
