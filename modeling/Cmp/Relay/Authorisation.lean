import Cmp.Relay.Reservations
import Cmp.Relay.Sending

/-! What a user's messages can do to the rows of other users. Every statement of SQL that
names an id chosen by the client also names the user of the connection, and each
transaction is gone through once to see that it does. -/

namespace Cmp.Relay

open Cmp.Crypto Cmp.Protocol Cmp.Lib

variable {K Sec C D κ : Type}

/-- The frame of a message of `userId` that is handled at `now`. -/
structure Authorised (userId : UserId) (message : SessionMessage C) (now : Nat)
    (db db' : Db C D) : Prop where
  users : db'.users = db.users
  signedPrekeys : ∀ row, row.userId ≠ userId → (row ∈ db'.signedPrekeys ↔ row ∈ db.signedPrekeys)
  inventory : ∀ row, row.userId ≠ userId → (row ∈ db'.prekeyInventory ↔ row ∈ db.prekeyInventory)
  queueKept : ∀ row ∈ db.messageQueue, row.recipientId ≠ userId → row ∈ db'.messageQueue
  queueAdded : ∀ row ∈ db'.messageQueue, row ∉ db.messageQueue → row.senderId = userId
  acceptances : ∀ row ∈ db.messageAcceptances, row.senderId ≠ userId → row ∈ db'.messageAcceptances
  receipts : ∀ row, row.recipientId ≠ userId → row.senderId ≠ userId →
    (row ∈ db'.readReceiptQueue ↔ row ∈ db.readReceiptQueue)
  /-- At most one row goes besides those that have expired. -/
  prekeys : ∃ taken : Option PrekeyRow, ∀ row ∈ db.prekeys, row.userId ≠ userId →
    row ∉ db'.prekeys → row.createdAt < now - ONE_TIME_PREKEY_PUBLIC_RETENTION_SECS ∨
      taken = some row ∧ message = .request (.fetchPreKeyBundle row.userId)
  reservations : ∀ row ∈ db.prekeyReservations, row.requesterId ≠ userId →
    row ∉ db'.prekeyReservations → row.expiresAt < now

variable {db' : Db C D}

namespace Authorised

variable {userId : UserId} {message : SessionMessage C} {now : Nat} {db : Db C D}

theorem refl : Authorised userId message now db db where
  users := rfl
  signedPrekeys _ _ := Iff.rfl
  inventory _ _ := Iff.rfl
  queueKept _ hrow _ := hrow
  queueAdded _ hrow hnew := absurd hrow hnew
  acceptances _ hrow _ := hrow
  receipts _ _ _ := Iff.rfl
  prekeys := ⟨none, fun _ hrow _ hgone => absurd hrow hgone⟩
  reservations _ hrow _ hgone := absurd hrow hgone

/-! ## Keys -/

theorem upload {prekeys : Batch} {maxPrekeysPerUser unixepoch : Nat} {createdAt : UInt32 → Nat}
    {result : UploadResult}
    (h : Uploaded userId prekeys maxPrekeysPerUser unixepoch createdAt db result db') :
    Authorised userId message now db db' := by
  cases h with
  | known | invalid | full => exact refl
  | stored inventory hinventory maximum =>
    -- the outdated rows and the inventory that are touched are the user's own
    have hkept : ∀ row ∈ db.prekeys, row.userId ≠ userId →
        row ∈ (uploaded userId prekeys unixepoch createdAt maximum db).prekeys := by
      intro row hrow hne
      refine Table.mem_insertAllOrIgnore_of_mem (Table.mem_deleteWhere.mpr ⟨hrow, ?_⟩)
      exact decide_eq_false fun hown => hne hown.1
    refine
      { (refl : Authorised userId message now db db) with
        inventory := fun row hne =>
          Table.mem_update_of_fixed (f := fun row : InventoryRow => ⟨row.userId, maximum⟩)
            (fun _ => rfl) ?_
        prekeys := ⟨none, fun row hrow hne hgone => absurd (hkept row hrow hne) hgone⟩ }
    rintro other hown (rfl | rfl)
    · exact absurd hown hne
    · exact absurd hown hne

theorem rotate {keyId : UInt32} {publicKey signature : Bytes} {result : SignedPreKeyRotationResult}
    (h : Rotated userId keyId publicKey signature db result db') :
    Authorised userId message now db db' := by
  cases h with
  | current | previous | conflict | outdated => exact refl
  | stored currentId hcurrent hlt inserted hinserted =>
    refine
      { (refl : Authorised userId message now db db) with signedPrekeys := fun row hne => ?_ }
    have hkept : isSuperseded userId inserted row = false := decide_eq_false fun hown => hne hown.1
    constructor
    · intro hrow
      refine ((Table.mem_insert hinserted).mp (Table.mem_deleteWhere.mp hrow).1).resolve_right ?_
      rintro rfl
      exact hne rfl
    · intro hrow
      exact Table.mem_deleteWhere.mpr ⟨(Table.mem_insert hinserted).mpr (.inl hrow), hkept⟩

/-- A fetch takes expired rows of the target, one row more, and expired reservations. -/
theorem fetch {targetId : UserId} {limits : FetchLimits} {choice : Nat}
    {result : Except DbError (FetchResult × Db C D)} {answer : FetchResult}
    (h : Fetched userId targetId now limits choice db result) (hok : result = .ok (answer, db')) :
    Authorised userId (.request (.fetchPreKeyBundle targetId)) now db db' := by
  have hexpired : ∀ row ∈ db.prekeys, row ∉ currentPrekeys targetId now db →
      row.userId = targetId ∧ row.createdAt < now - ONE_TIME_PREKEY_PUBLIC_RETENTION_SECS := by
    intro row hrow hgone
    by_contra hvalid
    exact hgone (Table.mem_deleteWhere.mpr ⟨hrow, decide_eq_false hvalid⟩)
  have hswept : ∀ row ∈ db.prekeyReservations,
      row ∉ (swept targetId now limits db).prekeyReservations → row.expiresAt < now := by
    intro row hrow hgone
    by_contra hvalid
    exact hgone (Table.mem_deleteWhere.mpr ⟨hrow, decide_eq_false hvalid⟩)
  cases h with
  | refused result =>
    cases hok
    exact refl
  | empty =>
    cases hok
    refine
      { (refl : Authorised userId (.request (.fetchPreKeyBundle targetId)) now db db) with
        prekeys := ⟨none, fun row hrow _ hgone => .inl (hexpired row hrow hgone).2⟩
        reservations := fun row hrow _ hgone => hswept row hrow hgone }
  | taken => cases hok
  | fetched prekey hprekey huser reserved hreserved =>
    cases hok
    refine
      { (refl : Authorised userId (.request (.fetchPreKeyBundle targetId)) now db db) with
        prekeys := ⟨some prekey, fun row hrow _ hgone => ?_⟩
        reservations := fun row hrow _ hgone => ?_ }
    · by_cases hcurrent : row ∈ currentPrekeys targetId now db
      · right
        have hrow : row = prekey := by
          by_contra hne
          exact hgone (Table.mem_deleteWhere.mpr ⟨hcurrent, decide_eq_false hne⟩)
        rw [hrow, huser]
        exact ⟨rfl, rfl⟩
      · exact .inl (hexpired row hrow hcurrent).2
    · refine hswept row hrow fun hkept => hgone ?_
      exact (Table.mem_insert hreserved).mpr (.inl hkept)

/-! ## Messages -/

theorem enqueue [DecidableEq D] {digest : EncryptedEnvelope C → D} {request : EnqueueRequest C}
    {createdAt : Nat} {result : EnqueueResult} (hsender : request.senderId = userId)
    (hnow : request.now = now) (h : Enqueued digest request createdAt db result db') :
    Authorised userId message now db db' := by
  -- the reservations that go are expired, or claimed by the sender
  have hclaimed : ∀ row ∈ db.prekeyReservations, row.requesterId ≠ userId →
      row ∉ (request.claimed db).prekeyReservations → row.expiresAt < now := by
    intro row hrow hne hgone
    by_contra hvalid
    have hunexpired : row ∈ db.prekeyReservations.deleteWhere
        fun row => decide (row.expiresAt < request.now) :=
      Table.mem_deleteWhere.mpr ⟨hrow, decide_eq_false (hnow ▸ hvalid)⟩
    apply hgone
    unfold EnqueueRequest.claimed
    cases hone : request.oneTimePrekeyId with
    | none => exact hunexpired
    | some keyId =>
      refine Table.mem_deleteWhere.mpr ⟨hunexpired, decide_eq_false fun hclaims => ?_⟩
      exact hne (hclaims.1.trans hsender)
  cases h with
  | refused | known => exact refl
  | inserted queue acceptances _ _ hqueue haccepted =>
    refine
      { (refl : Authorised userId message now db db) with
        queueKept := fun row hrow _ => (Table.mem_insert hqueue).mpr (.inl hrow)
        queueAdded := fun row hrow hnew => ?_
        acceptances := fun row hrow _ => (Table.mem_insert haccepted).mpr (.inl hrow)
        reservations := hclaimed }
    rw [((Table.mem_insert hqueue).mp hrow).resolve_left hnew]
    exact hsender
  | ignored acceptances _ _ _ haccepted =>
    exact
      { (refl : Authorised userId message now db db) with
        acceptances := fun row hrow _ => (Table.mem_insert haccepted).mpr (.inl hrow)
        reservations := hclaimed }

theorem confirm (messageIds : List MessageId) :
    Authorised userId message now db (confirmAcceptances userId messageIds db) :=
  { (refl : Authorised userId message now db db) with
    acceptances := fun _ hrow hne =>
      Table.mem_deleteWhere.mpr ⟨hrow, decide_eq_false fun hconfirms => hne hconfirms.1⟩ }

theorem ack (messageIds : List MessageId) :
    Authorised userId message now db (deleteMessages userId messageIds db) :=
  { (refl : Authorised userId message now db db) with
    queueKept := fun _ hrow hne =>
      Table.mem_deleteWhere.mpr ⟨hrow, decide_eq_false fun hacks => hne hacks.2⟩
    queueAdded := fun _ hrow hnew => absurd (Table.mem_deleteWhere.mp hrow).1 hnew }

/-! ## Read receipts -/

theorem receipt {receiptId : MessageId} {recipientId : UserId} {envelope : EncryptedEnvelope C}
    {maxQueuePerUser : Nat} {result : ReceiptResult} {db' : Db C D}
    (h : enqueueReceipt receiptId recipientId userId envelope maxQueuePerUser db =
      .ok (result, db')) : Authorised userId message now db db' := by
  rcases enqueueReceipt_cases h with ⟨-, rfl⟩ | ⟨-, queue, hqueue, rfl⟩
  · exact refl
  · refine
      { (refl : Authorised userId message now db db) with receipts := fun row _ hne => ?_ }
    refine (Table.mem_insert hqueue).trans (or_iff_left ?_)
    rintro rfl
    exact hne rfl

/-- An acknowledgement alters receipts of the user only. -/
theorem mem_acknowledge {row : ReceiptRow C} (hne : row.recipientId ≠ userId) :
    ∀ (receiptIds : List MessageId) (db : Db C D),
      row ∈ (acknowledge userId receiptIds db).2.readReceiptQueue ↔ row ∈ db.readReceiptQueue := by
  have hone : ∀ (receiptId : MessageId) (db : Db C D),
      row ∈ (acknowledgeOne userId receiptId db).readReceiptQueue ↔ row ∈ db.readReceiptQueue := by
    intro receiptId db
    refine Table.mem_update_of_fixed (fun row => by split <;> rfl) fun other _ hother =>
      if_neg fun hown => ?_
    rcases hother with hother | rfl
    · rw [if_pos hown] at hother
      exact hne (hother ▸ hown)
    · exact hne hown
  intro receiptIds
  induction receiptIds with
  | nil => intro db; exact Iff.rfl
  | cons receiptId rest ih =>
    intro db
    unfold acknowledge
    split
    · exact (ih _).trans (hone receiptId db)
    · exact ih db

theorem ackReceipts (receiptIds : List MessageId) :
    Authorised userId message now db (acknowledge userId receiptIds db).2 := by
  have hreceipts : ∀ row, row.recipientId ≠ userId → row.senderId ≠ userId →
      (row ∈ (acknowledge userId receiptIds db).2.readReceiptQueue ↔ row ∈ db.readReceiptQueue) :=
    fun row hne _ => mem_acknowledge hne receiptIds db
  obtain ⟨queue, hqueue⟩ := acknowledge_receipts userId receiptIds db
  rw [hqueue] at hreceipts ⊢
  exact { (refl : Authorised userId message now db db) with receipts := hreceipts }

theorem confirmReceipts (receiptIds : List MessageId) :
    Authorised userId message now db (confirmSenderReceived userId receiptIds db) :=
  { (refl : Authorised userId message now db db) with
    receipts := fun row _ hne => Table.mem_deleteWhere.trans (and_iff_left (by
      rw [Bool.and_eq_false_iff]
      exact .inl (decide_eq_false fun hown => hne hown.2))) }

end Authorised

/-! ## Requests -/

theorem Transaction.map_ok {α : Type} {x : Except DbError (α × Db C D)} {f : α → Answer}
    {answer : Answer} (h : (x.map fun (r, db') => (f r, db')) = .ok (answer, db')) :
    ∃ r, x = .ok (r, db') := by
  cases x with
  | error => cases h
  | ok result =>
    cases h
    exact ⟨result.1, rfl⟩

section Requests

variable [DecidableEq D] {digest : EncryptedEnvelope C → D} {userId : UserId} {db : Db C D}

/-- A handler that answers at once, or whose transaction keeps to the frame. -/
theorem Handling.authorised {message : SessionMessage C} {now : Nat} (fails : Bool)
    {handling : Handling C}
    (h : ∀ t respond answer db', handling = .transact t respond →
      t.run digest db = .ok (answer, db') → Authorised userId message now db db') :
    Authorised userId message now db (handling.run digest fails db).2 := by
  cases handling with
  | reply => exact .refl
  | transact t respond =>
    cases fails with
    | true => exact .refl
    | false =>
      cases hrun : t.run digest db with
      | error =>
        simp only [Handling.run, Transaction.after, hrun]
        exact .refl
      | ok result =>
        simp only [Handling.run, Transaction.after, hrun]
        exact h t respond result.1 result.2 rfl hrun

/-- Each request keeps to the frame, whatever ids it names. -/
theorem handleMessage_authorised (S : IdentitySuite K Sec C)
    (pageLen : InboundMessage C → Nat → Nat) (env : RelayEnv) (fails : Bool)
    (message : ClientMessage C) :
    Authorised userId (.request message) env.now db
      ((handleMessage S pageLen userId env db message).run digest fails db).2 := by
  apply Handling.authorised fails
  intro t respond answer db' hhandling hrun
  have hserves := handleMessage_serves hhandling
  cases t with
  | uploadPrekeys =>
    obtain ⟨⟨rfl, -⟩, -⟩ := hserves
    obtain ⟨result, hresult⟩ := Transaction.map_ok hrun
    exact .upload (uploadPrekeys_cases hresult)
  | rotateSignedPrekey =>
    obtain ⟨rfl, -⟩ := hserves
    obtain ⟨result, hresult⟩ := Transaction.map_ok hrun
    exact .rotate (rotateSignedPrekey_cases hresult)
  | fetchForRequester requesterId targetId now limits choice =>
    obtain ⟨⟨rfl, rfl⟩, -, rfl⟩ := hserves
    obtain ⟨result, hresult⟩ := Transaction.map_ok hrun
    exact .fetch (fetchForRequester_cases requesterId targetId env.now limits choice db) hresult
  | enqueue request createdAt =>
    obtain ⟨recipientId, messageId, envelope, -, -, rfl⟩ := hserves
    obtain ⟨result, hresult⟩ := Transaction.map_ok hrun
    obtain ⟨result', db'', hcases, henqueued⟩ := enqueue_cases digest
      (sendRequest userId recipientId messageId envelope env.now) createdAt db
    cases hcases.symm.trans hresult
    exact .enqueue rfl rfl henqueued
  | enqueueReceipt =>
    obtain ⟨rfl, -⟩ := hserves
    obtain ⟨result, hresult⟩ := Transaction.map_ok hrun
    exact .receipt hresult
  | deleteMessages recipientId messageIds =>
    cases hserves.1
    cases hrun
    exact .ack messageIds
  | confirmAcceptances senderId messageIds =>
    cases hserves.1
    cases hrun
    exact .confirm messageIds
  | acknowledge recipientId receiptIds =>
    cases hserves.1
    cases hrun
    exact .ackReceipts receiptIds
  | confirmSenderReceived senderId receiptIds =>
    cases hserves.1
    cases hrun
    exact .confirmReceipts receiptIds
  | _ => exact hserves.elim

end Requests

/-! ## Sessions -/

section Sessions

variable [DecidableEq κ] [DecidableEq D] (R : Deployment K Sec C D)

/-- On a connection of `userId` no message, of whatever kind, reaches beyond what is the
user's own. -/
theorem session_authorised (s : Server κ C D) (conn : κ) {userId : UserId}
    (huser : (s.session conn).authedUser = some userId) (message : SessionMessage C)
    (env : SessionEnv) :
    Authorised userId message env.now s.db (s.handleMessage R conn message env).2.db := by
  have hauthed : (s.session conn).authedUser.isSome = true := huser ▸ rfl
  cases message with
  | register newUser bundle oneTimePrekeys =>
    simp only [Server.handleMessage, Server.handleRegister, if_pos hauthed]
    exact .refl
  | authChallenge newUser =>
    simp only [Server.handleMessage, Server.handleAuthChallenge, if_pos hauthed]
    exact .refl
  | authResponse signature =>
    simp only [Server.handleMessage, Server.handleAuthResponse, if_pos hauthed]
    exact .refl
  | typing recipientId =>
    simp only [Server.handleMessage, huser]
    rw [(Server.sendTo_sends (P := fun _ _ => True) fun _ _ => trivial).db]
    exact .refl
  | request message =>
    simp only [Server.handleMessage, huser, Server.handleRequest]
    rw [(Server.pushes_sends _ _ _ _ _).db]
    exact handleMessage_authorised R.suite (pageLen R.wire) env.toRelayEnv env.fails message

end Sessions

/-! ## A bundle that is fetched -/

/-- Texts that all look alike. -/
def sampleWire : Wire Ciphertext where
  envelopeJson _ := "envelope"
  parseEnvelope _ := none
  uuidText _ := "uuid"
  parseUuid _ := none
  datetime _ := "1970-01-01 00:01:40"

def sampleRelay : Deployment Term Key32 Ciphertext Unit :=
  ⟨symbolicIdentity, sampleWire, fun _ => (), "relay"⟩

def sampleSessionEnv : SessionEnv := ⟨sampleEnv, key32 5, 100, false⟩

/-- Alice's connection to the relay that Bob has registered with. -/
def aliceOnline : Server Unit Ciphertext Unit :=
  (Server.boot bobRegistered.2).login () alice true

set_option maxRecDepth 4000 in
theorem session_authorised_alice :
    (aliceOnline.handleMessage sampleRelay () (.request (.fetchPreKeyBundle bob))
      sampleSessionEnv).2.db.prekeys.rows = [] ∧
    Authorised alice (.request (.fetchPreKeyBundle bob)) 100 bobRegistered.2
      (aliceOnline.handleMessage sampleRelay () (.request (.fetchPreKeyBundle bob))
        sampleSessionEnv).2.db :=
  ⟨by decide, session_authorised sampleRelay aliceOnline () rfl _ sampleSessionEnv⟩

end Cmp.Relay
