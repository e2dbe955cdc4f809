import Cmp.Crypto.SymbolicIdentity
import Cmp.Relay.Issuance

/-! Admitted first messages. A message that names a one-time prekey claims a reservation
for it, and there is at most one per key; a read receipt with the same header does not. -/

namespace Cmp.Relay

open Cmp.Crypto Cmp.Protocol Cmp.Lib

variable {K Sec C D : Type}

/-! ## Runs of the handlers -/

/-- A transaction that a handler makes for a client, or the relay on its own. -/
inductive Relayed (S : IdentitySuite K Sec C) (pageLen : InboundMessage C → Nat → Nat)
    (db : Db C D) : Transaction C → Prop
  | message (userId : UserId) (env : RelayEnv) (message : ClientMessage C) (t : Transaction C)
      (respond : Option Answer → Option (ServerMessage C))
      (h : handleMessage S pageLen userId env db message = .transact t respond) :
      Relayed S pageLen db t
  | register (userId : UserId) (bundle : PreKeyBundle) (oneTimePrekeys : List PublicOneTimePreKey)
      (env : RelayEnv) (t : Transaction C) (respond : Option Answer → Option (ServerMessage C))
      (h : handleRegister S userId bundle oneTimePrekeys env = .transact t respond) :
      Relayed S pageLen db t
  | collect (maxAgeDays now : Nat) : Relayed S pageLen db (.gcOldMessages maxAgeDays now)
  | drop (recipientId : UserId) (rowId : Nat) :
      Relayed S pageLen db (.deleteInvalidRow recipientId rowId)
  | dropReceipt (recipientId : UserId) (receiptId : MessageId) :
      Relayed S pageLen db (.deleteInvalid recipientId receiptId)

/-- The prekeys a request names are those of its envelope. -/
def Transaction.NamesPrekeys : Transaction C → Prop
  | .enqueue request _ =>
    (request.signedPrekeyId, request.oneTimePrekeyId) = envelopePrekeyIds request.envelope.header
  | _ => True

/-- A read receipt does not come with the header of a first message. -/
def Transaction.KeylessReceipt : Transaction C → Prop
  | .enqueueReceipt _ _ _ envelope _ => envelope.header.isPreKey = false
  | _ => True

variable {t : Transaction C}

theorem Relayed.decoded {S : IdentitySuite K Sec C} {pageLen : InboundMessage C → Nat → Nat}
    {db : Db C D} (h : Relayed S pageLen db t) : t.Decoded := by
  cases h with
  | message userId env message t respond h =>
    exact (handleMessage_serves h).decoded
  | register userId bundle oneTimePrekeys env t respond h => exact (handleRegister_decoded h).1
  | collect | drop | dropReceipt => trivial

theorem Relayed.namesPrekeys {S : IdentitySuite K Sec C} {pageLen : InboundMessage C → Nat → Nat}
    {db : Db C D} (h : Relayed S pageLen db t) : t.NamesPrekeys := by
  cases h with
  | message userId env message t respond h =>
    have hserves := handleMessage_serves h
    cases t with
    | enqueue request createdAt =>
      obtain ⟨recipientId, messageId, envelope, -, -, rfl⟩ := hserves
      rfl
    | _ => trivial
  | register userId bundle oneTimePrekeys env t respond h =>
    obtain ⟨-, registration, createdAt, rfl⟩ := handleRegister_decoded h
    trivial
  | collect | drop | dropReceipt => trivial

/-! ## Admitted envelopes -/

/-- Sender, recipient and envelope that a transaction with this answer has put into one of
the two queues. -/
def admittedEnvelope : Transaction C → Option Answer →
    Option (UserId × UserId × EncryptedEnvelope C)
  | .enqueue request _, some (.enqueued .inserted) =>
    some (request.senderId, request.recipientId, request.envelope)
  | .enqueueReceipt _ recipientId senderId envelope _, some (.receiptQueued .inserted) =>
    some (senderId, recipientId, envelope)
  | _, _ => none

/-- The one-time prekey of an admitted envelope, with its owner. -/
def spentId (t : Transaction C) (answer : Option Answer) : Option (UserId × UInt32) :=
  (admittedEnvelope t answer).bind fun (_, recipientId, envelope) =>
    (envelopePrekeyIds envelope.header).2.map fun keyId => (recipientId, keyId)

variable [DecidableEq D] {digest : EncryptedEnvelope C → D}

def Entry.admitted (digest : EncryptedEnvelope C → D) (e : Entry C D) :
    Option (UserId × UserId × EncryptedEnvelope C) :=
  admittedEnvelope e.transaction (e.answer? digest)

def Entry.spent (digest : EncryptedEnvelope C → D) (e : Entry C D) : Option (UserId × UInt32) :=
  spentId e.transaction (e.answer? digest)

def spentIds (digest : EncryptedEnvelope C → D) (log : List (Entry C D)) :
    List (UserId × UInt32) :=
  log.filterMap (Entry.spent digest)

/-- The entry takes away an unexpired reservation that the sender holds for the key. -/
def Entry.ClaimsReservation (digest : EncryptedEnvelope C → D) (e : Entry C D)
    (senderId recipientId : UserId) (keyId : UInt32) : Prop :=
  ∃ request createdAt, e.transaction = .enqueue request createdAt ∧
    ∃ row ∈ e.before.prekeyReservations, row.requesterId = senderId ∧ row.targetId = recipientId ∧
      row.keyId = keyId ∧ request.now ≤ row.expiresAt ∧
      row ∉ (e.transaction.after digest e.before).prekeyReservations

/-- What the header of an admitted envelope names is there. -/
def Entry.Backed (digest : EncryptedEnvelope C → D) (e : Entry C D) : Prop :=
  ∀ senderId recipientId envelope, e.admitted digest = some (senderId, recipientId, envelope) →
    ∀ identityKey ephemeralKey signedPrekeyId oneTimePrekeyId ratchet,
      envelope.header =
        .preKey identityKey ephemeralKey signedPrekeyId oneTimePrekeyId ratchet →
      (∃ row ∈ e.before.signedPrekeys, row.userId = recipientId ∧ row.keyId = signedPrekeyId) ∧
      ∀ keyId, oneTimePrekeyId = some keyId → e.ClaimsReservation digest senderId recipientId keyId

/-! ## The invariant -/

/-- A prekey has at most one reservation, and none after a message has spent it. -/
structure Reserving (digest : EncryptedEnvelope C → D) (log : List (Entry C D)) (db : Db C D) :
    Prop where
  issuance : Issuance digest log db
  unique : ∀ row ∈ db.prekeyReservations, ∀ row' ∈ db.prekeyReservations,
    row.prekeyId = row'.prekeyId → row = row'
  spent : ∀ id ∈ spentIds digest log,
    id ∈ fetchedIds digest log ∧ ∀ row ∈ db.prekeyReservations, row.prekeyId ≠ id
  spentOnce : (spentIds digest log).Nodup
  backed : ∀ e ∈ log, e.Backed digest

section

variable {db db' : Db C D} {log : List (Entry C D)} {fetched : Option (UserId × UInt32)}

/-- A new reservation is for a key that has not been handed out. -/
theorem PrekeyChange.reservations {issued : List PrekeyRow} (h : PrekeyChange db db' issued fetched)
    (hi : Issuance digest log db) :
    (∀ row ∈ db'.prekeyReservations, row ∈ db.prekeyReservations) ∨
    ∃ reservation : ReservationRow, reservation.prekeyId ∉ fetchedIds digest log ∧
      ∀ row ∈ db'.prekeyReservations, row ∈ db.prekeyReservations ∨ row = reservation := by
  cases h with
  | shrink _ _ hreserved => exact .inl hreserved
  | issue _ _ _ _ _ _ _ _ _ _ _ hreserved => exact .inl fun row hrow => hreserved ▸ hrow
  | fetch prekey hprekey _ _ reservation hreservation hreserved =>
    refine .inr ⟨reservation, fun hid => ?_, hreserved⟩
    exact (hi.fetched _ hid).2 prekey hprekey hreservation.symm

theorem spentIds_append (e : Entry C D) :
    spentIds digest (log ++ [e]) = spentIds digest log ++ (e.spent digest).toList := by
  unfold spentIds
  rw [List.filterMap_append]
  cases hid : e.spent digest <;> simp [hid]

theorem Reserving.unique_step (h : Reserving digest log db) {issued : List PrekeyRow}
    (hchange : PrekeyChange db db' issued fetched) :
    ∀ row ∈ db'.prekeyReservations, ∀ row' ∈ db'.prekeyReservations,
      row.prekeyId = row'.prekeyId → row = row' := by
  intro row hrow row' hrow' hid
  rcases hchange.reservations h.issuance with hsub | ⟨reservation, hnew, hreserved⟩
  · exact h.unique row (hsub row hrow) row' (hsub row' hrow') hid
  · rcases hreserved row hrow with hold | rfl <;> rcases hreserved row' hrow' with hold' | rfl
    · exact h.unique row hold row' hold' hid
    · exact absurd (hid ▸ h.issuance.reserved row hold) hnew
    · exact absurd (hid ▸ h.issuance.reserved row' hold') hnew
    · rfl

/-- Ids spent before stay spent. -/
theorem Reserving.spent_step (h : Reserving digest log db) {issued : List PrekeyRow}
    (hchange : PrekeyChange db db' issued fetched) :
    ∀ id ∈ spentIds digest log, ∀ row ∈ db'.prekeyReservations, row.prekeyId ≠ id := by
  intro id hid row hrow
  obtain ⟨hfetched, hfree⟩ := h.spent id hid
  rcases hchange.reservations h.issuance with hsub | ⟨reservation, hnew, hreserved⟩
  · exact hfree row (hsub row hrow)
  · rcases hreserved row hrow with hold | rfl
    · exact hfree row hold
    · exact fun heq => hnew (heq ▸ hfetched)

omit [DecidableEq D] in
/-- The reservation that a request names is gone once it has been claimed. -/
theorem EnqueueRequest.notMem_claimed {request : EnqueueRequest C} {keyId : UInt32}
    (hid : request.oneTimePrekeyId = some keyId) {row : ReservationRow}
    (hclaims : request.claims keyId row = true) :
    row ∉ (request.claimed db).prekeyReservations := by
  intro hrow
  unfold EnqueueRequest.claimed at hrow
  simp only [hid, Option.elim_some] at hrow
  exact Bool.false_ne_true ((Table.mem_deleteWhere.mp hrow).2.symm.trans hclaims)

/-- What an admitted message with the header of a first message has found and left. -/
theorem Effect.admitted_cases {answer : Option Answer} (h : Effect digest db t answer db')
    (hnames : t.NamesPrekeys) (hkeyless : t.KeylessReceipt) {senderId recipientId : UserId}
    {envelope : EncryptedEnvelope C}
    (hadmitted : admittedEnvelope t answer = some (senderId, recipientId, envelope)) :
    envelope.header.isPreKey = false ∨
    ∃ request createdAt, t = .enqueue request createdAt ∧ request.senderId = senderId ∧
      request.recipientId = recipientId ∧
      (request.signedPrekeyId, request.oneTimePrekeyId) = envelopePrekeyIds envelope.header ∧
      request.Backed db ∧ db'.prekeyReservations = (request.claimed db).prekeyReservations := by
  unfold admittedEnvelope at hadmitted
  split at hadmitted
  · next request createdAt =>
    cases hadmitted
    cases h with
    | enqueued _ _ _ _ h =>
      cases h with
      | refused result hresult => cases hresult
      | inserted queue acceptances hbacked =>
        exact .inr ⟨request, createdAt, rfl, rfl, rfl, hnames, hbacked, rfl⟩
  · cases hadmitted
    exact .inl hkeyless
  · cases hadmitted

/-- The key that an entry spends has a reservation, which goes. -/
theorem Reserving.spends (h : Reserving digest log db) {answer : Option Answer}
    (heffect : Effect digest db t answer db') (hnames : t.NamesPrekeys)
    (hkeyless : t.KeylessReceipt) {id : UserId × UInt32} (hid : spentId t answer = some id) :
    id ∈ fetchedIds digest log ∧ id ∉ spentIds digest log ∧
      ∀ row ∈ db'.prekeyReservations, row.prekeyId ≠ id := by
  obtain ⟨⟨senderId, recipientId, envelope⟩, hadmitted, hmap⟩ := Option.bind_eq_some_iff.mp hid
  obtain ⟨keyId, hkey, rfl⟩ := Option.map_eq_some_iff.mp hmap
  rcases heffect.admitted_cases hnames hkeyless hadmitted with
    hratchet | ⟨request, createdAt, -, -, rfl, hids, hbacked, hreservations⟩
  · cases hheader : envelope.header with
    | preKey => rw [hheader] at hratchet; cases hratchet
    | ratchet => rw [hheader] at hkey; cases hkey
  · have hone : request.oneTimePrekeyId = some keyId := (congrArg Prod.snd hids).trans hkey
    obtain ⟨row, hrow, hclaims⟩ := hbacked.reservation keyId hone
    obtain ⟨-, htarget, hrowKey, -⟩ := of_decide_eq_true hclaims
    have hrowId : row.prekeyId = (request.recipientId, keyId) := Prod.ext htarget hrowKey
    refine ⟨hrowId ▸ h.issuance.reserved row hrow, fun hspent => ?_, fun row' hrow' hrowId' => ?_⟩
    · exact (h.spent _ hspent).2 row hrow hrowId
    · rw [hreservations] at hrow'
      have heq := h.unique row' (EnqueueRequest.mem_claimed hrow') row hrow
        (hrowId'.trans hrowId.symm)
      exact EnqueueRequest.notMem_claimed hone hclaims (heq ▸ hrow')

theorem Effect.backed (heffect : Effect digest db t (t.answer? digest db) (t.after digest db))
    (hnames : t.NamesPrekeys) (hkeyless : t.KeylessReceipt) : Entry.Backed digest ⟨db, t⟩ := by
  intro senderId recipientId envelope hadmitted identityKey ephemeralKey signedPrekeyId
    oneTimePrekeyId ratchet hheader
  rcases heffect.admitted_cases hnames hkeyless hadmitted with
    hratchet | ⟨request, createdAt, ht, rfl, rfl, hids, hbacked, hreservations⟩
  · rw [hheader] at hratchet
    cases hratchet
  · rw [hheader] at hids
    obtain ⟨hsigned, hone⟩ := Prod.mk.inj hids
    refine ⟨hbacked.signedPrekey signedPrekeyId hsigned, fun keyId hkey => ?_⟩
    have hone' := hone.trans hkey
    obtain ⟨row, hrow, hclaims⟩ := hbacked.reservation keyId hone'
    obtain ⟨hrequester, htarget, hrowKey, hnow⟩ := of_decide_eq_true hclaims
    refine ⟨request, createdAt, ht, row, hrow, hrequester, htarget, hrowKey, hnow, fun hkept => ?_⟩
    exact EnqueueRequest.notMem_claimed hone' hclaims (hreservations ▸ hkept)

theorem Reserving.step (h : Reserving digest log db) (hdecoded : t.Decoded)
    (hnames : t.NamesPrekeys) (hkeyless : t.KeylessReceipt) :
    Reserving digest (log ++ [⟨db, t⟩]) (t.after digest db) := by
  have heffect := t.effect digest db
  obtain ⟨issued, hchange⟩ := heffect.change hdecoded h.issuance.rows
  have hspends := fun id (hid : Entry.spent digest ⟨db, t⟩ = some id) =>
    h.spends heffect hnames hkeyless hid
  refine ⟨h.issuance.step hdecoded, h.unique_step hchange, ?_, ?_, fun e he => ?_⟩
  · rw [spentIds_append, fetchedIds_append]
    intro id hid
    rcases List.mem_append.mp hid with hid | hid
    · exact ⟨List.mem_append_left _ (h.spent id hid).1, h.spent_step hchange id hid⟩
    · obtain ⟨hfetched, -, hfree⟩ := hspends id (Option.mem_toList.mp hid)
      exact ⟨List.mem_append_left _ hfetched, hfree⟩
  · rw [spentIds_append]
    refine List.nodup_append.mpr ⟨h.spentOnce, Option.toList_nodup _, fun id hid id' hid' heq => ?_⟩
    exact (hspends id' (Option.mem_toList.mp hid')).2.1 (heq ▸ hid)
  · rcases List.mem_append.mp he with he | he
    · exact h.backed e he
    · rw [List.mem_singleton.mp he]
      exact heffect.backed hnames hkeyless

/-- **Each one-time prekey is admitted once.** In every run of the handlers in which no
read receipt comes with the header of a first message: an admitted first message names a
signed prekey that the relay holds and claims a reservation of its sender for the one-time
prekey it names, and no one-time prekey is named by two admitted messages. -/
theorem prekey_admitted_once {S : IdentitySuite K Sec C} {pageLen : InboundMessage C → Nat → Nat}
    (run : Run digest (fun db t => Relayed S pageLen db t ∧ t.KeylessReceipt) log db) :
    (∀ e ∈ log, e.Backed digest) ∧ (spentIds digest log).Nodup := by
  have h : Reserving digest log db := by
    induction run with
    | fresh =>
      exact ⟨Run.issuance .fresh, fun row hrow => absurd hrow (Table.notMem_empty row),
        fun id hid => absurd hid List.not_mem_nil, List.nodup_nil,
        fun e he => absurd he List.not_mem_nil⟩
    | transact run t hguard ih => exact ih.step hguard.1.decoded hguard.1.namesPrekeys hguard.2
  exact ⟨h.backed, h.spentOnce⟩

end

/-! ## A first message, and receipts that look like one -/

abbrev SampleLog := List (Entry Ciphertext Unit) × Db Ciphertext Unit

/-- The log and the database after a handler. -/
def relays (p : SampleLog) : Handling Ciphertext → SampleLog
  | .reply _ => p
  | .transact t _ => (p.1 ++ [⟨p.2, t⟩], t.after (fun _ => ()) p.2)

theorem relays_run {guard : Db Ciphertext Unit → Transaction Ciphertext → Prop} {p : SampleLog}
    {handling : Handling Ciphertext} (run : Run (fun _ => ()) guard p.1 p.2)
    (h : ∀ t respond, handling = .transact t respond → guard p.2 t) :
    Run (fun _ => ()) guard (relays p handling).1 (relays p handling).2 := by
  cases handling with
  | reply message => exact run
  | transact t respond => exact run.transact t (h t respond rfl)

def sampleEnv : RelayEnv := ⟨100, 100, 100, fun _ => 100, 100, 0⟩

/-- Bob registers with the signed prekey 1 and the one-time prekey 0. -/
def bobRegistered : SampleLog :=
  let spk := SignedPreKey.generate symbolicIdentity 1 (key32 9) (key32 8)
  relays ([], Db.fresh) (handleRegister symbolicIdentity bob
    ⟨b64Encode (symbolicIdentity.verifyingKey (key32 9)).toList, b64Encode spk.publicKey.toList, 1,
      b64Encode spk.signature.toList, none⟩ [⟨0, b64Encode (key32 7).toList⟩] sampleEnv)

/-- Alice's messages, one after another. -/
def aliceSends : List (ClientMessage Ciphertext) → SampleLog → SampleLog
  | [], p => p
  | message :: messages, p =>
    aliceSends messages (relays p
      (handleMessage symbolicIdentity (fun _ _ => 0) alice sampleEnv p.2 message))

section

variable {guard : Db Ciphertext Unit → Transaction Ciphertext → Prop}

theorem bobRegistered_run
    (hguard : ∀ db t, Relayed symbolicIdentity (fun _ _ => 0) db t → t.KeylessReceipt →
      guard db t) : Run (fun _ => ()) guard bobRegistered.1 bobRegistered.2 := by
  refine relays_run .fresh fun t respond h => hguard _ t (.register _ _ _ _ t respond h) ?_
  obtain ⟨-, registration, createdAt, rfl⟩ := handleRegister_decoded h
  trivial

theorem aliceSends_run {messages : List (ClientMessage Ciphertext)}
    (hguard : ∀ message ∈ messages, ∀ db t, Relayed symbolicIdentity (fun _ _ => 0) db t →
      t.Serves alice sampleEnv message → guard db t)
    (p : SampleLog) (run : Run (fun _ => ()) guard p.1 p.2) :
    Run (fun _ => ()) guard (aliceSends messages p).1 (aliceSends messages p).2 := by
  induction messages generalizing p with
  | nil => exact run
  | cons message messages ih =>
    refine ih (fun later hlater => hguard later (List.mem_cons_of_mem message hlater)) _
      (relays_run run fun t respond h => ?_)
    exact hguard message List.mem_cons_self p.2 t (.message _ _ _ t respond h)
      (handleMessage_serves h)

end

def sampleFirst (signedPrekeyId : UInt32) : EncryptedEnvelope Ciphertext :=
  ⟨PROTOCOL_VERSION,
    .preKey (b64Encode (key32 1).toList) (b64Encode (key32 2).toList) signedPrekeyId (some 0)
      ⟨b64Encode (key32 3).toList, 0, 0⟩, ⟨some (.box (.shared 0) [] []), 0⟩⟩

/-- Alice fetches Bob's bundle and sends the first message for it. -/
def firstMessageLog : SampleLog :=
  aliceSends [.fetchPreKeyBundle bob, .sendMessage bob ⟨1⟩ (sampleFirst 1)] bobRegistered

theorem firstMessageLog_run : Run (fun _ => ())
    (fun db t => Relayed symbolicIdentity (fun _ _ => 0) db t ∧ t.KeylessReceipt)
    firstMessageLog.1 firstMessageLog.2 := by
  refine aliceSends_run (fun message hmessage db t hrelayed hserves => ⟨hrelayed, ?_⟩)
    bobRegistered (bobRegistered_run fun _ _ hrelayed hkeyless => ⟨hrelayed, hkeyless⟩)
  cases t with
  | enqueueReceipt =>
    obtain ⟨-, rfl⟩ := hserves
    simp at hmessage
  | _ => trivial

set_option maxRecDepth 8000 in
theorem prekey_admitted_once_first : spentIds (fun _ => ()) firstMessageLog.1 = [(bob, 0)] ∧
    (∀ e ∈ firstMessageLog.1, e.Backed fun _ => ()) ∧
      (spentIds (fun _ => ()) firstMessageLog.1).Nodup :=
  ⟨rfl, prekey_admitted_once firstMessageLog_run⟩

/-- Alice sends two receipts that name Bob's one-time prekey 0 and a signed prekey 99. -/
def forgedReceiptLog : SampleLog :=
  aliceSends [.sendReadReceipt bob ⟨1⟩ (sampleFirst 99), .sendReadReceipt bob ⟨2⟩ (sampleFirst 99)]
    bobRegistered

/-- Receipts are admitted under the header of a first message for keys that the relay does not
hold, and twice for one one-time prekey that it has given to nobody. -/
theorem receipts_name_prekey_twice :
    Run (fun _ => ()) (Relayed symbolicIdentity fun _ _ => 0)
      forgedReceiptLog.1 forgedReceiptLog.2 ∧
    fetchedIds (fun _ => ()) forgedReceiptLog.1 = [] ∧
    (¬ ∀ e ∈ forgedReceiptLog.1, e.Backed fun _ => ()) ∧
    ¬ (spentIds (fun _ => ()) forgedReceiptLog.1).Nodup := by
  refine ⟨?_, rfl, fun hbacked => ?_, by decide⟩
  · exact aliceSends_run (fun _ _ _ _ hrelayed _ => hrelayed) bobRegistered
      (bobRegistered_run fun _ _ hrelayed _ => hrelayed)
  · have hlast : forgedReceiptLog.1[1] ∈ forgedReceiptLog.1 := List.getElem_mem _
    obtain ⟨⟨row, hrow, -, hid⟩, -⟩ := hbacked _ hlast _ _ _ rfl _ _ _ _ _ rfl
    have hretained : ∀ row ∈ (forgedReceiptLog.1[1]).before.signedPrekeys.rows, row.keyId ≠ 99 := by
      decide
    exact hretained row hrow hid

end Cmp.Relay
