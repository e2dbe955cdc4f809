import Cmp.Relay.Transactions

/-! Accepted messages are stored. The ledger answers for the queue: a row of the ledger
stands for a message that was inserted, and for the one that is queued under its id. -/

namespace Cmp.Relay

open Cmp.Crypto Cmp.Protocol Cmp.Lib

variable {C D : Type} [DecidableEq D] {digest : EncryptedEnvelope C → D} {db : Db C D}
  {log : List (Entry C D)} {request : EnqueueRequest C}

/-- The row holds the message of the request. -/
structure QueueRow.IsOf (row : QueueRow C) (request : EnqueueRequest C) : Prop where
  messageId : row.messageId = request.messageId
  recipientId : row.recipientId = request.recipientId
  senderId : row.senderId = request.senderId
  envelope : row.envelope = request.envelope

omit [DecidableEq D] in
theorem EnqueueRequest.row_isOf (request : EnqueueRequest C) (db : Db C D) (createdAt : Nat) :
    (request.row db createdAt).IsOf request :=
  ⟨rfl, rfl, rfl, rfl⟩

/-- The row an entry inserts. -/
def Entry.inserted (digest : EncryptedEnvelope C → D) (e : Entry C D) : Option (QueueRow C) :=
  match e.transaction, e.answer? digest with
  | .enqueue request createdAt, some (.enqueued .inserted) => some (request.row e.before createdAt)
  | _, _ => none

/-- The entry deletes the row, for its recipient or for its age. -/
def Entry.Removes (e : Entry C D) (row : QueueRow C) : Prop :=
  row ∈ e.before.messageQueue ∧
    match e.transaction with
    | .deleteMessages recipientId messageIds => acksMessage recipientId messageIds row = true
    | .gcOldMessages maxAgeDays now =>
      maxAgeDays = GC_MAX_AGE_DAYS ∧ isExpired maxAgeDays now row = true
    | _ => False

/-- The row was inserted in the run. -/
def Inserted (digest : EncryptedEnvelope C → D) (log : List (Entry C D)) (row : QueueRow C) :
    Prop :=
  ∃ e ∈ log, e.inserted digest = some row

def Removed (log : List (Entry C D)) (row : QueueRow C) : Prop := ∃ e ∈ log, e.Removes row

/-- Where the ledger has lost the id of a request and the queue has not, the queue holds
the message of the request. -/
def EnqueueRequest.Unreused (request : EnqueueRequest C) (db : Db C D) : Prop :=
  db.messageAcceptances.find? request.messageId = none →
    ∀ row ∈ db.messageQueue, row.messageId = request.messageId → row.IsOf request

/-- Rows leave the queue by acknowledgements and by the collection of old messages. -/
def Transaction.Ordinary : Transaction C → Prop
  | .deleteInvalidRow .. => False
  | .gcOldMessages maxAgeDays _ => maxAgeDays = GC_MAX_AGE_DAYS
  | _ => True

/-- And no id is used again for another message while the first is queued. -/
def Transaction.Unreused (db : Db C D) : Transaction C → Prop
  | .enqueue request _ => request.Unreused db
  | _ => True

/-! ## The invariant -/

/-- The row and the ledger row are of one message. -/
structure AcceptanceRow.Records (digest : EncryptedEnvelope C → D) (acceptance : AcceptanceRow D)
    (row : QueueRow C) : Prop where
  messageId : row.messageId = acceptance.messageId
  recipientId : row.recipientId = acceptance.recipientId
  senderId : row.senderId = acceptance.senderId
  envelope : digest row.envelope = acceptance.envelopeDigest

structure Ledger (digest : EncryptedEnvelope C → D) (log : List (Entry C D)) (db : Db C D) :
    Prop where
  queued : ∀ row ∈ db.messageQueue, Inserted digest log row
  kept : ∀ row, Inserted digest log row → row ∈ db.messageQueue ∨ Removed log row
  recorded : ∀ acceptance ∈ db.messageAcceptances,
    ∃ row, Inserted digest log row ∧ acceptance.Records digest row
  agrees : ∀ acceptance ∈ db.messageAcceptances, ∀ row ∈ db.messageQueue,
    row.messageId = acceptance.messageId → acceptance.Records digest row

omit [DecidableEq D] in
theorem EnqueueRequest.records {row : QueueRow C} (h : row.IsOf request) :
    (request.acceptance (digest request.envelope)).Records digest row :=
  ⟨h.messageId, h.recipientId, h.senderId, by rw [h.envelope]; rfl⟩

theorem Inserted.append {row : QueueRow C} (h : Inserted digest log row) (e : Entry C D) :
    Inserted digest (log ++ [e]) row := by
  obtain ⟨e', he', hrow⟩ := h
  exact ⟨e', List.mem_append_left _ he', hrow⟩

theorem Inserted.of_append {row : QueueRow C} {e : Entry C D}
    (h : Inserted digest (log ++ [e]) row) :
    Inserted digest log row ∨ e.inserted digest = some row := by
  obtain ⟨e', he', hrow⟩ := h
  rcases List.mem_append.mp he' with he' | he'
  · exact .inl ⟨e', he', hrow⟩
  · rw [List.mem_singleton.mp he'] at hrow
    exact .inr hrow

omit [DecidableEq D] in
theorem Removed.append {row : QueueRow C} (h : Removed log row) (e : Entry C D) :
    Removed (log ++ [e]) row := by
  obtain ⟨e', he', hrow⟩ := h
  exact ⟨e', List.mem_append_left _ he', hrow⟩

omit [DecidableEq D] in
/-- The ledger has no row under the id of a row it takes in. -/
theorem find?_of_insert {acceptances : Table (AcceptanceRow.messageId (D := D))}
    (h : db.messageAcceptances.insert (request.acceptance (digest request.envelope)) =
      some acceptances) : db.messageAcceptances.find? request.messageId = none :=
  Table.find?_eq_none.mpr (Table.ne_of_insert h)

/-- An entry that inserts nothing and only takes rows away: from the ledger any, from the
queue those it removes. -/
theorem Ledger.shrink (h : Ledger digest log db) {e : Entry C D} {db' : Db C D}
    (hinserted : e.inserted digest = none)
    (haccepted : ∀ acceptance ∈ db'.messageAcceptances, acceptance ∈ db.messageAcceptances)
    (hqueue : ∀ row ∈ db'.messageQueue, row ∈ db.messageQueue)
    (hremoved : ∀ row ∈ db.messageQueue, row ∈ db'.messageQueue ∨ e.Removes row) :
    Ledger digest (log ++ [e]) db' where
  queued row hrow := (h.queued row (hqueue row hrow)).append e
  kept row hrow := by
    rcases hrow.of_append with hrow | hrow
    · rcases h.kept row hrow with hrow | hrow
      · exact (hremoved row hrow).imp_right fun he => ⟨e, by simp, he⟩
      · exact .inr (hrow.append e)
    · rw [hinserted] at hrow
      cases hrow
  recorded acceptance ha := by
    obtain ⟨row, hrow, hrecords⟩ := h.recorded acceptance (haccepted acceptance ha)
    exact ⟨row, hrow.append e, hrecords⟩
  agrees acceptance ha row hrow :=
    h.agrees acceptance (haccepted acceptance ha) row (hqueue row hrow)

/-- An entry that leaves queue and ledger as they are. -/
theorem Ledger.same (h : Ledger digest log db) {e : Entry C D} {db' : Db C D}
    (hinserted : e.inserted digest = none)
    (hqueue : db'.messageQueue = db.messageQueue)
    (haccepted : db'.messageAcceptances = db.messageAcceptances) :
    Ledger digest (log ++ [e]) db' := by
  refine h.shrink hinserted ?_ ?_ ?_
  · rw [haccepted]; exact fun _ => id
  · rw [hqueue]; exact fun _ => id
  · rw [hqueue]; exact fun _ => .inl

/-- A message that is new to ledger and queue. -/
theorem Ledger.insert (h : Ledger digest log db) {e : Entry C D} {createdAt : Nat}
    {queue : Table (QueueRow.messageId (C := C))}
    {acceptances : Table (AcceptanceRow.messageId (D := D))}
    (hinserted : e.inserted digest = some (request.row db createdAt))
    (hqueue : db.messageQueue.insert (request.row db createdAt) = some queue)
    (haccepted : db.messageAcceptances.insert (request.acceptance (digest request.envelope)) =
      some acceptances) :
    Ledger digest (log ++ [e]) (request.admitted db queue acceptances) where
  queued row hrow := by
    rcases (Table.mem_insert hqueue).mp hrow with hrow | rfl
    · exact (h.queued row hrow).append e
    · exact ⟨e, by simp, hinserted⟩
  kept row hrow := by
    rcases hrow.of_append with hrow | hrow
    · rcases h.kept row hrow with hrow | hrow
      · exact .inl ((Table.mem_insert hqueue).mpr (.inl hrow))
      · exact .inr (hrow.append e)
    · rw [hinserted] at hrow
      exact .inl ((Table.mem_insert hqueue).mpr (.inr (Option.some.inj hrow).symm))
  recorded acceptance ha := by
    rcases (Table.mem_insert haccepted).mp ha with ha | rfl
    · obtain ⟨row, hrow, hrecords⟩ := h.recorded acceptance ha
      exact ⟨row, hrow.append e, hrecords⟩
    · exact ⟨_, ⟨e, by simp, hinserted⟩, request.records (request.row_isOf db createdAt)⟩
  agrees acceptance ha row hrow hid := by
    rcases (Table.mem_insert haccepted).mp ha with ha | rfl
    · rcases (Table.mem_insert hqueue).mp hrow with hrow | rfl
      · exact h.agrees acceptance ha row hrow hid
      · -- the ledger had no row with this id
        exact absurd hid.symm (Table.ne_of_insert haccepted acceptance ha)
    · rcases (Table.mem_insert hqueue).mp hrow with hrow | rfl
      · exact absurd hid (Table.ne_of_insert hqueue row hrow)
      · exact request.records (request.row_isOf db createdAt)

/-- A message that is queued, and new to the ledger. -/
theorem Ledger.ignore (h : Ledger digest log db) {e : Entry C D} {createdAt : Nat}
    {acceptances : Table (AcceptanceRow.messageId (D := D))}
    (hinserted : e.inserted digest = none) (hunreused : request.Unreused db)
    (hqueue : db.messageQueue.insert (request.row db createdAt) = none)
    (haccepted : db.messageAcceptances.insert (request.acceptance (digest request.envelope)) =
      some acceptances) :
    Ledger digest (log ++ [e]) (request.admitted db db.messageQueue acceptances) where
  queued row hrow := (h.queued row hrow).append e
  kept row hrow := by
    rcases hrow.of_append with hrow | hrow
    · exact (h.kept row hrow).imp_right fun hrow => hrow.append e
    · rw [hinserted] at hrow
      cases hrow
  recorded acceptance ha := by
    rcases (Table.mem_insert haccepted).mp ha with ha | rfl
    · obtain ⟨row, hrow, hrecords⟩ := h.recorded acceptance ha
      exact ⟨row, hrow.append e, hrecords⟩
    · obtain ⟨row, hrow, hid⟩ := Table.insert_eq_none.mp hqueue
      have hisOf := hunreused (find?_of_insert haccepted) row hrow hid
      exact ⟨row, (h.queued row hrow).append e, request.records hisOf⟩
  agrees acceptance ha row hrow hid := by
    rcases (Table.mem_insert haccepted).mp ha with ha | rfl
    · exact h.agrees acceptance ha row hrow hid
    · exact request.records (hunreused (find?_of_insert haccepted) row hrow hid)

/-- Each transaction keeps the invariant. -/
theorem Ledger.step (h : Ledger digest log db) {t : Transaction C} {answer : Option Answer}
    {db' : Db C D} (hordinary : t.Ordinary) (hunreused : t.Unreused db)
    (hanswer : t.answer? digest db = answer) (heffect : Effect digest db t answer db') :
    Ledger digest (log ++ [⟨db, t⟩]) db' := by
  have hinserted : ∀ row, Entry.inserted digest ⟨db, t⟩ = some row →
      answer = some (.enqueued .inserted) := by
    intro row hrow
    unfold Entry.inserted Entry.answer? at hrow
    rw [hanswer] at hrow
    split at hrow
    · rfl
    · cases hrow
  have hnone : answer ≠ some (.enqueued .inserted) → Entry.inserted digest ⟨db, t⟩ = none :=
    fun hne => Option.eq_none_iff_forall_ne_some.mpr fun row hrow => hne (hinserted row hrow)
  have hframe := heffect.queue_eq
  cases heffect with
  | failed => exact h.same (hnone nofun) rfl rfl
  | enqueued request createdAt result db' henq =>
    cases henq with
    | refused result hresult =>
      refine h.same (hnone fun heq => ?_) rfl rfl
      cases heq
      cases hresult
    | known => exact h.same (hnone nofun) rfl rfl
    | inserted queue acceptances _ _ hqueue haccepted =>
      refine h.insert ?_ hqueue haccepted
      simp only [Entry.inserted, Entry.answer?, hanswer]
    | ignored acceptances _ _ hqueue haccepted =>
      exact h.ignore (hnone nofun) hunreused hqueue haccepted
  | confirmed =>
    exact h.shrink (hnone nofun) (fun _ => Table.mem_of_mem_deleteWhere) (fun _ => id)
      fun _ => .inl
  | acked recipientId messageIds =>
    refine h.shrink (hnone nofun) (fun _ => id) (fun _ => Table.mem_of_mem_deleteWhere)
      fun row hrow => ?_
    cases hacks : acksMessage recipientId messageIds row with
    | true => exact .inr ⟨hrow, hacks⟩
    | false => exact .inl (Table.mem_deleteWhere.mpr ⟨hrow, hacks⟩)
  | dropped => exact hordinary.elim
  | collected maxAgeDays now =>
    refine h.shrink (hnone nofun) (fun _ => id) (fun _ => Table.mem_of_mem_deleteWhere)
      fun row hrow => ?_
    cases hold : isExpired maxAgeDays now row with
    | true => exact .inr ⟨hrow, hordinary, hold⟩
    | false => exact .inl (Table.mem_deleteWhere.mpr ⟨hrow, hold⟩)
  | _ => exact h.same (hnone nofun) (hframe rfl).1 (hframe rfl).2

theorem Run.ledger (run : Run digest (fun db t => t.Ordinary ∧ t.Unreused db) log db) :
    Ledger digest log db := by
  refine run.invariant (I := Ledger digest) ?_ fun h hguard hanswer heffect =>
    h.step hguard.1 hguard.2 hanswer heffect
  refine ⟨fun row hrow => ?_, ?_, fun acceptance ha => ?_, fun acceptance ha => ?_⟩
  · exact absurd hrow (Table.notMem_empty row)
  · rintro row ⟨e, he, -⟩
    cases he
  · exact absurd ha (Table.notMem_empty acceptance)
  · exact absurd ha (Table.notMem_empty acceptance)

/-- **An accepted message is stored.** In every run in which no id is used again for
another message while the first is queued and out of the ledger: a message that `enqueue`
accepts is in the queue, or was inserted and has been deleted by its recipient or for its
age; and a message queued under its id is the same message. -/
theorem accepted_message_stored
    (run : Run digest (fun db t => t.Ordinary ∧ t.Unreused db) log db)
    (hunreused : request.Unreused db)
    (hdigest : ∀ row, Inserted digest log row → digest row.envelope = digest request.envelope →
      row.envelope = request.envelope)
    {createdAt : Nat} {result : EnqueueResult} {db' : Db C D}
    (hrun : enqueue digest request createdAt db = .ok (result, db'))
    (haccepted : result = .inserted ∨ result = .duplicate) :
    ((∃ row ∈ db'.messageQueue, row.IsOf request) ∨
      ∃ row, row.IsOf request ∧ Inserted digest log row ∧ Removed log row) ∧
    ∀ row ∈ db.messageQueue, row.messageId = request.messageId → row.IsOf request := by
  obtain ⟨result', db'', hrun', hcases⟩ := enqueue_cases digest request createdAt db
  cases hrun.symm.trans hrun'
  have hledger := run.ledger
  have isOf_of_records : ∀ {acceptance : AcceptanceRow D} {row : QueueRow C},
      Inserted digest log row → acceptance.Records digest row →
      acceptance.messageId = request.messageId → acceptance.recipientId = request.recipientId →
      acceptance.senderId = request.senderId →
      acceptance.envelopeDigest = digest request.envelope → row.IsOf request :=
    fun hrow hrecords hid hrecipient hsender henvelope =>
      ⟨hrecords.messageId.trans hid, hrecords.recipientId.trans hrecipient,
        hrecords.senderId.trans hsender, hdigest _ hrow (hrecords.envelope.trans henvelope)⟩
  cases hcases with
  | refused result hresult => rcases haccepted with rfl | rfl <;> cases hresult
  | known acceptance ha hid hrecipient hsender henvelope =>
    constructor
    · obtain ⟨row, hrow, hrecords⟩ := hledger.recorded acceptance ha
      have hisOf := isOf_of_records hrow hrecords hid hrecipient hsender henvelope
      exact (hledger.kept row hrow).imp (fun hqueued => ⟨row, hqueued, hisOf⟩)
        fun hremoved => ⟨row, hisOf, hrow, hremoved⟩
    · intro row hrow hrowId
      exact isOf_of_records (hledger.queued row hrow)
        (hledger.agrees acceptance ha row hrow (hrowId.trans hid.symm)) hid hrecipient hsender
        henvelope
  | inserted queue acceptances _ _ hqueue _ =>
    refine ⟨.inl ⟨_, (Table.mem_insert hqueue).mpr (.inr rfl), request.row_isOf db createdAt⟩, ?_⟩
    exact fun row hrow hid => absurd hid (Table.ne_of_insert hqueue row hrow)
  | ignored acceptances _ _ hqueue hacceptances =>
    have hnone := find?_of_insert hacceptances
    obtain ⟨row, hrow, hid⟩ := Table.insert_eq_none.mp hqueue
    exact ⟨.inl ⟨row, hrow, hunreused hnone row hrow hid⟩, hunreused hnone⟩

/-! ## An id that is used again -/

theorem checkUserId_alice : checkUserId "alice" = .ok () := by decide

theorem checkUserId_bob : checkUserId "bob" = .ok () := by decide

def alice : UserId := ⟨"alice", checkUserId_alice⟩

def bob : UserId := ⟨"bob", checkUserId_bob⟩

def bobRegisters : Transaction Bytes := .registerAtomic ⟨bob, [], 1, [], [], []⟩ fun _ => 50

/-- Alice sends Bob one byte under the id 1. -/
def byteTo (byte : UInt8) : EnqueueRequest Bytes :=
  ⟨⟨1⟩, bob, alice, ⟨2, .ratchet ⟨b64Encode [], 0, 0⟩, b64Encode [byte]⟩, 10000, none, none, 100⟩

/-- The runs of these samples; an envelope is its own digest. -/
abbrev SampleRun (guard : Db Bytes (EncryptedEnvelope Bytes) → Transaction Bytes → Prop) :=
  Run (C := Bytes) id guard

def registered : Db Bytes (EncryptedEnvelope Bytes) := bobRegisters.after id Db.fresh

/-- Alice's byte is queued. -/
def queuedOnce : Db Bytes (EncryptedEnvelope Bytes) :=
  (Transaction.enqueue (byteTo 7) 100).after id registered

def sampleLog : List (Entry Bytes (EncryptedEnvelope Bytes)) :=
  [⟨Db.fresh, bobRegisters⟩, ⟨registered, .enqueue (byteTo 7) 100⟩]

theorem queuedOnce_run
    (guard : Db Bytes (EncryptedEnvelope Bytes) → Transaction Bytes → Prop)
    (hregisters : guard Db.fresh bobRegisters)
    (henqueues : guard registered (.enqueue (byteTo 7) 100)) :
    SampleRun guard sampleLog queuedOnce :=
  .transact (.transact .fresh bobRegisters hregisters) (.enqueue (byteTo 7) 100) henqueues

set_option maxRecDepth 4000 in
theorem accepted_message_stored_again :
    (∃ db', enqueue id (byteTo 7) 120 queuedOnce = .ok (.duplicate, db')) ∧
      ((∃ row ∈ queuedOnce.messageQueue, row.IsOf (byteTo 7)) ∨
        ∃ row, row.IsOf (byteTo 7) ∧ Inserted id sampleLog row ∧ Removed sampleLog row) := by
  have run : SampleRun (fun db t => t.Ordinary ∧ t.Unreused db) sampleLog queuedOnce :=
    queuedOnce_run _ ⟨trivial, trivial⟩ ⟨trivial, fun _ row hrow => by cases hrow⟩
  have hrun : enqueue id (byteTo 7) 120 queuedOnce = .ok (.duplicate, queuedOnce) := rfl
  refine ⟨⟨_, hrun⟩, (accepted_message_stored run ?_ (fun _ _ => id) hrun (.inr rfl)).1⟩
  intro hnone
  have hsome : (queuedOnce.messageAcceptances.find? (byteTo 7).messageId).isSome = true := rfl
  rw [hnone] at hsome
  cases hsome

/-- Alice has confirmed, and Bob has not read. -/
def confirmedOnce : Db Bytes (EncryptedEnvelope Bytes) :=
  (Transaction.confirmAcceptances alice [⟨1⟩]).after id queuedOnce

set_option maxRecDepth 4000 in
/-- Another byte under the same id is then accepted as a duplicate, and lost. -/
theorem reused_id_accepted :
    ∃ log db db', SampleRun (fun _ t => t.Ordinary) log db ∧
      enqueue id (byteTo 8) 120 db = .ok (.duplicate, db') ∧
      (∀ row ∈ db'.messageQueue, row.envelope ≠ (byteTo 8).envelope) ∧
      (∀ row, Inserted id log row → row.envelope ≠ (byteTo 8).envelope) ∧
      ∃ row ∈ db.messageQueue, row.messageId = (byteTo 8).messageId := by
  have run := Run.transact (queuedOnce_run (fun _ t => t.Ordinary) trivial trivial)
    (.confirmAcceptances alice [⟨1⟩]) trivial
  refine ⟨_, confirmedOnce, _, run, rfl, ?_, ?_, ⟨_, List.mem_singleton.mpr rfl, rfl⟩⟩
  · intro row hrow
    cases List.mem_singleton.mp hrow
    decide
  · rintro row ⟨e, he, hrow⟩
    simp only [sampleLog, List.cons_append, List.nil_append, List.mem_cons, List.not_mem_nil,
      or_false] at he
    rcases he with rfl | rfl | rfl
    · cases hrow
    · cases hrow
      decide
    · cases hrow

end Cmp.Relay
