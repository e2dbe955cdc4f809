import Cmp.Lib.Text
import Cmp.Relay.AsyncServer
import Cmp.Relay.Pages

/-! What the relay admits it can deliver. Admission checks an envelope and the size of the
page that would hold it; delivery parses the stored row, checks it again and sizes it with
the time of the row. A message that is queued passes the second checks as it passed the
first. But a row that fails them is deleted by its `rowid` in a later step than it was read,
and by then the `rowid` may be that of another message. -/

namespace Cmp.Relay

open Cmp.Crypto Cmp.Protocol Cmp.Lib

variable {K Sec C D κ : Type} {W : Wire C}

/-! ## Rows -/

theorem UserId.new_text (id : UserId) : UserId.new id.text = .ok id := by
  unfold UserId.new
  split
  · rfl
  · next h => cases h.symm.trans id.valid

theorem validateQueuedEnvelope_ok {envelope : EncryptedEnvelope C}
    (h : validateEnvelope envelope = .ok ()) : validateQueuedEnvelope envelope = .ok () := by
  unfold validateQueuedEnvelope
  rw [h]
  split
  · next hversion =>
    unfold validateEnvelope at h
    rw [if_pos hversion] at h
    cases h
  · rfl

/-- The row of an envelope that was checked is read as the message that was stored. -/
theorem queuedRowToInbound_queued {row : QueueRow C}
    (hvalid : validateEnvelope row.envelope = .ok ())
    (henvelope : W.parseEnvelope (W.envelopeJson row.envelope) = some row.envelope)
    (hid : W.parseUuid (W.uuidText row.messageId) = some row.messageId) :
    queuedRowToInbound W (row.queued W) =
      .ok ⟨⟨row.messageId, row.senderId, row.envelope⟩,
        parseSqliteDatetime (W.datetime row.createdAt)⟩ := by
  simp only [queuedRowToInbound, QueueRow.queued, henvelope, validateQueuedEnvelope_ok hvalid,
    UserId.new_text, hid]

/-- A time with no more digits makes no larger page. -/
theorem itemBytes_le (message : InboundMessage C) {a b : Nat}
    (h : (Nat.toDigits 10 a).length ≤ (Nat.toDigits 10 b).length) :
    itemBytes W ⟨message, a⟩ ≤ itemBytes W ⟨message, b⟩ := by
  unfold itemBytes inboundJson decimal
  simp only [utf8ByteSize_jsonObject, List.map_cons, List.map_nil, List.sum_cons, fieldBytes,
    utf8ByteSize_toDigits]
  omega

theorem rowFate_of_fits {row : QueuedRow} {message : InboundMessage C} {time admitted : Nat}
    (hrow : queuedRowToInbound W row = .ok ⟨message, time⟩)
    (hdigits : (Nat.toDigits 10 time).length ≤ (Nat.toDigits 10 admitted).length)
    (hfits : pageLen W message admitted ≤ MAX_QUEUED_PAGE_BYTES) :
    rowFate W row = .deliver ⟨message, time⟩ := by
  have hbytes := itemBytes_le (W := W) message hdigits
  unfold pageLen at hfits
  rw [utf8ByteSize_pageJson_singleton] at hfits
  unfold rowFate
  rw [hrow]
  exact if_neg (by omega)

/-! ## Admission -/

section Admission

variable [DecidableEq D]

/-- What `handle_send` has checked when it queues a message. -/
theorem handleSend_checked {pageLen : InboundMessage C → Nat → Nat} {userId recipientId : UserId}
    {messageId : MessageId} {envelope : EncryptedEnvelope C} {env : RelayEnv} {fails : Bool}
    {digest : EncryptedEnvelope C → D} {db : Db C D} {answer : Answer}
    (h : (handleSend pageLen userId recipientId messageId envelope env).answer? digest fails db =
      some answer) :
    validateEnvelope envelope = .ok () ∧
      pageLen ⟨messageId, userId, envelope⟩ env.timestamp ≤ MAX_QUEUED_PAGE_BYTES ∧
      fails = false ∧
      (Transaction.enqueue (sendRequest userId recipientId messageId envelope env.now)
        env.queuedAt).answer? digest db = some answer := by
  unfold handleSend at h
  split at h
  · cases h
  · next hvalid =>
    split at h
    · cases h
    · next hfits =>
      cases fails with
      | true => cases h
      | false => exact ⟨hvalid, not_lt.mp hfits, rfl, h⟩

/-- The queue of a database that has inserted a row. -/
theorem insert_of_inserted {request : EnqueueRequest C} {createdAt : Nat}
    {digest : EncryptedEnvelope C → D} {db : Db C D}
    (h : (Transaction.enqueue request createdAt).answer? digest db = some (.enqueued .inserted)) :
    db.messageQueue.insert (request.row db createdAt) =
      some ((Transaction.enqueue request createdAt).after digest db).messageQueue := by
  have heffect := (Transaction.enqueue request createdAt).effect digest db
  rw [h] at heffect
  generalize (Transaction.enqueue request createdAt).after digest db = db' at heffect ⊢
  cases heffect with
  | enqueued _ _ _ _ henqueued =>
    cases henqueued with
    | refused _ hresult => cases hresult
    | inserted queue acceptances _ _ hqueue _ => exact hqueue

end Admission

/-! ## Runs -/

namespace AsyncServer

variable [DecidableEq D] [DecidableEq κ] {R : Deployment K Sec C D} {a : AsyncServer κ C D}
  {row : QueueRow C}

/-- No delivery to the recipient has found an invalid row under this `rowid` and not deleted it
yet. -/
def Unmarked (recipientId : UserId) (rowId : Nat) (a : AsyncServer κ C D) : Prop :=
  ∀ conn delivery, (a.server.sockets conn).phase = .greeting delivery →
    delivery.userId = recipientId → .removeRow rowId ∉ delivery.errands

/-- The row is alone under its `rowid`, and no delivery is about to delete it. -/
structure Spared (row : QueueRow C) (a : AsyncServer κ C D) : Prop where
  unique : ∀ other ∈ a.server.db.messageQueue, other.rowId = row.rowId → other = row
  unmarked : a.Unmarked row.recipientId row.rowId

/-- A delivery that comes to the row sends it. -/
theorem Spared.step (h : a.Spared row) (hrow : row ∈ a.server.db.messageQueue)
    {message : TimedInbound C} (hfate : rowFate R.wire (row.queued R.wire) = .deliver message)
    (event : Event κ C) : (a.step R event).Spared row where
  unique other hother hid := by
    rcases (step_stored (R := R) event a).queue_new hother with hold | ⟨hnew, -⟩
    · exact h.unique other hold hid
    · have hlt := Db.lt_nextRowId hrow
      omega
  unmarked conn delivery hphase huser herrand := by
    rcases (step_follows hphase).2.errands _ herrand with ⟨old, hold, hmem⟩ | hloaded
    · exact h.unmarked conn _ hold huser hmem
    · obtain ⟨other, hother, hid, -, hremove⟩ := hloaded
      rw [h.unique other hother hid] at hremove
      cases hremove.symm.trans hfate

theorem Spared.row_step (h : a.Spared row) (hrow : row ∈ a.server.db.messageQueue)
    (event : Event κ C) :
    row ∈ (a.step R event).server.db.messageQueue ∨
      (∃ conn ackId messageIds env, a.Asks conn row.recipientId (.ack ackId messageIds) env event ∧
        row.messageId ∈ messageIds) ∨
      ∃ now, event = .server (.collect now) ∧ isExpired GC_MAX_AGE_DAYS now row = true := by
  rcases (step_stored (R := R) event a).queue_kept hrow with
    hkept | hacked | ⟨conn, rest, hphase⟩ | hcollected
  · exact .inl hkept
  · exact .inr (.inl hacked)
  · exact absurd List.mem_cons_self (h.unmarked conn _ hphase rfl)
  · exact .inr (.inr hcollected)

variable (R) in
/-- A message whose row `handle_send` has inserted is read back as it was sent and fits a page.
If no delivery to its recipient is about to delete its `rowid` when it is admitted, then as long
as it is queued none ever is: the row leaves the queue when the recipient acknowledges it, or for
its age. -/
theorem admitted_deliverable (events : Nat → Event κ C) (a : AsyncServer κ C D) (n : Nat) {conn : κ}
    {userId recipientId : UserId} {messageId : MessageId} {envelope : EncryptedEnvelope C}
    {env : SessionEnv}
    (hasks : (a.after R events n).Asks conn userId (.sendMessage recipientId messageId envelope) env
      (events n))
    (hinserted : (handleSend (pageLen R.wire) userId recipientId messageId envelope
      env.toRelayEnv).answer? R.digest env.fails (a.after R events n).server.db =
        some (.enqueued .inserted))
    (hunmarked : (a.after R events n).Unmarked recipientId
      (a.after R events n).server.db.nextRowId)
    (henvelope : R.wire.parseEnvelope (R.wire.envelopeJson envelope) = some envelope)
    (hid : R.wire.parseUuid (R.wire.uuidText messageId) = some messageId)
    (hdigits : (Nat.toDigits 10 (parseSqliteDatetime (R.wire.datetime env.queuedAt))).length ≤
      (Nat.toDigits 10 env.timestamp).length) :
    let row : QueueRow C := ⟨(a.after R events n).server.db.nextRowId, messageId, recipientId,
      userId, envelope, env.queuedAt⟩
    let message : TimedInbound C :=
      ⟨⟨messageId, userId, envelope⟩, parseSqliteDatetime (R.wire.datetime env.queuedAt)⟩
    row ∈ (a.after R events (n + 1)).server.db.messageQueue ∧
      queuedRowToInbound R.wire (row.queued R.wire) = .ok message ∧
      (pageJson R.wire [message]).utf8ByteSize ≤ MAX_QUEUED_PAGE_BYTES ∧
      ∀ m > n, (∀ k, n < k → k ≤ m → row ∈ (a.after R events k).server.db.messageQueue) →
        (a.after R events m).Unmarked recipientId row.rowId ∧
        (row ∈ (a.after R events (m + 1)).server.db.messageQueue ∨
          (∃ conn ackId messageIds env, (a.after R events m).Asks conn recipientId
            (.ack ackId messageIds) env (events m) ∧ messageId ∈ messageIds) ∨
          ∃ now, events m = .server (.collect now) ∧ isExpired GC_MAX_AGE_DAYS now row = true) := by
  intro row message
  obtain ⟨hvalid, hfits, hfails, hanswer⟩ := handleSend_checked hinserted
  have hread : queuedRowToInbound R.wire (row.queued R.wire) = .ok message :=
    queuedRowToInbound_queued hvalid henvelope hid
  have hfate := rowFate_of_fits hread hdigits hfits
  have hafter : a.after R events (n + 1) = (a.after R events n).call R conn userId
      (.sendMessage recipientId messageId envelope) env := step_of_asks hasks
  have hqueue : (a.after R events n).server.db.messageQueue.insert row =
      some (a.after R events (n + 1)).server.db.messageQueue := by
    rw [hafter]
    simp only [call, Relay.handleMessage, handleSend, hvalid, hfails, Handling.run]
    rw [if_neg (not_lt.mpr hfits)]
    exact insert_of_inserted hanswer
  have hstored : row ∈ (a.after R events (n + 1)).server.db.messageQueue :=
    (Table.mem_insert hqueue).mpr (.inr rfl)
  have hfirst : (a.after R events (n + 1)).Spared row := by
    refine ⟨fun other hother hsame => ?_, ?_⟩
    · rcases (Table.mem_insert hqueue).mp hother with hold | rfl
      · exact absurd hsame (Nat.ne_of_lt (Db.lt_nextRowId hold))
      · rfl
    · rw [hafter]
      exact hunmarked
  refine ⟨hstored, hread, ?_, fun m hm hkept => ?_⟩
  · rw [utf8ByteSize_pageJson_singleton]
    exact le_trans (Nat.add_le_add_left (itemBytes_le _ hdigits) _)
      (utf8ByteSize_pageJson_singleton (W := R.wire) _ ▸ hfits)
  · -- the invariant holds from the admission on, as long as the row is there
    have hspared : (a.after R events m).Spared row := by
      induction m, hm using Nat.le_induction with
      | base => exact hfirst
      | succ m hm ih =>
        exact (ih fun k hnk hkm => hkept k hnk (Nat.le_succ_of_le hkm)).step
          (hkept m hm (Nat.le_succ m)) hfate (events m)
    exact ⟨hspared.unmarked, hspared.row_step (hkept m hm le_rfl) (events m)⟩

end AsyncServer

/-! ## A message to Bob -/

def sampleRatchet : EncryptedEnvelope Ciphertext :=
  ⟨PROTOCOL_VERSION, .ratchet ⟨b64Encode (key32 3).toList, 0, 0⟩,
    ⟨some (.box (.shared 0) [] []), 0⟩⟩

/-- An envelope whose ratchet key is too short. -/
def shortRatchet : EncryptedEnvelope Ciphertext :=
  ⟨PROTOCOL_VERSION, .ratchet ⟨b64Encode [], 0, 0⟩, ⟨some (.box (.shared 0) [] []), 0⟩⟩

/-- The two of them can be written and read, and the ids of two messages. -/
def ratchetWire : Wire Ciphertext where
  envelopeJson envelope := if envelope = shortRatchet then "short" else "envelope"
  parseEnvelope text :=
    if text = "envelope" then some sampleRatchet
    else if text = "short" then some shortRatchet else none
  uuidText id := if id = ⟨1⟩ then "1" else "2"
  parseUuid text := if text = "1" then some ⟨1⟩ else if text = "2" then some ⟨2⟩ else none
  datetime _ := "1970-01-01 00:01:40"

def ratchetRelay : Deployment Term Key32 Ciphertext Unit :=
  ⟨symbolicIdentity, ratchetWire, fun _ => (), "relay"⟩

def shortRow : QueueRow Ciphertext := ⟨1, ⟨2⟩, bob, alice, shortRatchet, 50⟩

theorem shortRow_nodup : ([shortRow].map QueueRow.messageId).Nodup := List.nodup_singleton _

/-- The relay that Bob has registered with, with a row for Bob from before the checks. -/
def legacyDb : Db Ciphertext Unit :=
  { bobRegistered.2 with messageQueue := ⟨[shortRow], shortRow_nodup⟩ }

/-- Alice registers and Bob logs in, whose deliveries come to the row. -/
def legacyStart : List (AsyncServer.Event (Fin 3) Ciphertext) :=
  registerOn aliceConn alice (key32 10) (key32 11) ++ loginOn bobConn bob (key32 9) ++
  [greetOn bobConn]

def aliceWrites : List (AsyncServer.Event (Fin 3) Ciphertext) :=
  requestOn aliceConn (.sendMessage bob ⟨1⟩ sampleRatchet)

abbrev LegacyState (events : List (AsyncServer.Event (Fin 3) Ciphertext)) (n : Nat) :
    AsyncServer (Fin 3) Ciphertext Unit :=
  (AsyncServer.boot legacyDb).after ratchetRelay (eventAt events) n

/-- The row of Alice's message. -/
def aliceRow (rowId : Nat) : QueueRow Ciphertext := ⟨rowId, ⟨1⟩, bob, alice, sampleRatchet, 100⟩

def marksRow (rowId : Nat) : Phase C → Bool
  | .greeting delivery => delivery.errands.any fun errand =>
    match errand with
    | .removeRow other => decide (other = rowId)
    | _ => false
  | _ => false

theorem unmarked_of_phases {a : AsyncServer κ C D} {rowId : Nat}
    (h : ∀ conn, marksRow rowId (a.server.sockets conn).phase = false) (recipientId : UserId) :
    a.Unmarked recipientId rowId := by
  intro conn delivery hphase _ herrand
  have hmarks := h conn
  rw [hphase] at hmarks
  exact List.any_eq_false.mp hmarks _ herrand (decide_eq_true rfl)

/-- Alice writes while the row is still there, and then it is deleted. -/
def legacyWrites : List (AsyncServer.Event (Fin 3) Ciphertext) :=
  legacyStart ++ aliceWrites ++ [greetOn bobConn]

set_option maxRecDepth 20000 in
theorem legacyWrites_asks : (LegacyState legacyWrites 16).Asks aliceConn alice
    (.sendMessage bob ⟨1⟩ sampleRatchet) sampleSessionEnv (eventAt legacyWrites 16) :=
  ⟨rfl, ⟨rfl, by with_unfolding_all rfl, by decide +kernel⟩, by decide +kernel,
    Option.isNone_iff_eq_none.mp (by decide +kernel)⟩

set_option maxRecDepth 20000 in
/-- The message is the second row, and stays when the first one is deleted. -/
theorem admitted_deliverable_bob :
    aliceRow 2 ∈ (LegacyState legacyWrites 19).server.db.messageQueue ∧
      (LegacyState legacyWrites 19).server.db.messageQueue.rows.length = 1 ∧
      queuedRowToInbound ratchetWire ((aliceRow 2).queued ratchetWire) =
        .ok ⟨⟨⟨1⟩, alice, sampleRatchet⟩, 100⟩ := by
  have hrowId : (LegacyState legacyWrites 16).server.db.nextRowId = 2 := by decide +kernel
  obtain ⟨hstored, hread, -, hkept⟩ := AsyncServer.admitted_deliverable ratchetRelay
    (eventAt legacyWrites) (.boot legacyDb) 16 legacyWrites_asks (by with_unfolding_all rfl)
    (unmarked_of_phases (by decide +kernel) bob) rfl rfl (by decide)
  rw [hrowId] at hstored hread hkept
  have hanswered : aliceRow 2 ∈ (LegacyState legacyWrites 18).server.db.messageQueue := by
    have hthere : ∀ k, 16 < k → k ≤ 17 →
        aliceRow 2 ∈ (LegacyState legacyWrites k).server.db.messageQueue := by
      intro k hlt hle
      obtain rfl : k = 17 := by omega
      exact hstored
    obtain ⟨-, hstays | ⟨_, _, _, _, hacks, -⟩ | ⟨now, hcollects, -⟩⟩ :=
      hkept 17 (by decide) hthere
    · exact hstays
    · cases hacks.1
    · cases hcollects
  have hthere : ∀ k, 16 < k → k ≤ 18 →
      aliceRow 2 ∈ (LegacyState legacyWrites k).server.db.messageQueue := by
    intro k hlt hle
    obtain rfl | rfl : k = 17 ∨ k = 18 := by omega
    · exact hstored
    · exact hanswered
  obtain ⟨-, hstays | ⟨_, _, _, _, hacks, -⟩ | ⟨now, hcollects, -⟩⟩ := hkept 18 (by decide) hthere
  · exact ⟨hstays, by decide +kernel, hread⟩
  · cases hacks.1
  · cases hcollects

/-- Bob logs in again, and the deliveries of both logins come to the row; the first deletes it,
Alice writes, and the second deletes it too. -/
def legacyOverlap : List (AsyncServer.Event (Fin 3) Ciphertext) :=
  legacyStart ++ loginOn nextConn bob (key32 9) ++ [greetOn nextConn, greetOn bobConn] ++
  aliceWrites ++ [greetOn nextConn]

set_option maxRecDepth 20000 in
/-- Alice's message is admitted under the `rowid` of the row that is gone, and is deleted in its
place. -/
theorem admitted_deleted :
    (LegacyState legacyOverlap 24).Asks aliceConn alice (.sendMessage bob ⟨1⟩ sampleRatchet)
      sampleSessionEnv (eventAt legacyOverlap 24) ∧
    (handleSend (pageLen ratchetWire) alice bob
      ⟨1⟩ sampleRatchet sampleSessionEnv.toRelayEnv).answer?
      ratchetRelay.digest false (LegacyState legacyOverlap 24).server.db =
        some (.enqueued .inserted) ∧
    queuedRowToInbound ratchetWire ((aliceRow 1).queued ratchetWire) =
      .ok ⟨⟨⟨1⟩, alice, sampleRatchet⟩, 100⟩ ∧
    rowFate ratchetWire ((aliceRow 1).queued ratchetWire) =
      .deliver ⟨⟨⟨1⟩, alice, sampleRatchet⟩, 100⟩ ∧
    (LegacyState legacyOverlap 26).server.db.messageQueue.rows = [aliceRow 1] ∧
    eventAt legacyOverlap 26 = greetOn nextConn ∧
    (LegacyState legacyOverlap 27).server.db.messageQueue.rows = [] := by
  refine ⟨⟨rfl, ⟨rfl, ?_, ?_⟩, ?_, ?_⟩, ?_, ?_, ?_, ?_, rfl, ?_⟩
  · with_unfolding_all rfl
  · decide +kernel
  · decide +kernel
  · exact Option.isNone_iff_eq_none.mp (by decide +kernel)
  · with_unfolding_all rfl
  · with_unfolding_all rfl
  · with_unfolding_all rfl
  · decide +kernel
  · decide +kernel

end Cmp.Relay
