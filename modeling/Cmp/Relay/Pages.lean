import Cmp.Lib.Text
import Cmp.Relay.Delivery

/-! The pages of queued messages. The loop of `deliver_queued_messages` goes through the rows
of a recipient by their row ids; the running count of a page is the size of its JSON, so that
pages keep both limits and no message is lost between two of them. -/

namespace Cmp.Relay

open Cmp.Crypto Cmp.Protocol Cmp.Lib

variable {C : Type} {W : Wire C}

/-! ## Sizes -/

/-- A field takes two quotes, a colon and a comma beside its name and its value. -/
def fieldBytes (field : String × String) : Nat :=
  field.1.utf8ByteSize + field.2.utf8ByteSize + 4

theorem utf8ByteSize_jsonObject (field : String × String) (fields : List (String × String)) :
    (jsonObject (field :: fields)).utf8ByteSize = ((field :: fields).map fieldBytes).sum + 1 := by
  have hcomma : ",".utf8ByteSize = 1 := rfl
  have hquote : "\"".utf8ByteSize = 1 := rfl
  have hcolon : "\":".utf8ByteSize = 2 := rfl
  have hopen : "\x7b".utf8ByteSize = 1 := rfl
  have hclose : "\x7d".utf8ByteSize = 1 := rfl
  have hfields : (",".intercalate ((field :: fields).map fun field =>
      "\"" ++ field.1 ++ "\":" ++ field.2)).utf8ByteSize + ",".utf8ByteSize =
      (((field :: fields).map fun field => "\"" ++ field.1 ++ "\":" ++ field.2).map
        fun text => text.utf8ByteSize + ",".utf8ByteSize).sum := utf8ByteSize_intercalate _ _ _
  have hsizes : (fun text : String => text.utf8ByteSize + ",".utf8ByteSize) ∘
      (fun field : String × String => "\"" ++ field.1 ++ "\":" ++ field.2) = fieldBytes := by
    funext field
    simp only [Function.comp_apply, String.utf8ByteSize_append, fieldBytes, hcomma, hquote, hcolon]
    omega
  rw [List.map_map, hsizes] at hfields
  unfold jsonObject
  rw [String.utf8ByteSize_append, String.utf8ByteSize_append]
  omega

/-- A message at the end of a page. -/
theorem utf8ByteSize_pageJson_append (page : List (TimedInbound C)) (message : TimedInbound C) :
    (pageJson W (page ++ [message])).utf8ByteSize =
      (pageJson W page).utf8ByteSize + (if page.isEmpty then 0 else 1) + itemBytes W message := by
  have hitems : (jsonArray ((page ++ [message]).map (inboundJson W))).utf8ByteSize =
      (jsonArray (page.map (inboundJson W))).utf8ByteSize + (if page.isEmpty then 0 else 1) +
        itemBytes W message := by
    unfold jsonArray itemBytes
    cases page with
    | nil =>
      simp only [List.nil_append, List.map_nil, List.map_cons, String.intercalate_nil,
        String.intercalate_singleton, String.utf8ByteSize_append, List.isEmpty_nil]
      simp
      omega
    | cons first rest =>
      rw [List.map_append, String.intercalate_append_of_ne_nil (by simp) (by simp)]
      simp only [List.map_cons, List.map_nil, String.intercalate_singleton,
        String.utf8ByteSize_append, List.isEmpty_cons]
      have hcomma : ",".utf8ByteSize = 1 := by decide
      simp [hcomma]
      omega
  unfold pageJson
  simp only [utf8ByteSize_jsonObject, List.map_cons, List.map_nil, List.sum_cons, fieldBytes,
    hitems]
  omega

/-- The page of one message. -/
theorem utf8ByteSize_pageJson_singleton (message : TimedInbound C) :
    (pageJson W [message]).utf8ByteSize = emptyPageBytes W + itemBytes W message :=
  utf8ByteSize_pageJson_append [] message

/-! ## The fate of a row -/

/-- The message of a row that can be sent: it passes the checks, and fits a page of its own. -/
def deliverable? (W : Wire C) (row : QueuedRow) : Option (TimedInbound C) :=
  match queuedRowToInbound W row with
  | .error _ => none
  | .ok message =>
    if (pageJson W [message]).utf8ByteSize ≤ MAX_QUEUED_PAGE_BYTES then some message else none

/-- An envelope that parses has the version of the protocol. -/
def Supported (W : Wire C) (row : QueuedRow) : Prop :=
  ∀ envelope, W.parseEnvelope row.envelopeJson = some envelope → envelope.version = PROTOCOL_VERSION

theorem queuedRowToInbound_supported {row : QueuedRow} (h : Supported W row) {version : UInt32} :
    queuedRowToInbound W row ≠ .error (.unsupportedVersion version) := by
  intro heq
  unfold queuedRowToInbound at heq
  cases hparse : W.parseEnvelope row.envelopeJson with
  | none =>
    rw [hparse] at heq
    cases heq
  | some envelope =>
    rw [hparse] at heq
    dsimp only at heq
    unfold validateQueuedEnvelope at heq
    rw [if_neg (not_not.mpr (h envelope hparse))] at heq
    split at heq
    · next error herror =>
      split at herror
      · cases herror
        cases heq
      · cases herror
    · split at heq
      · cases heq
      · split at heq
        · cases heq
        · cases heq

/-- A row is sent or removed, and it is sent if it can be. -/
theorem rowFate_supported {row : QueuedRow} (h : Supported W row) :
    rowFate W row = (deliverable? W row).elim .remove .deliver := by
  unfold rowFate deliverable?
  cases hrow : queuedRowToInbound W row with
  | error error =>
    cases error with
    | unsupportedVersion version => exact absurd hrow (queuedRowToInbound_supported h)
    | invalid => rfl
  | ok message =>
    dsimp only
    rw [utf8ByteSize_pageJson_singleton]
    split
    · next hgt => rw [if_neg (not_le.mpr hgt)]; rfl
    · next hle => rw [if_pos (not_lt.mp hle)]; rfl

theorem fits_of_deliverable {row : QueuedRow} {message : TimedInbound C}
    (h : deliverable? W row = some message) :
    (pageJson W [message]).utf8ByteSize ≤ MAX_QUEUED_PAGE_BYTES := by
  unfold deliverable? at h
  split at h
  · cases h
  · split at h
    · next hle => exact Option.some.inj h ▸ hle
    · cases h

/-! ## Pages -/

/-- A page that may be sent. -/
def GoodPage (W : Wire C) (page : List (TimedInbound C)) : Prop :=
  page ≠ [] ∧ page.length ≤ MAX_QUEUED_MESSAGES_PER_PAGE ∧
    (pageJson W page).utf8ByteSize ≤ MAX_QUEUED_PAGE_BYTES

/-- The end of `deliver_queued_messages`. -/
def Pass.finish (W : Wire C) (pass : Pass C) : Pass C :=
  if pass.page.isEmpty then pass else pass.sendPage W

theorem Pass.flatten_finish (pass : Pass C) :
    (pass.finish W).pages.flatten = pass.pages.flatten ++ pass.page := by
  unfold Pass.finish
  split
  · next hempty => rw [List.isEmpty_iff.mp hempty, List.append_nil]
  · simp [Pass.sendPage]

/-- The count is the size of the open page, and what is there keeps the limits. -/
structure Pass.Sized (W : Wire C) (pass : Pass C) : Prop where
  bytes : pass.pageBytes = (pageJson W pass.page).utf8ByteSize
  page : pass.page = [] ∨ GoodPage W pass.page
  pages : ∀ page ∈ pass.pages, GoodPage W page

namespace Pass.Sized

variable {pass : Pass C} {message : TimedInbound C}

theorem start : Sized W (.start W : Pass C) := ⟨rfl, .inl rfl, nofun⟩

/-- The open page goes out. -/
theorem sendPage (h : Sized W pass) (hpage : pass.page ≠ []) : Sized W (pass.sendPage W) := by
  refine ⟨rfl, .inl rfl, fun page hmem => ?_⟩
  rcases List.mem_append.mp hmem with hmem | hmem
  · exact h.pages page hmem
  · rw [List.mem_singleton.mp hmem]
    exact h.page.resolve_left hpage

/-- A message for which the open page has room. -/
theorem push (h : Sized W pass) (hroom : pass.isFull W message = false) :
    Sized W (pass.push W message) := by
  obtain ⟨hlength, hbytes⟩ := not_or.mp (of_decide_eq_false hroom)
  have hsize : pass.pageBytes + (if pass.page.isEmpty then 0 else 1) + itemBytes W message =
      (pageJson W (pass.page ++ [message])).utf8ByteSize := by
    rw [utf8ByteSize_pageJson_append, h.bytes]
  refine ⟨hsize, .inr ⟨by simp [Pass.push], ?_, ?_⟩, h.pages⟩
  · unfold Pass.push
    dsimp only
    rw [List.length_append, List.length_singleton]
    omega
  · unfold Pass.push
    dsimp only
    rw [← hsize]
    omega

/-- An empty page has room for a message that fits a page. -/
theorem isFull_empty (h : Sized W pass) (hpage : pass.page = [])
    (hmessage : (pageJson W [message]).utf8ByteSize ≤ MAX_QUEUED_PAGE_BYTES) :
    pass.isFull W message = false := by
  have hsize := utf8ByteSize_pageJson_append (W := W) [] message
  refine decide_eq_false (not_or.mpr ⟨?_, ?_⟩)
  · rw [hpage]
    exact (by decide : ¬MAX_QUEUED_MESSAGES_PER_PAGE ≤ 0)
  · rw [h.bytes, hpage, ← hsize]
    exact not_lt.mpr hmessage

theorem finish (h : Sized W pass) : ∀ page ∈ (pass.finish W).pages, GoodPage W page := by
  unfold Pass.finish
  split
  · exact h.pages
  · next hpage => exact (h.sendPage fun hempty => hpage (List.isEmpty_iff.mpr hempty)).pages

/-- A message that fits a page comes to the open page, or to the next one. -/
theorem visit (h : Sized W pass)
    (hmessage : (pageJson W [message]).utf8ByteSize ≤ MAX_QUEUED_PAGE_BYTES) :
    let visited := if pass.isFull W message then (pass.sendPage W).push W message
      else pass.push W message
    Sized W visited ∧
      visited.pages.flatten ++ visited.page = pass.pages.flatten ++ pass.page ++ [message] := by
  split
  · next hfull =>
    -- the page that is full goes out, and the message opens the next one
    have hpage : pass.page ≠ [] := by
      intro hempty
      cases hfull.symm.trans (h.isFull_empty hempty hmessage)
    have hsent := h.sendPage hpage
    refine ⟨hsent.push (hsent.isFull_empty rfl hmessage), ?_⟩
    simp [Pass.push, Pass.sendPage]
  · next hroom =>
    refine ⟨h.push (eq_false_of_ne_true hroom), ?_⟩
    simp [Pass.push]

end Pass.Sized

/-! ## The loop over the table -/

/-- `message_queue` in the order of its row ids, each row with its recipient. -/
structure RawQueue where
  rows : List (String × QueuedRow)
  sorted : rows.Pairwise fun a b => a.2.rowId < b.2.rowId
  positive : ∀ entry ∈ rows, 0 < entry.2.rowId

/-- The rows of a recipient. -/
def RawQueue.pending (recipientId : String) (queue : RawQueue) : List (QueuedRow) :=
  (queue.rows.filter fun entry => decide (entry.1 = recipientId)).map Prod.snd

/-- `get_next_pending`. -/
def RawQueue.getNextPending (recipientId : String) (afterRowId : Nat) (queue : RawQueue) :
    Option (QueuedRow) :=
  (queue.rows.find? fun entry =>
    decide (entry.1 = recipientId ∧ afterRowId < entry.2.rowId)).map Prod.snd

/-- `delete_invalid_row`. -/
def RawQueue.deleteInvalidRow (recipientId : String) (rowId : Nat) (queue : RawQueue) :
    RawQueue where
  rows := queue.rows.filter fun entry => decide ¬(entry.2.rowId = rowId ∧ entry.1 = recipientId)
  sorted := queue.sorted.filter _
  positive entry hentry := queue.positive entry (List.mem_of_mem_filter hentry)

/-- `deliver_queued_messages` on an open channel and a database that answers; `visits` are
left. -/
def deliverPending (W : Wire C) (recipientId : String) :
    Nat → Nat → RawQueue → Pass C → Pass C × RawQueue
  | 0, _, queue, pass => (pass.finish W, queue)
  | visits + 1, cursor, queue, pass =>
    match queue.getNextPending recipientId cursor with
    | none => (pass.finish W, queue)
    | some row =>
      match rowFate W row with
      | .preserve => (pass, queue)
      | .remove =>
        deliverPending W recipientId visits row.rowId
          (queue.deleteInvalidRow recipientId row.rowId) pass
      | .deliver message =>
        deliverPending W recipientId visits row.rowId queue
          (if pass.isFull W message then (pass.sendPage W).push W message else pass.push W message)

/-- The rows of a recipient after a cursor. -/
def RawQueue.pendingAfter (recipientId : String) (cursor : Nat) (queue : RawQueue) :
    List (QueuedRow) :=
  (queue.pending recipientId).filter fun row => decide (cursor < row.rowId)

namespace RawQueue

variable {queue : RawQueue} {recipientId : String} {cursor : Nat}

theorem getNextPending_eq (recipientId : String) (cursor : Nat) (queue : RawQueue) :
    queue.getNextPending recipientId cursor = (queue.pendingAfter recipientId cursor).head? := by
  unfold getNextPending pendingAfter pending
  rw [List.filter_map, List.filter_filter, List.head?_map, List.head?_filter]
  congr 2
  funext entry
  simp [Bool.and_comm]

theorem pending_sorted (recipientId : String) (queue : RawQueue) :
    (queue.pending recipientId).Pairwise fun a b => a.rowId < b.rowId := by
  unfold pending
  rw [List.pairwise_map]
  exact queue.sorted.filter _

/-- The cursor is moved to the first row after it. -/
theorem pendingAfter_cons {row : QueuedRow} {rest : List (QueuedRow)}
    (h : queue.pendingAfter recipientId cursor = row :: rest) :
    queue.pendingAfter recipientId row.rowId = rest := by
  have hcursor : cursor < row.rowId := by
    have hmem : row ∈ queue.pendingAfter recipientId cursor := h ▸ List.mem_cons_self
    exact of_decide_eq_true (List.mem_filter.mp hmem).2
  have hsorted : (row :: rest).Pairwise fun a b => a.rowId < b.rowId :=
    h ▸ (queue.pending_sorted recipientId).filter _
  calc queue.pendingAfter recipientId row.rowId
      = (queue.pendingAfter recipientId cursor).filter fun other =>
          decide (row.rowId < other.rowId) := by
        unfold pendingAfter
        rw [List.filter_filter]
        refine List.filter_congr fun other _ => ?_
        rw [← Bool.decide_and, decide_eq_decide]
        exact (and_iff_left_of_imp fun hlt => lt_trans hcursor hlt).symm
    _ = rest := by
        rw [h, List.filter_cons_of_neg (by simp), List.filter_eq_self]
        exact fun other hother => decide_eq_true ((List.pairwise_cons.mp hsorted).1 other hother)

theorem pending_deleteInvalidRow (rowId : Nat) :
    (queue.deleteInvalidRow recipientId rowId).pendingAfter recipientId rowId =
      queue.pendingAfter recipientId rowId := by
  unfold pendingAfter pending deleteInvalidRow
  dsimp only
  rw [List.filter_filter, List.filter_map, List.filter_map, List.filter_filter, List.filter_filter]
  congr 1
  refine List.filter_congr fun entry _ => ?_
  by_cases hid : entry.2.rowId = rowId
  · simp [hid]
  · simp [hid]

theorem pendingAfter_zero (queue : RawQueue) (recipientId : String) :
    queue.pendingAfter recipientId 0 = queue.pending recipientId := by
  unfold pendingAfter
  rw [List.filter_eq_self]
  intro row hrow
  obtain ⟨entry, hentry, rfl⟩ := List.mem_map.mp hrow
  exact decide_eq_true (queue.positive entry (List.mem_of_mem_filter hentry))

end RawQueue

/-- The loop goes through the first rows of the recipient after the cursor: what can be delivered
comes after what the pass holds, and what cannot is deleted. -/
theorem deliverPending_supported (recipientId : String) (visits : Nat) :
    ∀ (cursor : Nat) (queue : RawQueue) {pass : Pass C}, pass.Sized W →
      let visited := (queue.pendingAfter recipientId cursor).take visits
      (∀ row ∈ visited, Supported W row) →
      let result := deliverPending W recipientId visits cursor queue pass
      result.1.pages.flatten =
          pass.pages.flatten ++ pass.page ++ visited.filterMap (deliverable? W) ∧
        (∀ page ∈ result.1.pages, GoodPage W page) ∧
        result.2.rows = queue.rows.filter fun entry => decide ¬(entry.1 = recipientId ∧
          entry.2.rowId ∈ (visited.filter fun row => (deliverable? W row).isNone).map
            QueuedRow.rowId) := by
  induction visits with
  | zero =>
    intro cursor queue pass h visited _
    refine ⟨?_, h.finish, ?_⟩
    · simpa [visited, deliverPending] using Pass.flatten_finish pass
    · exact (List.filter_eq_self.mpr fun entry _ => by simp [visited]).symm
  | succ visits ih =>
    intro cursor queue pass h visited hsupported
    unfold deliverPending
    rw [RawQueue.getNextPending_eq]
    cases hpending : queue.pendingAfter recipientId cursor with
    | nil =>
      have hvisited : visited = [] := by
        simp only [visited, hpending, List.take_nil]
      rw [hvisited]
      refine ⟨?_, h.finish, ?_⟩
      · simpa using Pass.flatten_finish pass
      · exact (List.filter_eq_self.mpr fun entry _ => by simp).symm
    | cons row rest =>
      have hvisited : visited = row :: rest.take visits := by
        simp only [visited, hpending, List.take_succ_cons]
      rw [hvisited] at hsupported ⊢
      have hnext := RawQueue.pendingAfter_cons hpending
      have hrest : ∀ row ∈ rest.take visits, Supported W row :=
        fun row hrow => hsupported row (List.mem_cons_of_mem _ hrow)
      have hfate := rowFate_supported (hsupported row List.mem_cons_self)
      simp only [List.head?_cons, hfate]
      cases hrow : deliverable? W row with
      | none =>
        dsimp only [Option.elim]
        obtain ⟨hflat, hgood, hrows⟩ := ih row.rowId
          (queue.deleteInvalidRow recipientId row.rowId) h
          (by rw [RawQueue.pending_deleteInvalidRow, hnext]; exact hrest)
        rw [RawQueue.pending_deleteInvalidRow, hnext] at hflat hrows
        refine ⟨?_, hgood, hrows.trans ?_⟩
        · rw [List.filterMap_cons_none hrow]
          exact hflat
        rw [List.filter_cons_of_pos (by rw [hrow]; rfl), List.map_cons]
        unfold RawQueue.deleteInvalidRow
        dsimp only
        rw [List.filter_filter]
        refine List.filter_congr fun entry _ => ?_
        rw [← Bool.decide_and, decide_eq_decide, List.mem_cons]
        tauto
      | some message =>
        dsimp only [Option.elim]
        obtain ⟨hsized, hpushed⟩ := h.visit (fits_of_deliverable hrow)
        obtain ⟨hflat, hgood, hrows⟩ := ih row.rowId queue hsized (by rw [hnext]; exact hrest)
        rw [hnext] at hflat hrows
        refine ⟨?_, hgood, ?_⟩
        · rw [hflat, hpushed, List.filterMap_cons_some hrow, List.append_assoc,
            List.singleton_append]
        · rw [List.filter_cons_of_neg (by rw [hrow]; exact nofun)]
          exact hrows

/-! ## What a pass delivers -/

/-- A row of the table is the row of its id. -/
theorem RawQueue.eq_of_rowId {queue : RawQueue} {a b : String × QueuedRow}
    (ha : a ∈ queue.rows) (hb : b ∈ queue.rows) (h : a.2.rowId = b.2.rowId) : a = b := by
  have hnodup : (queue.rows.map fun entry => entry.2.rowId).Nodup := by
    rw [List.Nodup, List.pairwise_map]
    exact queue.sorted.imp fun hlt => hlt.ne
  exact List.inj_on_of_nodup_map hnodup ha hb h

theorem RawQueue.mem_pending {queue : RawQueue} {recipientId : String} {row : QueuedRow} :
    row ∈ queue.pending recipientId ↔ (recipientId, row) ∈ queue.rows := by
  unfold RawQueue.pending
  rw [List.mem_map]
  constructor
  · rintro ⟨entry, hentry, rfl⟩
    obtain ⟨hmem, hrecipient⟩ := List.mem_filter.mp hentry
    rw [← of_decide_eq_true hrecipient]
    exact hmem
  · intro hmem
    exact ⟨_, List.mem_filter.mpr ⟨hmem, decide_eq_true rfl⟩, rfl⟩

/-- A row of the recipient has the id of a visited row that passes a test when it is such a
row. -/
theorem RawQueue.mem_rowIds {queue : RawQueue} {recipientId : String}
    {visited : List (QueuedRow)} (hvisited : visited ⊆ queue.pending recipientId)
    (test : QueuedRow → Bool) {row : QueuedRow} (hrow : (recipientId, row) ∈ queue.rows) :
    row.rowId ∈ (visited.filter test).map QueuedRow.rowId ↔ row ∈ visited ∧ test row = true := by
  rw [List.mem_map]
  constructor
  · rintro ⟨other, hother, hid⟩
    have hmem := List.mem_filter.mp hother
    have heq := RawQueue.eq_of_rowId (RawQueue.mem_pending.mp (hvisited hmem.1)) hrow hid
    obtain ⟨-, rfl⟩ := Prod.mk.inj heq
    exact hmem
  · intro hmem
    exact ⟨row, List.mem_filter.mpr hmem, rfl⟩

variable (W) in
/-- The pages that go out hold, in order, the deliverable ones among the first rows of the
recipient; each page keeps its limits, and the rows that cannot be delivered are the ones
that go. -/
theorem pages_exact (recipientId : String) (queue : RawQueue)
    (h : ∀ row ∈ queue.pending recipientId, Supported W row) :
    let visited := (queue.pending recipientId).take MAX_QUEUED_MESSAGES
    let result := deliverPending W recipientId MAX_QUEUED_MESSAGES 0 queue (.start W)
    result.1.pages.flatten = visited.filterMap (deliverable? W) ∧
      (∀ page ∈ result.1.pages, page ≠ [] ∧ page.length ≤ MAX_QUEUED_MESSAGES_PER_PAGE ∧
        (pageJson W page).utf8ByteSize ≤ MAX_QUEUED_PAGE_BYTES) ∧
      ∀ entry, entry ∈ result.2.rows ↔ entry ∈ queue.rows ∧
        ¬(entry.1 = recipientId ∧ entry.2 ∈ visited ∧ deliverable? W entry.2 = none) := by
  intro visited result
  have hsubset : visited ⊆ queue.pending recipientId := List.take_subset _ _
  have hsupported : ∀ row ∈ visited, Supported W row := fun row hrow => h row (hsubset hrow)
  have hall := queue.pendingAfter_zero recipientId
  obtain ⟨hflat, hgood, hrows⟩ := deliverPending_supported recipientId MAX_QUEUED_MESSAGES 0 queue
    (Pass.Sized.start (W := W)) (by rw [hall]; exact hsupported)
  rw [hall] at hflat hrows
  refine ⟨hflat, hgood, fun entry => ?_⟩
  · rw [show result.2.rows = _ from hrows, List.mem_filter, decide_eq_true_iff]
    refine and_congr_right fun hentry => not_congr (and_congr_right ?_)
    obtain ⟨recipient, row⟩ := entry
    rintro rfl
    rw [← Option.isNone_iff_eq_none]
    exact RawQueue.mem_rowIds hsubset _ hentry

/-- One text is an envelope, and one the id of a message. -/
def twoTexts : Wire Bytes where
  envelopeJson _ := "message"
  parseEnvelope text :=
    if text = "message" then
      some ⟨PROTOCOL_VERSION, .ratchet ⟨b64Encode (List.replicate 32 0), 0, 0⟩, b64Encode []⟩
    else none
  uuidText _ := "1"
  parseUuid text := if text = "1" then some ⟨1⟩ else none
  datetime _ := "2024-01-15 10:30:45"

/-- Bob has a message, after a row that does not parse. -/
def bobsRows : RawQueue where
  rows := [("bob", ⟨1, "1", "alice", "?", "2024-01-15 10:30:45"⟩),
    ("bob", ⟨2, "1", "alice", "message", "2024-01-15 10:30:45"⟩)]
  sorted := by decide
  positive := by decide

theorem pages_exact_bob :
    let result := deliverPending twoTexts "bob" MAX_QUEUED_MESSAGES 0 bobsRows (.start twoTexts)
    result.1.pages.flatten.map (·.timestamp) = [1705314645] ∧
      ("bob", ⟨1, "1", "alice", "?", "2024-01-15 10:30:45"⟩) ∉ result.2.rows := by
  obtain ⟨hpages, -, hrows⟩ := pages_exact twoTexts "bob" bobsRows (by
    intro row _ envelope hparse
    simp only [twoTexts, Option.ite_none_right_eq_some, Option.some.injEq] at hparse
    rw [← hparse.2])
  refine ⟨?_, fun hmem => ?_⟩
  · rw [hpages]
    decide +kernel
  · refine ((hrows _).mp hmem).2 ⟨rfl, List.mem_cons_self, ?_⟩
    decide

end Cmp.Relay
