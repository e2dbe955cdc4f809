import Cmp.Client.InboxSafety

/-! Markers, row by row: where a marker after an operation comes from, and which markers an
operation leaves as they are. Memory and store are treated alike. -/

namespace Cmp.Client

open Cmp.Crypto Cmp.Protocol Cmp.Lib Cmp.Lib.Action

variable {K Sec C : Type} {S : IdentitySuite K Sec C} {m m' : Manager K Sec C} {op : Op Sec C}
  {sent : List (UserId × EncryptedEnvelope C)} {peerId : UserId} {key other : UserId × MessageId}
  {row : ProcessedMessage}

/-- A marker in memory or in the store. -/
def Manager.MarkedAs (m : Manager K Sec C) (key : UserId × MessageId) (row : ProcessedMessage) :
    Prop :=
  m.processedMessages.lookup key = some row ∨ m.store.processed.lookup key = some row

def Manager.Marks (m : Manager K Sec C) (key : UserId × MessageId) : Prop :=
  ∃ row, m.MarkedAs key row

/-- The markers under a key, in memory and in the store. -/
def Manager.markersAt (m : Manager K Sec C) (key : UserId × MessageId) :
    Option ProcessedMessage × Option ProcessedMessage :=
  (m.processedMessages.lookup key, m.store.processed.lookup key)

/-- No marker under the key is older than the retention at `now`. -/
def Manager.Recent (now : Nat) (m : Manager K Sec C) (key : UserId × MessageId) : Prop :=
  ∀ row, m.MarkedAs key row → now - RETENTION_SECS ≤ row.processedAt

/-! ## Origins -/

variable {new : ProcessedMessage}

namespace Manager.MarkedAs

theorem of_keepFrom {cutoff : Nat} {processed : ProcessedMap}
    (h : (keepFrom cutoff processed).lookup key = some row) : processed.lookup key = some row :=
  (lookup_keepFrom.mp h).1

theorem of_pruned {now : Nat} (h : (m.pruned now).MarkedAs key row) : m.MarkedAs key row :=
  h.imp of_keepFrom of_keepFrom

theorem of_prunedInMemory {now : Nat} (h : (m.prunedInMemory now).MarkedAs key row) :
    m.MarkedAs key row := h.imp_left of_keepFrom

theorem of_reloaded {cutoffNow pruneNow : Nat}
    (h : (m.reloaded cutoffNow pruneNow).MarkedAs key row) : m.MarkedAs key row :=
  .inr (h.elim of_keepFrom of_keepFrom)

theorem of_unmarked {ids : List MessageId} (h : (m.unmarked ids).MarkedAs key row) :
    m.MarkedAs key row :=
  h.imp (fun h => (HMap.lookup_filter_eq_some.mp h).1) fun h =>
    (HMap.lookup_filter_eq_some.mp h).1

theorem of_insert {processed : ProcessedMap}
    (h : (processed.insert other new).lookup key = some row) :
    (key = other ∧ row = new) ∨ (key ≠ other ∧ processed.lookup key = some row) := by
  rw [HMap.lookup_insert_eq] at h
  split at h
  · next heq =>
    cases h
    exact .inl ⟨heq, rfl⟩
  · next hne => exact .inr ⟨hne, h⟩

theorem of_marked (h : (m.marked other new).MarkedAs key row) :
    (key = other ∧ row = new) ∨ (key ≠ other ∧ m.MarkedAs key row) := by
  rcases h with h | h
  · exact (of_insert h).imp_right fun h => ⟨h.1, .inl h.2⟩
  · exact (of_insert h).imp_right fun h => ⟨h.1, .inr h.2⟩

theorem of_opened {session : PeerSession K Sec} {opkId : Option UInt32} {env : DecryptEnv Sec}
    (h : (m.opened peerId session opkId env).MarkedAs key row) : m.MarkedAs key row := by
  unfold Manager.opened at h
  rw [takeOneTimePrekey_eq] at h
  have hpruned : ((m.pruned env.now).prunedInMemory env.pruneNow).MarkedAs key row := h
  exact hpruned.of_prunedInMemory.of_pruned

/-- Committing takes the text out of a marker that is there. -/
theorem of_committed {processed : ProcessedMessage}
    (hmarker : m.processedMessages.lookup other = some processed)
    (h : (m.committed other processed).MarkedAs key row) :
    m.MarkedAs key row ∨ (key = other ∧ row.pendingPlaintext = none ∧ m.Marks key) := by
  rcases h with h | h
  · rcases of_insert h with ⟨rfl, rfl⟩ | ⟨-, h⟩
    · exact .inr ⟨rfl, rfl, processed, .inl hmarker⟩
    · exact .inl (.inl h)
  · unfold Manager.committed CryptoStore.markProcessedCommitted at h
    dsimp only at h
    split at h
    · next stored hstored =>
      rcases of_insert h with ⟨rfl, rfl⟩ | ⟨-, h⟩
      · exact .inr ⟨rfl, rfl, stored, .inr hstored⟩
      · exact .inl (.inr h)
    · exact .inl (.inr h)

end Manager.MarkedAs

/-- Only a decryption adds a marker. -/
theorem Outcome.marks (h : Outcome S m op sent m') (hmarks : m'.Marks key) :
    m.Marks key ∨ ∃ envelope env, op = .decryptMessageToText key.1 key.2 envelope env := by
  obtain ⟨row, hrow⟩ := hmarks
  cases h with
  | pruned => exact .inl ⟨row, hrow.of_pruned⟩
  | prunedTwice => exact .inl ⟨row, hrow.of_prunedInMemory.of_pruned⟩
  | decrypted peerId messageId envelope env plaintext session opkId =>
    rcases hrow.of_marked with ⟨rfl, -⟩ | ⟨-, hrow⟩
    · exact .inr ⟨envelope, env, rfl⟩
    · exact .inl ⟨row, hrow.of_opened⟩
  | storedInbound peerId messageId fails processed hmarker =>
    rcases hrow.of_committed hmarker with hrow | ⟨-, -, hmarks⟩
    · exact .inl ⟨row, hrow⟩
    · exact .inl hmarks
  | acked => exact .inl ⟨row, hrow.of_unmarked⟩
  | _ => exact .inl ⟨row, hrow⟩

/-! ## Memory and store -/

/-- A marker that memory and store both have is the same in both. -/
def Manager.MarkersAgree (m : Manager K Sec C) : Prop :=
  ∀ key row stored, m.processedMessages.lookup key = some row →
    m.store.processed.lookup key = some stored → row = stored

namespace Manager.MarkersAgree

open MarkedAs

theorem pruned (h : m.MarkersAgree) (now : Nat) : (m.pruned now).MarkersAgree :=
  fun _ _ _ hrow hstored => h _ _ _ (of_keepFrom hrow) (of_keepFrom hstored)

theorem prunedInMemory (h : m.MarkersAgree) (now : Nat) : (m.prunedInMemory now).MarkersAgree :=
  fun _ _ _ hrow hstored => h _ _ _ (of_keepFrom hrow) hstored

theorem opened (h : m.MarkersAgree) (peerId : UserId) (session : PeerSession K Sec)
    (opkId : Option UInt32) (env : DecryptEnv Sec) :
    (m.opened peerId session opkId env).MarkersAgree := by
  unfold Manager.opened
  rw [takeOneTimePrekey_eq]
  exact (h.pruned env.now).prunedInMemory env.pruneNow

/-- The same marker inserted on both sides. -/
theorem insert (h : m.MarkersAgree) {stored : ProcessedMessage}
    (hrow : (m.processedMessages.insert other new).lookup key = some row)
    (hstored : (m.store.processed.insert other new).lookup key = some stored) : row = stored := by
  rcases of_insert hrow with ⟨heq, rfl⟩ | ⟨hne, hrow⟩
  · rcases of_insert hstored with ⟨-, rfl⟩ | ⟨hne, -⟩
    · rfl
    · exact absurd heq hne
  · rcases of_insert hstored with ⟨heq, -⟩ | ⟨-, hstored⟩
    · exact absurd heq hne
    · exact h key row stored hrow hstored

theorem marked (h : m.MarkersAgree) (other : UserId × MessageId) (new : ProcessedMessage) :
    (m.marked other new).MarkersAgree := fun _ _ _ hrow hstored => h.insert hrow hstored

theorem committed (h : m.MarkersAgree) {processed : ProcessedMessage}
    (hmarker : m.processedMessages.lookup other = some processed) :
    (m.committed other processed).MarkersAgree := by
  intro key row stored hrow hstored
  unfold Manager.committed CryptoStore.markProcessedCommitted at hstored
  dsimp only at hstored
  split at hstored
  · next before hbefore =>
    cases h other processed before hmarker hbefore
    exact h.insert hrow hstored
  · next hnone =>
    rcases of_insert hrow with ⟨rfl, -⟩ | ⟨-, hrow⟩
    · cases hnone.symm.trans hstored
    · exact h key row stored hrow hstored

theorem reloaded (m : Manager K Sec C) (cutoffNow pruneNow : Nat) :
    (m.reloaded cutoffNow pruneNow).MarkersAgree := by
  intro key row stored hrow hstored
  exact Option.some.inj ((of_keepFrom hrow).symm.trans (of_keepFrom hstored))

end Manager.MarkersAgree

theorem Outcome.markersAgree (h : Outcome S m op sent m') (hm : m.MarkersAgree) :
    m'.MarkersAgree := by
  cases h with
  | pruned => exact hm.pruned _
  | prunedTwice => exact (hm.pruned _).prunedInMemory _
  | decrypted => exact (hm.opened _ _ _ _).marked _ _
  | storedInbound peerId messageId fails processed hmarker => exact hm.committed hmarker
  | acked =>
    intro key row stored hrow hstored
    exact hm key row stored (HMap.lookup_filter_eq_some.mp hrow).1
      (HMap.lookup_filter_eq_some.mp hstored).1
  | _ => exact hm

/-! ## Markers left alone -/

theorem lookup_keepFrom_of_recent {cutoff : Nat} {processed : ProcessedMap}
    (h : ∀ row, processed.lookup key = some row → cutoff ≤ row.processedAt) :
    (keepFrom cutoff processed).lookup key = processed.lookup key := by
  cases hrow : processed.lookup key with
  | none =>
    rw [keepFrom, HMap.lookup_filter, hrow]
    rfl
  | some row => exact lookup_keepFrom.mpr ⟨hrow, h row hrow⟩

namespace Manager

theorem markersAt_pruned {now : Nat} (h : m.Recent now key) :
    (m.pruned now).markersAt key = m.markersAt key :=
  Prod.ext (lookup_keepFrom_of_recent fun row hrow => h row (.inl hrow))
    (lookup_keepFrom_of_recent fun row hrow => h row (.inr hrow))

theorem markersAt_prunedInMemory {now : Nat} (h : m.Recent now key) :
    (m.prunedInMemory now).markersAt key = m.markersAt key :=
  Prod.ext (lookup_keepFrom_of_recent fun row hrow => h row (.inl hrow)) rfl

theorem markersAt_marked (h : key ≠ other) :
    (m.marked other new).markersAt key = m.markersAt key :=
  Prod.ext (Finmap.lookup_insert_of_ne _ h) (Finmap.lookup_insert_of_ne _ h)

theorem markersAt_opened {session : PeerSession K Sec} {opkId : Option UInt32}
    {env : DecryptEnv Sec} (hnow : m.Recent env.now key) (hprune : m.Recent env.pruneNow key) :
    (m.opened peerId session opkId env).markersAt key = m.markersAt key := by
  unfold Manager.opened
  rw [takeOneTimePrekey_eq]
  calc ((m.pruned env.now).prunedInMemory env.pruneNow).markersAt key
      = (m.pruned env.now).markersAt key :=
        markersAt_prunedInMemory fun row hrow => hprune row hrow.of_pruned
    _ = m.markersAt key := markersAt_pruned hnow

theorem markersAt_committed {processed : ProcessedMessage} (h : key ≠ other) :
    (m.committed other processed).markersAt key = m.markersAt key := by
  refine Prod.ext (Finmap.lookup_insert_of_ne _ h) ?_
  unfold Manager.committed CryptoStore.markProcessedCommitted Manager.markersAt
  dsimp only
  split
  · exact Finmap.lookup_insert_of_ne _ h
  · rfl

/-- A confirmed acknowledgement takes the markers of all peers under its ids. -/
theorem markersAt_unmarked {ids : List MessageId} (h : key.2 ∈ ids → ¬ m.Marks key) :
    (m.unmarked ids).markersAt key = m.markersAt key := by
  have hfilter : ∀ processed : ProcessedMap, (key.2 ∈ ids → processed.lookup key = none) →
      (HMap.filter (fun key _ => decide (key.2 ∉ ids)) processed).lookup key =
        processed.lookup key := by
    intro processed hnone
    rw [HMap.lookup_filter]
    by_cases hid : key.2 ∈ ids
    · rw [hnone hid]
      rfl
    · cases processed.lookup key with
      | none => rfl
      | some row => simp [Option.filter, hid]
  refine Prod.ext (hfilter _ fun hid => ?_) (hfilter _ fun hid => ?_)
  · exact Option.eq_none_iff_forall_ne_some.mpr fun row hrow => h hid ⟨row, .inl hrow⟩
  · exact Option.eq_none_iff_forall_ne_some.mpr fun row hrow => h hid ⟨row, .inr hrow⟩

end Manager

/-- The operations that write markers. -/
def Op.writesMarkers : Op Sec C → Bool
  | .decryptMessageToText .. => true
  | .confirmInboundStored .. => true
  | .confirmAcked .. => true
  | _ => false

theorem Outcome.markersAt (h : Outcome S m op sent m') (hop : op.writesMarkers = false)
    (key : UserId × MessageId) : m'.markersAt key = m.markersAt key := by
  cases h with
  | pruned | prunedTwice | decrypted | storedInbound | acked => cases hop
  | _ => rfl

theorem Manager.markedAs_congr (h : m'.markersAt key = m.markersAt key)
    (hrow : m'.MarkedAs key row) : m.MarkedAs key row := by
  have hmemory := congrArg Prod.fst h
  have hstore := congrArg Prod.snd h
  exact hrow.imp hmemory.symm.trans hstore.symm.trans

end Cmp.Client
