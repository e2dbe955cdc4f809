import Cmp.System.Registration

/-! One-time prekeys between a client and the relay. The client drops the keys of an upload
that the relay has rejected. The relay keeps no record of a rejection: it takes the keys
when a second copy of the request finds more room. -/

namespace Cmp.System

open Cmp.Crypto Cmp.Protocol Cmp.Lib Cmp.Lib.Action Cmp.Client Cmp.Relay

variable {K Sec C D : Type}

/-- The call has decrypted a first message with the key. -/
def Call.Uses (S : IdentitySuite K Sec C) (call : Call K Sec C) (keyId : UInt32) : Prop :=
  ∃ peerId messageId envelope env plaintext session m,
    call.op = .decryptMessageToText peerId messageId envelope env ∧
    Opens S call.before peerId envelope env.drawn plaintext session (some keyId) ∧
    (decryptMessageToText S peerId messageId envelope env).run call.before =
      .ok (.pending (utf8Text plaintext)) m

def Link.Used (S : IdentitySuite K Sec C) (s : Link K Sec C D) (keyId : UInt32) : Prop :=
  ∃ call ∈ s.calls, call.Uses S keyId

/-- The relay has rejected the upload. -/
def Link.Rejected (s : Link K Sec C D) (uploadId : MessageId) : Prop :=
  ∃ remaining, .preKeysUploaded uploadId false remaining ∈ s.replies

/-- No key is old enough to be dropped. -/
def NoneStale (m : Manager K Sec C) (now : Nat) : Prop := ∀ keyId, isStale m now keyId = false

/-- The operations on one-time prekeys: a replenishment on a `PreKeyLow`, the answer to a
reply of the relay, and the decryption of any message. -/
def UploadOps (s : Link K Sec C D) : Op Sec C → Prop
  | .queuePrekeyReplenishment env =>
    s.notices ≠ [] ∧ s.Unused env.uploadId ∧ NoneStale s.manager env.cutoffNow
  | .confirmPrekeysUploaded uploadId accepted remaining env _ =>
    .preKeysUploaded uploadId accepted remaining ∈ s.replies ∧ s.Unused env.uploadId ∧
      NoneStale s.manager env.cutoffNow
  | .decryptMessageToText .. => True
  | _ => False

/-- A rejected upload does not reach the relay again. -/
def NotAgain (s : Link K Sec C D) (message : ClientMessage C) : Prop :=
  ∀ uploadId prekeys, message = .uploadPreKeys uploadId prekeys → ¬s.Rejected uploadId

variable [DecidableEq D]

/-- The client holds what the relay has of it, and no upload is under way. -/
structure Link.Supplied (digest : EncryptedEnvelope C → D) (me : UserId) (s : Link K Sec C D) :
    Prop where
  durable : ∃ prunedAt, s.manager.Durable prunedAt
  history : Relay.Run digest (fun _ t => t.Decoded) s.log s.db
  held : ∀ keyId, Outstanding me s.db keyId → keyId ∈ s.manager.storedOpks
  idle : ∀ item ∈ s.manager.pendingOutbound, isUpload item = false
  requests : s.requests = []
  replies : s.replies = []

/-- A batch that is in the outbox, or has been sent. -/
def Link.Batch (s : Link K Sec C D) (uploadId : MessageId) (prekeys : List PublicOneTimePreKey) :
    Prop :=
  .preKeyUpload uploadId prekeys ∈ s.manager.pendingOutbound ∨
    .uploadPreKeys uploadId prekeys ∈ s.requests

/-- The key is in memory, or has been used. -/
def Link.Kept (S : IdentitySuite K Sec C) (s : Link K Sec C D) (keyId : UInt32) : Prop :=
  keyId ∈ s.manager.storedOpks ∨ s.Used S keyId

/-- Batches have different keys. Those of a rejected one are not outstanding, and those of
the others are kept. -/
structure Supply (S : IdentitySuite K Sec C) (digest : EncryptedEnvelope C → D) (me : UserId)
    (s : Link K Sec C D) : Prop where
  durable : ∃ prunedAt, s.manager.Durable prunedAt
  issuance : Issuance digest s.log s.db
  outstanding : ∀ keyId, Outstanding me s.db keyId → s.Kept S keyId
  below : ∀ uploadId prekeys, s.Batch uploadId prekeys → ∀ prekey ∈ prekeys,
    saturatingSucc prekey.keyId ≤ s.manager.nextOneTimePrekeyId
  same : ∀ uploadId prekeys prekeys', s.Batch uploadId prekeys → s.Batch uploadId prekeys' →
    prekeys = prekeys'
  apart : ∀ uploadId uploadId' prekeys prekeys', s.Batch uploadId prekeys →
    s.Batch uploadId' prekeys' → uploadId ≠ uploadId' → ∀ prekey ∈ prekeys, ∀ prekey' ∈ prekeys',
      prekey.keyId ≠ prekey'.keyId
  kept : ∀ uploadId prekeys, s.Batch uploadId prekeys → ¬s.Rejected uploadId →
    ∀ prekey ∈ prekeys, s.Kept S prekey.keyId
  refused : ∀ uploadId prekeys, s.Batch uploadId prekeys → s.Rejected uploadId →
    ∀ prekey ∈ prekeys, ¬Outstanding me s.db prekey.keyId
  answered : ∀ uploadId accepted remaining,
    .preKeysUploaded uploadId accepted remaining ∈ s.replies →
      ∃ prekeys, .uploadPreKeys uploadId prekeys ∈ s.requests

section Steps

variable {S : IdentitySuite K Sec C} {digest : EncryptedEnvelope C → D} {me : UserId}
  {s s' : Link K Sec C D}

theorem Supply.start (h : s.Supplied digest me) : Supply S digest me s := by
  have hnone : ∀ uploadId prekeys, ¬s.Batch uploadId prekeys := by
    rintro uploadId prekeys (hitem | hsent)
    · cases h.idle _ hitem
    · rw [h.requests] at hsent
      exact List.not_mem_nil hsent
  exact
    { durable := h.durable
      issuance := h.history.issuance
      outstanding := fun keyId hout => .inl (h.held keyId hout)
      below := fun uploadId prekeys hbatch => absurd hbatch (hnone uploadId prekeys)
      same := fun uploadId prekeys _ hbatch => absurd hbatch (hnone uploadId prekeys)
      apart := fun uploadId _ prekeys _ hbatch => absurd hbatch (hnone uploadId prekeys)
      kept := fun uploadId prekeys hbatch => absurd hbatch (hnone uploadId prekeys)
      refused := fun uploadId prekeys hbatch => absurd hbatch (hnone uploadId prekeys)
      answered := fun uploadId accepted remaining hreply => by
        rw [h.replies] at hreply
        exact absurd hreply List.not_mem_nil }

/-! ## The client -/

/-- A step of the client without a new batch: a key that it drops is used, or of a batch
that has been rejected. -/
theorem Supply.client (h : Supply S digest me s)
    (hdurable : ∃ prunedAt, s'.manager.Durable prunedAt)
    (hdb : s'.db = s.db) (hlog : s'.log = s.log) (hreplies : s'.replies = s.replies)
    (hcalls : s.calls ⊆ s'.calls) (hrequests : s.requests ⊆ s'.requests)
    (hbatch : ∀ uploadId prekeys, s'.Batch uploadId prekeys → s.Batch uploadId prekeys)
    (hnext : s.manager.nextOneTimePrekeyId ≤ s'.manager.nextOneTimePrekeyId)
    (hdropped : ∀ keyId ∈ s.manager.storedOpks, s'.Kept S keyId ∨ ∃ uploadId prekeys,
      s.Batch uploadId prekeys ∧ s.Rejected uploadId ∧ ∃ prekey ∈ prekeys, prekey.keyId = keyId) :
    Supply S digest me s' := by
  have hrejected : ∀ uploadId, s'.Rejected uploadId ↔ s.Rejected uploadId := by
    unfold Link.Rejected
    rw [hreplies]
    exact fun _ => Iff.rfl
  have hkept : ∀ keyId, s.Kept S keyId → s'.Kept S keyId ∨ ∃ uploadId prekeys,
      s.Batch uploadId prekeys ∧ s.Rejected uploadId ∧ ∃ prekey ∈ prekeys, prekey.keyId =
        keyId := by
    rintro keyId (hheld | ⟨call, hcall, huses⟩)
    · exact hdropped keyId hheld
    · exact .inl (.inr ⟨call, hcalls hcall, huses⟩)
  refine
    { durable := hdurable
      issuance := by rw [hdb, hlog]; exact h.issuance
      outstanding := fun keyId hout => ?_
      below := fun uploadId prekeys hb prekey hprekey =>
        le_trans (h.below uploadId prekeys (hbatch _ _ hb) prekey hprekey) hnext
      same := fun uploadId prekeys prekeys' hb hb' =>
        h.same uploadId prekeys prekeys' (hbatch _ _ hb) (hbatch _ _ hb')
      apart := fun uploadId uploadId' prekeys prekeys' hb hb' =>
        h.apart uploadId uploadId' prekeys prekeys' (hbatch _ _ hb) (hbatch _ _ hb')
      kept := fun uploadId prekeys hb hnot prekey hprekey => ?_
      refused := fun uploadId prekeys hb hrej => ?_
      answered := fun uploadId accepted remaining hreply => ?_ }
  · rw [hdb] at hout
    refine (hkept keyId (h.outstanding keyId hout)).resolve_right ?_
    rintro ⟨uploadId, prekeys, hb, hrej, prekey, hprekey, rfl⟩
    exact h.refused uploadId prekeys hb hrej prekey hprekey hout
  · rw [hrejected] at hnot
    refine (hkept _ (h.kept uploadId prekeys (hbatch _ _ hb) hnot prekey hprekey)).resolve_right ?_
    rintro ⟨uploadId', prekeys', hb', hrej, prekey', hprekey', heq⟩
    refine h.apart uploadId' uploadId prekeys' prekeys hb'
      (hbatch _ _ hb) ?_ prekey' hprekey' prekey hprekey heq
    rintro rfl
    exact hnot hrej
  · rw [hdb]
    exact h.refused uploadId prekeys (hbatch _ _ hb) ((hrejected uploadId).mp hrej)
  · rw [hreplies] at hreply
    obtain ⟨prekeys, hsent⟩ := h.answered uploadId accepted remaining hreply
    exact ⟨prekeys, hrequests hsent⟩

theorem mem_fileGenerated {m : Manager K Sec C} {env : UploadEnv Sec}
    (hstale : NoneStale m env.cutoffNow) {generated : List (UInt32 × OneTimePreKey Sec)}
    (nextId : UInt32) {keyId : UInt32} : keyId ∈ (fileGenerated generated nextId env m).storedOpks ↔
      keyId ∈ generated.map Prod.fst ∨ keyId ∈ m.storedOpks := by
  unfold fileGenerated
  rw [HMap.mem_insertAll, HMap.mem_filter_key, hstale keyId]
  simp

/-- The client makes a new batch. -/
theorem Supply.generate (h : Supply S digest me s) {env : UploadEnv Sec}
    (hunused : s.Unused env.uploadId) (hstale : NoneStale s.manager env.cutoffNow)
    {generated : List (UInt32 × OneTimePreKey Sec)} {nextId : UInt32}
    (hgen : Generated S s.manager env generated nextId)
    (hnew : env.uploadId ∉ s.manager.store.outbox.map Prod.fst) {calls : List (Call K Sec C)}
    (hcalls : s.calls ⊆ calls) {messages : List (ClientMessage C)}
    (hmessages : messages ⊆ [(env.item generated).toClientMessage]) :
    Supply S digest me
      { s with
        manager := (fileGenerated generated nextId env s.manager).filed (env.item generated)
        calls := calls
        requests := s.requests ++ messages } := by
  obtain ⟨prunedAt, hdurable⟩ := h.durable
  have hdurable' := hdurable.outcome
    (.replenished (.queuePrekeyReplenishment env) env generated nextId hgen hnew rfl)
  have hunsent : ∀ prekeys, .uploadPreKeys env.uploadId prekeys ∉ s.requests :=
    fun prekeys hsent => (hunused _ hsent).2 prekeys rfl
  have hunfiled : ∀ prekeys, .preKeyUpload env.uploadId prekeys ∉ s.manager.pendingOutbound := by
    intro prekeys hitem
    obtain ⟨row, hrow, heq⟩ := List.mem_map.mp (hdurable.outbox.perm.mem_iff.mpr hitem)
    exact hnew (List.mem_map.mpr ⟨row, hrow, (hdurable.outbox.keyed row hrow).trans (heq ▸ rfl)⟩)
  have hbatch : ∀ uploadId prekeys,
      (.preKeyUpload uploadId prekeys ∈ s.manager.pendingOutbound ++ [env.item generated] ∨
        .uploadPreKeys uploadId prekeys ∈ s.requests ++ messages) →
      s.Batch uploadId prekeys ∧ uploadId ≠ env.uploadId ∨
        uploadId = env.uploadId ∧ prekeys = generated.map publicPrekey := by
    rintro uploadId prekeys (hitem | hsent)
    · rcases List.mem_append.mp hitem with hitem | hitem
      · exact .inl ⟨.inl hitem, by rintro rfl; exact hunfiled prekeys hitem⟩
      · cases List.mem_singleton.mp hitem
        exact .inr ⟨rfl, rfl⟩
    · rcases List.mem_append.mp hsent with hsent | hsent
      · exact .inl ⟨.inr hsent, by rintro rfl; exact hunsent prekeys hsent⟩
      · cases List.mem_singleton.mp (hmessages hsent)
        exact .inr ⟨rfl, rfl⟩
  have hids : ∀ prekey ∈ generated.map publicPrekey, prekey.keyId ∈ generated.map Prod.fst := by
    intro prekey hprekey
    obtain ⟨entry, hentry, rfl⟩ := List.mem_map.mp hprekey
    exact List.mem_map_of_mem hentry
  -- the ids of a batch are below the next one, and the new ones are not
  have hapart : ∀ uploadId prekeys, s.Batch uploadId prekeys → ∀ prekey ∈ prekeys,
      ∀ prekey' ∈ generated.map publicPrekey, prekey.keyId ≠ prekey'.keyId :=
    fun uploadId prekeys hb prekey hprekey prekey' hprekey' heq =>
      hgen.notMem (h.below uploadId prekeys hb prekey hprekey) (heq ▸ hids prekey' hprekey')
  have hkept : ∀ keyId, s.Kept S keyId → Link.Kept S
      { s with
        manager := (fileGenerated generated nextId env s.manager).filed (env.item generated)
        calls := calls
        requests := s.requests ++ messages } keyId := by
    rintro keyId (hheld | ⟨call, hcall, huses⟩)
    · exact .inl ((mem_fileGenerated hstale nextId).mpr (.inr hheld))
    · exact .inr ⟨call, hcalls hcall, huses⟩
  have hnext : s.manager.nextOneTimePrekeyId ≤ nextId :=
    UInt32.le_iff_toNat_le.mpr (by have := checkedAdd_eq_some hgen.next; omega)
  refine
    { durable := ⟨_, hdurable'⟩
      issuance := h.issuance
      outstanding := fun keyId hout => hkept keyId (h.outstanding keyId hout)
      below := fun uploadId prekeys hb prekey hprekey => ?_
      same := fun uploadId prekeys prekeys' hb hb' => ?_
      apart :=
        fun uploadId uploadId' prekeys prekeys' hb hb' hne prekey hprekey prekey' hprekey' => ?_
      kept := fun uploadId prekeys hb hnot prekey hprekey => ?_
      refused := fun uploadId prekeys hb hrej prekey hprekey => ?_
      answered := fun uploadId accepted remaining hreply => ?_ }
  · rcases hbatch _ _ hb with ⟨hb, -⟩ | ⟨-, rfl⟩
    · exact le_trans (h.below uploadId prekeys hb prekey hprekey) hnext
    · exact hdurable'.sound.opkBelow _
        ((mem_fileGenerated hstale nextId).mpr (.inl (hids prekey hprekey)))
  · rcases hbatch _ _ hb with ⟨hb, hne⟩ | ⟨rfl, rfl⟩ <;>
      rcases hbatch _ _ hb' with ⟨hb', hne'⟩ | ⟨heq, rfl⟩
    · exact h.same uploadId prekeys prekeys' hb hb'
    · exact absurd heq hne
    · exact absurd rfl hne'
    · rfl
  · rcases hbatch _ _ hb with ⟨hb, -⟩ | ⟨rfl, rfl⟩ <;>
      rcases hbatch _ _ hb' with ⟨hb', -⟩ | ⟨rfl, rfl⟩
    · exact h.apart uploadId uploadId' prekeys prekeys' hb hb' hne prekey hprekey prekey' hprekey'
    · exact hapart uploadId prekeys hb prekey hprekey prekey' hprekey'
    · exact (hapart uploadId' prekeys' hb' prekey' hprekey' prekey hprekey).symm
    · exact absurd rfl hne
  · rcases hbatch _ _ hb with ⟨hb, -⟩ | ⟨-, rfl⟩
    · exact hkept _ (h.kept uploadId prekeys hb hnot prekey hprekey)
    · exact .inl ((mem_fileGenerated hstale nextId).mpr (.inl (hids prekey hprekey)))
  · rcases hbatch _ _ hb with ⟨hb, -⟩ | ⟨rfl, -⟩
    · exact h.refused uploadId prekeys hb hrej prekey hprekey
    · obtain ⟨remaining, hreply⟩ := hrej
      obtain ⟨prekeys', hsent⟩ := h.answered _ _ _ hreply
      exact absurd hsent (hunsent prekeys')
  · obtain ⟨prekeys, hsent⟩ := h.answered uploadId accepted remaining hreply
    exact ⟨prekeys, List.mem_append_left _ hsent⟩

/-- Sending the outbox again, or a part of it. -/
theorem Supply.send (h : Supply S digest me s) {calls : List (Call K Sec C)}
    (hcalls : s.calls ⊆ calls) {messages : List (ClientMessage C)}
    (hmessages : messages ⊆ s.manager.pendingMessages) :
    Supply S digest me { s with calls := calls, requests := s.requests ++ messages } := by
  refine h.client h.durable rfl rfl rfl hcalls (List.subset_append_left _ _) ?_ (le_refl _)
    fun keyId hheld => .inl (.inl hheld)
  rintro uploadId prekeys (hitem | hsent)
  · exact .inl hitem
  · rcases List.mem_append.mp hsent with hsent | hsent
    · exact .inr hsent
    · obtain ⟨item, hitem, hmessage⟩ := List.mem_map.mp (hmessages hsent)
      cases item with
      | preKeyUpload =>
        cases hmessage
        exact .inl hitem
      | _ => cases hmessage

theorem Supply.queue (h : Supply S digest me s) (texts : List MessageId → Bytes)
    {env : UploadEnv Sec} (hunused : s.Unused env.uploadId)
    (hstale : NoneStale s.manager env.cutoffNow) :
    Supply S digest me (s.perform S texts (.queuePrekeyReplenishment env)) := by
  obtain ⟨prunedAt, hdurable⟩ := h.durable
  rw [Link.perform_map S texts rfl]
  rcases queuePrekeyReplenishment_cases S env s.manager hdurable.sound with
    ⟨e, hrun⟩ | ⟨upload, hupload, -, hrun⟩ | ⟨generated, nextId, hgen, hnew, hrun⟩
  · rw [hrun]
    exact h.send (List.subset_append_left _ _) (List.nil_subset _)
  · rw [hrun]
    refine h.send (List.subset_append_left _ _) (List.cons_subset.mpr ⟨?_, List.nil_subset _⟩)
    exact List.mem_map_of_mem hupload
  · rw [hrun]
    exact h.generate hunused hstale hgen hnew (List.subset_append_left _ _) (List.Subset.refl _)

variable {prekeys : List PublicOneTimePreKey}

/-- The client takes an item out of the outbox, with the keys of a rejected batch. -/
theorem Supply.unfile (h : Supply S digest me s) {index : Nat} {uploadId : MessageId}
    (hitem : s.manager.pendingOutbound[index]? = some (.preKeyUpload uploadId prekeys)) :
    Supply S digest me { s with manager := s.manager.unfiled index uploadId } := by
  obtain ⟨prunedAt, hdurable⟩ := h.durable
  refine h.client ⟨_, hdurable.outcome (S := S) (.confirmed (.confirmMessageSent uploadId false)
    index _ hitem rfl)⟩ rfl rfl rfl (List.Subset.refl _) (List.Subset.refl _) ?_ (le_refl _)
    fun keyId hheld => .inl (.inl hheld)
  rintro uploadId' prekeys' (hmem | hsent)
  · exact .inl (List.mem_of_mem_eraseIdx hmem)
  · exact .inr hsent

theorem Supply.drop (h : Supply S digest me s) {index : Nat} {uploadId : MessageId}
    (hitem : s.manager.pendingOutbound[index]? = some (.preKeyUpload uploadId prekeys))
    (hrejected : s.Rejected uploadId) :
    Supply S digest me
      { s with
        manager :=
          (dropRejected (prekeys.map (·.keyId)) s.manager).saved.unfiled index uploadId } := by
  obtain ⟨prunedAt, hdurable⟩ := h.durable
  refine h.client
    ⟨_, hdurable.outcome (S := S) (.uploadRejected (.confirmMessageSent uploadId false)
    index _ (prekeys.map (·.keyId)) hitem rfl)⟩ rfl rfl rfl (List.Subset.refl _)
      (List.Subset.refl _) ?_
    (le_refl _) fun keyId hheld => ?_
  · rintro uploadId' prekeys' (hmem | hsent)
    · exact .inl (List.mem_of_mem_eraseIdx hmem)
    · exact .inr hsent
  · by_cases hid : keyId ∈ prekeys.map (·.keyId)
    · obtain ⟨prekey, hprekey, heq⟩ := List.mem_map.mp hid
      exact .inr ⟨uploadId, prekeys, .inl (List.mem_of_getElem? hitem), hrejected, prekey,
        hprekey, heq⟩
    · exact .inl (.inl ((HMap.mem_removeAll _ _ _).mpr ⟨hheld, hid⟩))

theorem Supply.confirm (h : Supply S digest me s) (texts : List MessageId → Bytes)
    {uploadId : MessageId} {accepted : Bool} {remaining : UInt32} {env : UploadEnv Sec}
    (fails : Bool) (hreply : .preKeysUploaded uploadId accepted remaining ∈ s.replies)
    (hunused : s.Unused env.uploadId) (hstale : NoneStale s.manager env.cutoffNow) :
    Supply S digest me
      (s.perform S texts (.confirmPrekeysUploaded uploadId accepted remaining env fails)) := by
  obtain ⟨prunedAt, hdurable⟩ := h.durable
  rw [Link.perform_map S texts rfl]
  have hanswered := confirmPrekeysUploaded_cases S uploadId accepted remaining env fails s.manager
  generalize EStateM.run (confirmPrekeysUploaded S uploadId accepted remaining env fails)
    s.manager = result at hanswered ⊢
  have hsend : ∀ {messages : List (ClientMessage C)}, messages ⊆ s.manager.pendingMessages →
      ∀ op, Supply S digest me
        { s with calls := s.calls ++ [⟨s.manager, op⟩], requests := s.requests ++ messages } :=
    fun hmessages op => h.send (List.subset_append_left _ _) hmessages
  cases hanswered with
  | unknown | failed e => exact hsend (List.nil_subset _) _
  | undone e _ hunsound => exact absurd hdurable.sound hunsound
  | confirmed index prekeys hitem => exact (hsend (List.nil_subset _) _).unfile hitem
  | resent index prekeys hitem _ _ upload hupload =>
    refine (hsend (List.cons_subset.mpr ⟨?_, List.nil_subset _⟩) _).unfile hitem
    exact List.mem_map_of_mem (List.mem_of_mem_eraseIdx hupload)
  | replaced index prekeys hitem _ _ generated nextId hgen hnew =>
    have hstill : (s.manager.pendingOutbound ++ [env.item generated])[index]? =
        some (.preKeyUpload uploadId prekeys) := by
      obtain ⟨hlt, -⟩ := List.getElem?_eq_some_iff.mp hitem
      exact (List.getElem?_append_left hlt).trans hitem
    exact (h.generate hunused hstale hgen hnew (List.subset_append_left _ _)
      (List.Subset.refl _)).unfile hstill
  | kept e generated nextId hgen hnew =>
    exact h.generate hunused hstale hgen hnew (List.subset_append_left _ _) (List.nil_subset _)
  | rejected index prekeys hitem hrejected =>
    subst hrejected
    exact (hsend (List.nil_subset _) _).drop hitem ⟨remaining, hreply⟩

theorem Supply.decrypt (h : Supply S digest me s) (texts : List MessageId → Bytes)
    (peerId : UserId) (messageId : MessageId) (envelope : EncryptedEnvelope C)
    (env : DecryptEnv Sec) :
    Supply S digest me
      (s.perform S texts (.decryptMessageToText peerId messageId envelope env)) := by
  obtain ⟨prunedAt, hdurable⟩ := h.durable
  rw [Link.perform_map S texts rfl]
  obtain ⟨answer, m, hrun, hresult⟩ := decryptMessageToText_result S peerId messageId envelope env
    s.manager
  have hdurable' := hdurable.outcome hresult.outcome
  rw [hrun]
  show Supply S digest me
    { s with
      manager := m
      calls := s.calls ++ [⟨s.manager, .decryptMessageToText peerId messageId envelope env⟩]
      requests := s.requests ++ [] }
  -- a decrypted message may have taken its prekey, and nothing else concerns the prekeys
  have hchange : m.pendingOutbound = s.manager.pendingOutbound ∧
      m.nextOneTimePrekeyId = s.manager.nextOneTimePrekeyId ∧
      ∀ keyId ∈ s.manager.storedOpks, keyId ∈ m.storedOpks ∨
        Call.Uses S ⟨s.manager, .decryptMessageToText peerId messageId envelope env⟩ keyId := by
    cases hresult with
    | decrypted plaintext session opkId hopens =>
      unfold Manager.marked Manager.opened
      rw [takeOneTimePrekey_eq]
      refine ⟨rfl, rfl, fun keyId hheld => ?_⟩
      by_cases hid : opkId = some keyId
      · subst hid
        exact .inr ⟨peerId, messageId, envelope, env, plaintext, session, _, rfl, hopens, hrun⟩
      · left
        cases opkId with
        | none => exact hheld
        | some id => exact Finmap.mem_erase.mpr ⟨fun heq => hid (heq ▸ rfl), hheld⟩
    | _ => exact ⟨rfl, rfl, fun keyId hheld => .inl hheld⟩
  obtain ⟨hpending, hnext, hopks⟩ := hchange
  refine h.client ⟨_, hdurable'⟩ rfl rfl rfl (List.subset_append_left _ _)
    (List.subset_append_left _ _) ?_ (le_of_eq hnext.symm) fun keyId hheld => .inl ?_
  · rintro uploadId prekeys (hitem | hsent)
    · exact .inl (hpending ▸ hitem)
    · rw [List.append_nil] at hsent
      exact .inr hsent
  · rcases hopks keyId hheld with hheld | huses
    · exact .inl hheld
    · exact .inr ⟨_, List.mem_append_right _ (List.mem_singleton_self _), huses⟩

theorem Supply.reload (h : Supply S digest me s) {loadedAt cutoffNow pruneNow : Nat}
    {m : Manager K Sec C}
    (hload : loadOrGenerate s.manager.identity s.manager.store loadedAt cutoffNow pruneNow false =
      .ok m) : Supply S digest me { s with manager := m } := by
  obtain ⟨prunedAt, hdurable⟩ := h.durable
  rw [hdurable.load] at hload
  cases hload
  refine h.client ⟨_, hdurable.reloaded cutoffNow pruneNow⟩ rfl rfl rfl (List.Subset.refl _)
    (List.Subset.refl _) ?_ (le_refl _) fun keyId hheld => .inl (.inl hheld)
  rintro uploadId prekeys (hitem | hsent)
  · exact .inl (hdurable.outbox.perm.mem_iff.mp hitem)
  · exact .inr hsent

/-! ## The relay -/

/-- A step of the relay: keys become outstanding with a batch that was not rejected before,
and the batch of a new rejection is not outstanding. -/
theorem Supply.relay (h : Supply S digest me s) {db : Db C D} {log : List (Entry C D)}
    (reply : Option (ServerMessage C)) (notices : List UInt32) (hissuance : Issuance digest log db)
    (hpublished : ∀ keyId, Outstanding me db keyId → Outstanding me s.db keyId ∨
      ∃ uploadId prekeys, s.Batch uploadId prekeys ∧ ¬s.Rejected uploadId ∧
        ∃ prekey ∈ prekeys, prekey.keyId = keyId)
    (hreply : ∀ uploadId accepted remaining,
      reply = some (.preKeysUploaded uploadId accepted remaining) →
        ∃ prekeys, .uploadPreKeys uploadId prekeys ∈ s.requests ∧
          (accepted = false → ∀ prekey ∈ prekeys, ¬Outstanding me db prekey.keyId)) :
    Supply S digest me
      { s with notices := notices, replies := s.replies ++ reply.toList, db := db, log :=
        log } := by
  have hrejected : ∀ uploadId,
      (∃ remaining, .preKeysUploaded uploadId false remaining ∈ s.replies ++ reply.toList) →
      s.Rejected uploadId ∨ ∃ remaining, reply =
        some (.preKeysUploaded uploadId false remaining) := by
    rintro uploadId ⟨remaining, hmem⟩
    rcases List.mem_append.mp hmem with hmem | hmem
    · exact .inl ⟨remaining, hmem⟩
    · exact .inr ⟨remaining, Option.mem_toList.mp hmem⟩
  refine
    { durable := h.durable
      issuance := hissuance
      outstanding := fun keyId hout => ?_
      below := h.below
      same := h.same
      apart := h.apart
      kept := fun uploadId prekeys hb hnot => h.kept uploadId prekeys hb fun hrej => hnot ?_
      refused := fun uploadId prekeys hb hrej prekey hprekey hout => ?_
      answered := fun uploadId accepted remaining hmem => ?_ }
  · rcases hpublished keyId hout with hout | ⟨uploadId, prekeys, hb, hnot, prekey, hprekey, rfl⟩
    · exact h.outstanding keyId hout
    · exact h.kept uploadId prekeys hb hnot prekey hprekey
  · obtain ⟨remaining, hmem⟩ := hrej
    exact ⟨remaining, List.mem_append_left _ hmem⟩
  · rcases hrejected uploadId hrej with hrej | ⟨remaining, hnow⟩
    · rcases hpublished _ hout with hout | ⟨uploadId', prekeys', hb', hnot, prekey', hprekey', heq⟩
      · exact h.refused uploadId prekeys hb hrej prekey hprekey hout
      · refine h.apart uploadId uploadId' prekeys prekeys' hb hb' ?_ prekey hprekey prekey' hprekey'
          heq.symm
        rintro rfl
        exact hnot hrej
    · obtain ⟨prekeys', hsent, hrefused⟩ := hreply _ _ _ hnow
      cases h.same uploadId prekeys prekeys' hb (.inr hsent)
      exact hrefused rfl prekey hprekey hout
  · rcases List.mem_append.mp hmem with hmem | hmem
    · exact h.answered uploadId accepted remaining hmem
    · obtain ⟨prekeys, hsent, -⟩ := hreply _ _ _ (Option.mem_toList.mp hmem)
      exact ⟨prekeys, hsent⟩

theorem serve_issuance {log : List (Entry C D)} {db : Db C D} (h : Issuance digest log db)
    (pageLen : InboundMessage C → Nat → Nat) (message : ClientMessage C) (env : RelayEnv)
    (fails : Bool) :
    let handling := handleMessage S pageLen me env db message
    Issuance digest (log ++ handling.entries fails db) (handling.run digest fails db).2 := by
  intro handling
  cases hx : handling with
  | reply reply => simpa [Handling.entries, Handling.run] using h
  | transact t respond =>
    cases fails with
    | true => simpa [Handling.entries, Handling.run] using h
    | false => exact h.step (handleMessage_serves hx).decoded

theorem serve_published (pageLen : InboundMessage C → Nat → Nat) {message : ClientMessage C}
    {env : RelayEnv} {fails : Bool} {db : Db C D} {keyId : UInt32}
    (hout :
      Outstanding me ((handleMessage S pageLen me env db message).run digest fails db).2 keyId) :
    Outstanding me db keyId ∨ ∃ uploadId prekeys, message = .uploadPreKeys uploadId prekeys ∧
      ∃ prekey ∈ prekeys, prekey.keyId = keyId := by
  cases hx : handleMessage S pageLen me env db message with
  | reply reply =>
    rw [hx] at hout
    exact .inl hout
  | transact t respond =>
    rw [hx] at hout
    cases fails with
    | true => exact .inl hout
    | false =>
      refine ((t.effect digest db).outstanding_from hout).imp_right ?_
      rintro ⟨batch, hbatch, hmem⟩
      obtain ⟨uploadId, prekeys, rfl, hids⟩ := (handleMessage_serves hx).published hbatch
      exact ⟨uploadId, prekeys, rfl, List.mem_map.mp (hids ▸ hmem)⟩

/-- The keys of a rejected upload are not outstanding. -/
theorem serve_rejected {log : List (Entry C D)} {db : Db C D} (h : Issuance digest log db)
    (pageLen : InboundMessage C → Nat → Nat) {uploadId : MessageId}
    {prekeys : List PublicOneTimePreKey} {env : RelayEnv} {fails : Bool} {remaining : UInt32}
    (hreply :
      ((handleMessage S pageLen me env db (.uploadPreKeys uploadId prekeys)).run digest fails
      db).1 = some (.preKeysUploaded uploadId false remaining)) :
    ∀ prekey ∈ prekeys, ¬Outstanding me
      ((handleMessage S pageLen me env db (.uploadPreKeys uploadId prekeys)).run digest fails db).2
      prekey.keyId := by
  rcases handleUpload_cases S pageLen me env db uploadId prekeys with
    ⟨code, text, hx⟩ | ⟨pairs, hdecoded, -, hx⟩
  · rw [hx] at hreply
    cases hreply
  rw [hx] at hreply ⊢
  cases fails with
  | true => cases hreply
  | false =>
    have heffect := Transaction.effect digest
      (.uploadPrekeys me pairs MAX_PREKEYS_PER_USER env.unixepoch env.createdAt) db
    simp only [Handling.run, Bool.false_eq_true, if_false] at hreply ⊢
    generalize Transaction.answer? digest _ db = answer, Transaction.after digest _ db = db'
      at heffect hreply ⊢
    cases heffect with
    | failed => cases hreply
    | uploaded _ _ _ _ _ result _ huploaded =>
      cases result with
      | inventoryFull =>
        obtain ⟨rfl, hunmarked⟩ := huploaded.unmarked
        intro prekey hprekey hout
        refine hunmarked prekey.keyId ?_ (h.marked_of_outstanding hout)
        rw [ids_of_decodePrekeys hdecoded]
        exact List.mem_map_of_mem hprekey
      | _ => cases hreply

theorem Supply.serve (h : Supply S digest me s) (pageLen : InboundMessage C → Nat → Nat)
    {message : ClientMessage C} (hmessage : message ∈ s.requests) (hagain : NotAgain s message)
    (env : RelayEnv) (fails : Bool) :
    Supply S digest me (s.serve S pageLen me digest message env fails) := by
  refine h.relay _ s.notices (serve_issuance h.issuance pageLen message env fails)
    (fun keyId hout => ?_) fun uploadId accepted remaining hreply => ?_
  · refine (serve_published pageLen hout).imp_right ?_
    rintro ⟨uploadId, prekeys, rfl, hmem⟩
    exact ⟨uploadId, prekeys, .inr hmessage, hagain uploadId prekeys rfl, hmem⟩
  · obtain ⟨prekeys, rfl⟩ := handleMessage_answers.run hreply
    refine ⟨prekeys, hmessage, ?_⟩
    rintro rfl
    exact serve_rejected h.issuance pageLen hreply

theorem Supply.transact (h : Supply S digest me s) {t : Transaction C} (hothers : OfOthers me t)
    (hdecoded : t.Decoded) (unixepoch : Nat) :
    Supply S digest me (s.transact me digest t unixepoch) := by
  have hrelay := h.relay none (s.transact me digest t unixepoch).notices (h.issuance.step hdecoded)
    (fun keyId hout => .inl ?_) nofun
  · rw [Option.toList_none, List.append_nil] at hrelay
    exact hrelay
  · refine ((t.effect digest s.db).outstanding_from hout).resolve_right ?_
    rintro ⟨batch, hbatch, -⟩
    exact hothers.not_published hbatch

theorem Supply.run {texts : List MessageId → Bytes} {pageLen : InboundMessage C → Nat → Nat}
    (run : Link.Run S texts pageLen me digest (Link.Supplied digest me) UploadOps NotAgain s) :
    Supply S digest me s := by
  induction run with
  | start hstart => exact .start hstart
  | perform run op hadmits ih =>
    cases op with
    | queuePrekeyReplenishment env => exact ih.queue texts hadmits.2.1 hadmits.2.2
    | confirmPrekeysUploaded uploadId accepted remaining env fails =>
      exact ih.confirm texts fails hadmits.1 hadmits.2.1 hadmits.2.2
    | decryptMessageToText peerId messageId envelope env =>
      exact ih.decrypt texts peerId messageId envelope env
    | _ => exact hadmits.elim
  | resend run ih => exact ih.send (List.Subset.refl _) (List.Subset.refl _)
  | serve run message hmessage hagain env fails ih =>
    exact ih.serve pageLen hmessage hagain env fails
  | restart run loadedAt cutoffNow pruneNow m hload ih => exact ih.reload hload
  | transact run t hothers hdecoded unixepoch ih => exact ih.transact hothers hdecoded unixepoch

end Steps

/-- **Published keys keep their private half.** In every run in which no rejected upload
reaches the relay again, a key of the user that the relay stores or has reserved is held by
the client, unless it has decrypted a first message with it. -/
theorem outstanding_prekeys_kept {S : IdentitySuite K Sec C} {texts : List MessageId → Bytes}
    {pageLen : InboundMessage C → Nat → Nat} {digest : EncryptedEnvelope C → D} {me : UserId}
    {s : Link K Sec C D}
    (run : Link.Run S texts pageLen me digest (Link.Supplied digest me) UploadOps NotAgain s)
    {keyId : UInt32} (hout : Outstanding me s.db keyId) (hunused : ¬s.Used S keyId) :
    keyId ∈ s.manager.storedOpks :=
  ((Supply.run run).outstanding keyId hout).resolve_right hunused

end Cmp.System
