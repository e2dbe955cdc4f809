import Cmp.Client.KeyUse
import Cmp.Relay.SignedPrekeys
import Cmp.System.Link

/-! Signed prekeys between a client and the relay. The client draws a key only after the
one before has been confirmed, so that the relay never has a reason to refuse the newest:
what it has accepted is a history of the client's keys, and the client holds its front. -/

namespace Cmp.System

open Cmp.Crypto Cmp.Protocol Cmp.Lib Cmp.Lib.Action Cmp.Client Cmp.Relay

variable {K Sec C D : Type}

/-- `stored_spk` and `previous_spks`. -/
def heldSpks (m : Manager K Sec C) : List (SignedPreKey Sec) :=
  m.storedSpk.toList ++ m.previousSpks

/-- The registration keys are persisted, and the relay stores the same signed prekey. -/
structure Link.Registered (S : IdentitySuite K Sec C) (me : UserId) (spk : SignedPreKey Sec)
    (s : Link K Sec C D) : Prop where
  durable : ∃ prunedAt, s.manager.Durable prunedAt
  stored : s.manager.storedSpk = some spk
  previous : s.manager.previousSpks = []
  genuine : S.toPublic spk.secret = spk.publicKey
  idle : ∀ item ∈ s.manager.pendingOutbound, isRotation item = false
  retained : s.db.Retains me [spkRow me spk]
  requests : s.requests = []
  replies : s.replies = []
  log : s.log = []

/-- The operations on signed prekeys: a rotation under a new id, and the answer to a reply
of the relay. -/
def RotationOps (s : Link K Sec C D) : Op Sec C → Prop
  | .queueSignedPrekeyRotation _ _ rotationId _ => s.Unused rotationId
  | .confirmSignedPrekeyRotated rotationId accepted previouslyAccepted currentKeyId _ _ newId _ =>
    .signedPreKeyRotated rotationId accepted previouslyAccepted currentKeyId ∈ s.replies ∧
      s.Unused newId
  | _ => False

/-! ## The client -/

/-- `candidate` is the rotation in the outbox with its key, and `older` are the keys that
have been confirmed before, newest first. -/
structure ClientKeys (S : IdentitySuite K Sec C) (m : Manager K Sec C)
    (candidate : Option (MessageId × SignedPreKey Sec)) (older : List (SignedPreKey Sec)) :
    Prop where
  durable : ∃ prunedAt, m.Durable prunedAt
  pending : m.pendingOutbound.filter isRotation =
    candidate.toList.map fun c => rotationItem c.1 c.2
  held : ∃ current, m.storedSpk = some current ∧
    current :: m.previousSpks = candidate.toList.map Prod.snd ++ older.take 4
  sorted : (candidate.toList.map Prod.snd ++ older).Pairwise
    fun newer older => older.keyId < newer.keyId
  genuine : ∀ spk ∈ candidate.toList.map Prod.snd ++ older, S.toPublic spk.secret = spk.publicKey
  started : older ≠ []

theorem lt_of_nextRotationIds {m : Manager K Sec C} {current : SignedPreKey Sec}
    {keyId nextKeyId : UInt32} (h : nextRotationIds m = .ok (current, keyId, nextKeyId)) :
    m.storedSpk = some current ∧ current.keyId < keyId := by
  refine ⟨(storedSpk_of_nextRotationIds h).1, ?_⟩
  unfold nextRotationIds at h
  split at h
  · cases h
  split at h
  · cases h
  next successor hsuccessor =>
  dsimp only at h
  split at h
  · cases h
  cases h
  refine lt_of_lt_of_le (UInt32.lt_iff_toNat_lt.mpr ?_) (le_max_right _ successor)
  rw [checkedAdd_eq_some hsuccessor]
  exact Nat.lt_succ_self _

/-- Taking out the only item of a kind leaves none. -/
theorem filter_eraseIdx_eq_nil {α : Type} {p : α → Bool} {a b : α} :
    ∀ {l : List α} {index : Nat}, l[index]? = some a → p a = true → l.filter p = [b] →
      (l.eraseIdx index).filter p = [] := by
  intro l
  induction l with
  | nil => intro index h; cases h
  | cons x l ih =>
    intro index h hp hfilter
    cases index with
    | zero =>
      cases h
      rw [List.filter_cons_of_pos hp] at hfilter
      exact (List.cons.inj hfilter).2
    | succ index =>
      rw [List.eraseIdx_cons_succ]
      cases hx : p x with
      | false =>
        rw [List.filter_cons_of_neg (by simp [hx])] at hfilter ⊢
        exact ih h hp hfilter
      | true =>
        rw [List.filter_cons_of_pos hx] at hfilter
        have hnil := (List.cons.inj hfilter).2
        exact absurd (List.filter_eq_nil_iff.mp hnil a (List.mem_of_getElem? h)) (by simp [hp])

variable {rotationId : MessageId} {spk : SignedPreKey Sec}

section Client

variable {S : IdentitySuite K Sec C} {m : Manager K Sec C}
  {candidate : Option (MessageId × SignedPreKey Sec)} {older : List (SignedPreKey Sec)}

theorem ClientKeys.rotationItem_mem (h : ClientKeys S m candidate older) {keyId : UInt32}
    {publicKey signature : B64Text Bytes}
    (hitem : .signedPreKeyRotation rotationId keyId publicKey signature ∈ m.pendingOutbound) :
    ∃ spk, candidate = some (rotationId, spk) ∧
      .signedPreKeyRotation rotationId keyId publicKey signature =
        (rotationItem rotationId spk : PendingOutbound C) := by
  have hmem := List.mem_filter.mpr ⟨hitem, (rfl : isRotation _ = true)⟩
  rw [h.pending] at hmem
  cases candidate with
  | none => exact absurd hmem List.not_mem_nil
  | some c =>
    have heq := List.mem_singleton.mp hmem
    obtain ⟨id, spk⟩ := c
    cases heq
    exact ⟨spk, rfl, rfl⟩

theorem ClientKeys.idle (h : ClientKeys S m candidate older)
    (hidle : ∀ item ∈ m.pendingOutbound, isRotation item = false) : candidate = none := by
  have hnil : m.pendingOutbound.filter isRotation = [] :=
    List.filter_eq_nil_iff.mpr fun item hitem => by simp [hidle item hitem]
  cases candidate with
  | none => rfl
  | some c =>
    rw [h.pending] at hnil
    cases hnil

theorem ClientKeys.quiet (h : ClientKeys S m none older) :
    ∀ item ∈ m.pendingOutbound, isRotation item = false := by
  have hnil := h.pending
  intro item hitem
  by_contra hkind
  have hmem := List.mem_filter.mpr ⟨hitem, eq_true_of_ne_false hkind⟩
  rw [hnil] at hmem
  cases hmem

/-- A new rotation is in front of the older keys. -/
theorem ClientKeys.rotate (h : ClientKeys S m none older) {current : SignedPreKey Sec}
    {keyId nextKeyId : UInt32} (hids : nextRotationIds m = .ok (current, keyId, nextKeyId))
    (now : Nat) (drawn : Sec) (hnew : rotationId ∉ m.store.outbox.map Prod.fst) :
    ClientKeys S
      ((m.rotated S current keyId nextKeyId now drawn).filed
        (rotationItem rotationId (SignedPreKey.generate S keyId m.identity drawn)))
      (some (rotationId, SignedPreKey.generate S keyId m.identity drawn)) older := by
  obtain ⟨hstored, hlt⟩ := lt_of_nextRotationIds hids
  obtain ⟨top, htop, hheld⟩ := h.held
  cases hstored.symm.trans htop
  have hheld' : current :: m.previousSpks = older.take 4 := hheld
  have hfront : ∃ rest, older = current :: rest := by
    cases older with
    | nil => cases hheld'
    | cons spk rest =>
      obtain ⟨rfl, -⟩ := List.cons.inj hheld'
      exact ⟨rest, rfl⟩
  obtain ⟨rest, rfl⟩ := hfront
  obtain ⟨prunedAt, hdurable⟩ := h.durable
  have hsorted : (current :: rest).Pairwise fun newer older => older.keyId < newer.keyId := h.sorted
  refine ⟨⟨_, hdurable.outcome (.rotated now drawn rotationId false current keyId nextKeyId hids
    hnew h.quiet)⟩, ?_, ⟨_, rfl, congrArg (List.cons _) hheld'⟩, ?_, ?_, h.started⟩
  · show (m.pendingOutbound ++ [_]).filter isRotation = _
    rw [List.filter_append, h.pending]
    rfl
  · refine List.pairwise_cons.mpr ⟨fun spk hspk => ?_, hsorted⟩
    rcases List.mem_cons.mp hspk with rfl | hspk
    · exact hlt
    · exact lt_trans ((List.pairwise_cons.mp hsorted).1 spk hspk) hlt
  · intro spk hspk
    rcases List.mem_cons.mp hspk with rfl | hspk
    · rfl
    · exact h.genuine spk hspk

/-- A confirmed key is one of the older ones. -/
theorem ClientKeys.confirm (h : ClientKeys S m (some (rotationId, spk)) older) {index : Nat}
    (hitem : m.pendingOutbound[index]? = some (rotationItem rotationId spk)) :
    ClientKeys S
      ((Manager.saved
        { m with previousSpks := m.previousSpks.take SIGNED_PREKEY_PRIVATE_HISTORY }).unfiled index
          rotationId) none (spk :: older) := by
  obtain ⟨current, hstored, hheld⟩ := h.held
  have hheld' : current :: m.previousSpks = spk :: older.take 4 := hheld
  obtain ⟨rfl, hprevious⟩ := List.cons.inj hheld'
  obtain ⟨prunedAt, hdurable⟩ := h.durable
  have houtcome : Outcome S m (.confirmMessageSent rotationId false) [] _ :=
    .rotationAccepted _ index _ hitem
  refine ⟨⟨_, hdurable.outcome houtcome⟩, ?_,
    ⟨current, hstored, ?_⟩, h.sorted, h.genuine, List.cons_ne_nil _ _⟩
  · exact filter_eraseIdx_eq_nil hitem rfl h.pending
  · show current :: m.previousSpks.take 3 = (current :: older).take 4
    rw [hprevious, List.take_take]
    rfl

theorem ClientKeys.reload (h : ClientKeys S m candidate older) {loadedAt cutoffNow pruneNow : Nat}
    {m' : Manager K Sec C}
    (hload : loadOrGenerate m.identity m.store loadedAt cutoffNow pruneNow false = .ok m') :
    ClientKeys S m' candidate older := by
  obtain ⟨prunedAt, hdurable⟩ := h.durable
  rw [hdurable.load] at hload
  cases hload
  refine ⟨⟨_, hdurable.reloaded cutoffNow pruneNow⟩, ?_, h.held, h.sorted, h.genuine, h.started⟩
  -- at most one item is a rotation, so the order of the rows does not matter
  have hperm := hdurable.outbox.perm.filter isRotation
  rw [h.pending] at hperm
  cases candidate with
  | none => exact List.perm_nil.mp hperm
  | some c => exact List.perm_singleton.mp hperm

end Client

/-! ## The relay and the network -/

/-- A rotation that has been sent is the one in the outbox, or published a key of the
history under another id. -/
def Asks (candidate : Option (MessageId × SignedPreKey Sec)) (history : List (SignedPreKey Sec))
    (message : ClientMessage C) : Prop :=
  ∀ id keyId publicKey signature, message = .rotateSignedPreKey id keyId publicKey signature →
    ∃ spk, message = (rotationItem id spk).toClientMessage ∧
      (candidate = some (id, spk) ∨ spk ∈ history ∧ ∀ c, candidate = some c → c.1 ≠ id)

/-- Only the acceptance of the rotation in the outbox has ever been answered to it. -/
def Tells (candidate : Option (MessageId × SignedPreKey Sec))
    (older history : List (SignedPreKey Sec))
    (requests : List (ClientMessage C)) (reply : ServerMessage C) : Prop :=
  ∀ id accepted previously current,
    reply = .signedPreKeyRotated id accepted previously current →
    (∃ keyId publicKey signature, .rotateSignedPreKey id keyId publicKey signature ∈ requests) ∧
      ∀ c, candidate = some c → c.1 = id →
        accepted = true ∧ current = c.2.keyId ∧ history = c.2 :: older

variable [DecidableEq D]

/-- `history` are the keys the relay has accepted, newest first. -/
structure Agreement (S : IdentitySuite K Sec C) (digest : EncryptedEnvelope C → D) (me : UserId)
    (first : SignedPreKey Sec) (s : Link K Sec C D)
    (candidate : Option (MessageId × SignedPreKey Sec)) (older history : List (SignedPreKey Sec)) :
    Prop where
  client : ClientKeys S s.manager candidate older
  published : history = older ∨ ∃ c, candidate = some c ∧ history = c.2 :: older
  retained : s.db.Retains me ((history.map (spkRow me)).take 2)
  accepted : ∀ row, row ∈ acceptedSpks digest (spkRow me first) s.log ↔
    row ∈ history.map (spkRow me)
  requests : ∀ message ∈ s.requests, Asks candidate history message
  replies : ∀ reply ∈ s.replies, Tells candidate older history s.requests reply

section Steps

variable {S : IdentitySuite K Sec C} {digest : EncryptedEnvelope C → D} {me : UserId}
  {first : SignedPreKey Sec} {s : Link K Sec C D}
  {candidate : Option (MessageId × SignedPreKey Sec)} {older history : List (SignedPreKey Sec)}

theorem spkHistory_map {keys : List (SignedPreKey Sec)}
    (hsorted : keys.Pairwise fun newer older => older.keyId < newer.keyId) :
    SpkHistory me (keys.map (spkRow me)) where
  owner row hrow := by
    obtain ⟨spk, -, rfl⟩ := List.mem_map.mp hrow
    rfl
  sorted := List.pairwise_map.mpr hsorted

theorem Agreement.sorted (h : Agreement S digest me first s candidate older history) :
    history.Pairwise fun newer older => older.keyId < newer.keyId := by
  have hsorted := h.client.sorted
  rcases h.published with rfl | ⟨c, rfl, rfl⟩
  · exact (List.pairwise_append.mp hsorted).2.1
  · exact hsorted

theorem Agreement.ne_nil (h : Agreement S digest me first s candidate older history) :
    history ≠ [] := by
  rcases h.published with rfl | ⟨c, -, rfl⟩
  · exact h.client.started
  · exact List.cons_ne_nil _ _

theorem Agreement.start (h : s.Registered S me first) :
    Agreement S digest me first s none [first] [first] := by
  refine ⟨⟨h.durable, ?_, ⟨first, h.stored, by rw [h.previous]; rfl⟩, List.pairwise_singleton _ _,
    fun spk hspk => ?_, List.cons_ne_nil _ _⟩, .inl rfl, h.retained, fun row => ?_, ?_, ?_⟩
  · exact List.filter_eq_nil_iff.mpr fun item hitem => by simp [h.idle item hitem]
  · rw [List.mem_singleton.mp hspk]
    exact h.genuine
  · rw [h.log]
    exact Iff.rfl
  · rw [h.requests]
    exact fun message hmessage => absurd hmessage List.not_mem_nil
  · rw [h.replies]
    exact fun reply hreply => absurd hreply List.not_mem_nil

/-- Sending the outbox again, or a part of it. -/
theorem Agreement.send (h : Agreement S digest me first s candidate older history)
    {messages : List (ClientMessage C)} (hmessages : messages ⊆ s.manager.pendingMessages) :
    Agreement S digest me first { s with requests := s.requests ++ messages } candidate older
      history := by
  refine { h with
    requests := fun message hmessage => ?_
    replies := fun reply hreply id accepted previously current heq => ?_ }
  · rcases List.mem_append.mp hmessage with hmessage | hmessage
    · exact h.requests message hmessage
    · rintro id keyId publicKey signature rfl
      obtain ⟨item, hitem, hsent⟩ := List.mem_map.mp (hmessages hmessage)
      cases item with
      | signedPreKeyRotation =>
        cases hsent
        obtain ⟨spk, hcandidate, hspk⟩ := h.client.rotationItem_mem hitem
        exact ⟨spk, congrArg PendingOutbound.toClientMessage hspk, .inl hcandidate⟩
      | _ => cases hsent
  · obtain ⟨⟨keyId, publicKey, signature, hsent⟩, htells⟩ :=
      h.replies reply hreply id accepted previously current heq
    exact ⟨⟨keyId, publicKey, signature, List.mem_append_left _ hsent⟩, htells⟩

theorem Agreement.queue (h : Agreement S digest me first s candidate older history)
    (texts : List MessageId → Bytes) (now : Nat) (drawn : Sec) (hunused : s.Unused rotationId)
    (fails : Bool) :
    ∃ candidate, Agreement S digest me first
      (s.perform S texts (.queueSignedPrekeyRotation now drawn rotationId fails)) candidate older
      history := by
  rw [Link.perform_map S texts rfl]
  rcases queueSignedPrekeyRotation_cases S now drawn rotationId fails s.manager with
    hsame | ⟨current, keyId, nextKeyId, hidle, hids, hnew, -, hrun⟩
  · have hquiet : ((value? ((queueSignedPrekeyRotation S now drawn rotationId fails).run
        s.manager)).map fun _ => ([] : List (ClientMessage C))).getD [] = [] := by
      cases value? ((queueSignedPrekeyRotation S now drawn rotationId fails).run s.manager) <;> rfl
    rw [hsame, hquiet]
    exact ⟨candidate, { h.send (List.nil_subset _) with }⟩
  · rw [hrun]
    cases h.client.idle hidle
    have hhistory : history = older := by
      rcases h.published with hhistory | ⟨c, hc, -⟩
      · exact hhistory
      · cases hc
    -- nothing has been sent or answered under the new id
    have hfresh : ∀ id keyId publicKey signature,
        .rotateSignedPreKey id keyId publicKey signature ∈ s.requests → rotationId ≠ id := by
      rintro id keyId publicKey signature hsent rfl
      exact (hunused _ hsent).1 keyId publicKey signature rfl
    have hsend := h.send (List.nil_subset _)
    refine ⟨_, ⟨h.client.rotate hids now drawn hnew, .inl hhistory, h.retained, h.accepted, ?_, ?_⟩⟩
    · intro message hmessage id keyId publicKey signature heq
      obtain ⟨spk, hspk, hfrom⟩ := hsend.requests message hmessage id keyId publicKey signature heq
      obtain ⟨hmem, -⟩ := hfrom.resolve_left nofun
      refine ⟨spk, hspk, .inr ⟨hmem, fun c hc => ?_⟩⟩
      cases hc
      refine hfresh id keyId publicKey signature (heq ▸ ?_)
      simpa [value?] using hmessage
    · intro reply hreply id accepted previously current heq
      obtain ⟨⟨keyId, publicKey, signature, hsent⟩, -⟩ :=
        hsend.replies reply hreply id accepted previously current heq
      refine ⟨⟨keyId, publicKey, signature, hsent⟩, fun c hc hid => ?_⟩
      cases hc
      refine absurd hid (hfresh id keyId publicKey signature ?_)
      simpa using hsent

theorem Agreement.confirm (h : Agreement S digest me first s candidate older history)
    (texts : List MessageId → Bytes) {newId : MessageId} {accepted previously : Bool}
    {currentKeyId : UInt32}
    (hreply : .signedPreKeyRotated rotationId accepted previously currentKeyId ∈ s.replies)
    (now : Nat) (drawn : Sec) (fails : Bool) :
    ∃ candidate older, Agreement S digest me first
      (s.perform S texts
        (.confirmSignedPrekeyRotated rotationId accepted previously currentKeyId now
        drawn newId fails)) candidate older history := by
  rw [Link.perform_map S texts rfl]
  have hanswered := confirmSignedPrekeyRotated_cases S rotationId accepted previously currentKeyId
    now drawn newId fails s.manager
  generalize EStateM.run (confirmSignedPrekeyRotated S rotationId accepted previously currentKeyId
    now drawn newId fails) s.manager = result at hanswered ⊢
  have htells := (h.replies _ hreply rotationId accepted previously currentKeyId rfl).2
  have hsend := h.send (List.nil_subset _)
  cases hanswered with
  | unknown | failed e => exact ⟨candidate, older, { hsend with }⟩
  | confirmed index publicKey signature hitem haccepted =>
    obtain ⟨spk, rfl, hspk⟩ := h.client.rotationItem_mem (List.mem_of_getElem? hitem)
    obtain ⟨-, -, hhistory⟩ := htells _ rfl rfl
    rw [hspk] at hitem
    have hclient := h.client.confirm hitem
    rw [← hhistory] at hclient
    refine ⟨none, history, hclient, .inl rfl, h.retained, h.accepted, ?_, ?_⟩
    · intro message hmessage id keyId publicKey signature heq
      obtain ⟨spk', hspk', hfrom⟩ :=
        hsend.requests message hmessage id keyId publicKey signature heq
      refine ⟨spk', hspk', .inr ⟨?_, nofun⟩⟩
      rcases hfrom with hsame | ⟨hmem, -⟩
      · cases hsame
        rw [hhistory]
        exact List.mem_cons_self
      · exact hmem
    · intro reply hreply id accepted previously current heq
      exact ⟨(hsend.replies reply hreply id accepted previously current heq).1, nofun⟩
  | replaced index candidateKeyId publicKey signature hitem hrejected =>
    -- the relay has accepted the candidate, so it cannot have rejected it
    obtain ⟨spk, rfl, hspk⟩ := h.client.rotationItem_mem (List.mem_of_getElem? hitem)
    obtain ⟨haccepted, hcurrent, -⟩ := htells _ rfl rfl
    cases hspk
    exact absurd ⟨haccepted, hcurrent.symm⟩ hrejected

theorem Agreement.reload (h : Agreement S digest me first s candidate older history)
    {loadedAt cutoffNow pruneNow : Nat} {m : Manager K Sec C}
    (hload : loadOrGenerate s.manager.identity s.manager.store loadedAt cutoffNow pruneNow false =
      .ok m) : Agreement S digest me first { s with manager := m } candidate older history :=
  { h with client := h.client.reload hload }

/-- Handling a message that does not concern signed prekeys. -/
theorem Agreement.quiet (h : Agreement S digest me first s candidate older history)
    {x : Handling C} {fails : Bool} (hquiet : x.SpkQuiet digest fails s.db)
    (hret : ((x.run digest fails s.db).2).Retains me ((history.map (spkRow me)).take 2)) :
    Agreement S digest me first
      { s with
        replies := s.replies ++ (x.run digest fails s.db).1.toList
        db := (x.run digest fails s.db).2
        log := s.log ++ x.entries fails s.db } candidate older history := by
  refine { h with
    retained := hret
    accepted := fun row => ?_
    replies := fun reply hreply => ?_ }
  · refine (mem_acceptedSpks_quiet fun e he row hrow => ?_).trans (h.accepted row)
    rw [hquiet.log e he] at hrow
    cases hrow
  · rcases List.mem_append.mp hreply with hreply | hreply
    · exact h.replies reply hreply
    · rintro id accepted previously current rfl
      exact absurd (Option.mem_toList.mp hreply) (hquiet.reply id accepted previously current)

theorem rotationReply_eq_some {id id' : MessageId} {answer : Option Answer}
    {accepted previously : Bool} {current : UInt32}
    (h : (rotationReply id answer : Option (ServerMessage C)) =
      some (.signedPreKeyRotated id' accepted previously current)) : id' = id := by
  unfold rotationReply at h
  split at h <;> cases h <;> rfl

theorem acceptedSpk_rotated {userId : UserId} {keyId : UInt32} {publicKey signature : Bytes}
    {result : SignedPreKeyRotationResult} {row : SignedPrekeyRow}
    (h : acceptedSpk (.rotateSignedPrekey userId keyId publicKey signature : Transaction C)
      (some (.rotated result)) = some row) : row = ⟨userId, keyId, publicKey, signature⟩ := by
  cases result <;> cases h
  rfl

/-- The relay handles a rotation of a key that it has accepted before. -/
theorem Agreement.known (h : Agreement S digest me first s candidate older history)
    {spk : SignedPreKey Sec} (hspk : spk ∈ history) {result : SignedPreKeyRotationResult}
    (hanswer : Transaction.answer? digest (.rotateSignedPrekey me spk.keyId spk.publicKey.toList
      spk.signature.toList) s.db = some (.rotated result))
    {reply : Option (ServerMessage C)}
    (hreply : ∀ answer, reply = some answer → Tells candidate older history s.requests answer) :
    Agreement S digest me first
      { s with
        replies := s.replies ++ reply.toList
        log := s.log ++ [⟨s.db, .rotateSignedPrekey me spk.keyId spk.publicKey.toList
          spk.signature.toList⟩] } candidate older history := by
  refine { h with
    accepted := fun row => ?_
    replies := fun answer hmem => ?_ }
  · rw [mem_acceptedSpks_append, h.accepted row]
    refine or_iff_left_of_imp ?_
    rintro ⟨-, e, he, hrow⟩
    cases List.mem_singleton.mp he
    unfold Entry.answer? at hrow
    rw [hanswer] at hrow
    rw [acceptedSpk_rotated hrow]
    exact List.mem_map_of_mem hspk
  · rcases List.mem_append.mp hmem with hmem | hmem
    · exact h.replies answer hmem
    · exact hreply answer (Option.mem_toList.mp hmem)

/-- The relay accepts the candidate. -/
theorem Agreement.accept {id : MessageId} {spk : SignedPreKey Sec}
    (h : Agreement S digest me first s (some (id, spk)) older older) {db' : Db C D}
    (hret : db'.Retains me (((spk :: older).map (spkRow me)).take 2))
    (hanswer : Transaction.answer? digest (.rotateSignedPrekey me spk.keyId spk.publicKey.toList
      spk.signature.toList) s.db = some (.rotated (.accepted spk.keyId)))
    (hrequest : ∃ keyId publicKey signature,
      .rotateSignedPreKey id keyId publicKey signature ∈ s.requests) :
    Agreement S digest me first
      { s with
        replies := s.replies ++ [.signedPreKeyRotated id true false spk.keyId]
        db := db'
        log := s.log ++ [⟨s.db, .rotateSignedPrekey me spk.keyId spk.publicKey.toList
          spk.signature.toList⟩] } (some (id, spk)) older (spk :: older) := by
  refine ⟨h.client, .inr ⟨_, rfl, rfl⟩, hret, fun row => ?_, fun message hmessage => ?_,
    fun reply hreply => ?_⟩
  · rw [mem_acceptedSpks_append, h.accepted row, List.map_cons, List.mem_cons, or_comm]
    refine or_congr ⟨?_, ?_⟩ Iff.rfl
    · rintro ⟨-, e, he, hrow⟩
      cases List.mem_singleton.mp he
      unfold Entry.answer? at hrow
      rw [hanswer] at hrow
      exact acceptedSpk_rotated hrow
    · rintro rfl
      refine ⟨rfl, _, List.mem_singleton_self _, ?_⟩
      unfold Entry.answer?
      rw [hanswer]
      rfl
  · intro id keyId publicKey signature heq
    obtain ⟨spk', hspk', hfrom⟩ := h.requests message hmessage id keyId publicKey signature heq
    exact ⟨spk', hspk', hfrom.imp_right fun hold => ⟨List.mem_cons_of_mem _ hold.1, hold.2⟩⟩
  · intro id' accepted previously current heq
    rcases List.mem_append.mp hreply with hreply | hreply
    · obtain ⟨hrequest, htells⟩ := h.replies reply hreply id' accepted previously current heq
      refine ⟨hrequest, fun c hc hid => ?_⟩
      cases hc
      obtain ⟨haccepted, hcurrent, -⟩ := htells _ rfl hid
      exact ⟨haccepted, hcurrent, rfl⟩
    · cases (List.mem_singleton.mp hreply).symm.trans heq
      refine ⟨hrequest, fun c hc _ => ?_⟩
      cases hc
      exact ⟨rfl, rfl, rfl⟩

theorem Agreement.serve (h : Agreement S digest me first s candidate older history)
    (pageLen : InboundMessage C → Nat → Nat) {message : ClientMessage C}
    (hmessage : message ∈ s.requests) (env : RelayEnv) (fails : Bool) :
    ∃ history, Agreement S digest me first (s.serve S pageLen me digest message env fails) candidate
      older history := by
  by_cases hrotation : ∃ id keyId publicKey signature,
    message = .rotateSignedPreKey id keyId publicKey signature
  · obtain ⟨id, keyId, publicKey, signature, rfl⟩ := hrotation
    obtain ⟨spk, hspk, hfrom⟩ := h.requests _ hmessage id keyId publicKey signature rfl
    cases hspk
    rcases serve_rotation me S pageLen digest env fails id spk.keyId spk.publicKey.toList
      spk.signature.toList with ⟨hquiet, hdb⟩ | ⟨result, hrot, hreply, hentries, hanswer⟩
    · exact ⟨history, h.quiet hquiet (hdb.symm ▸ h.retained)⟩
    · unfold Link.serve
      dsimp only [rotationItem, PendingOutbound.toClientMessage] at hrot hreply hentries ⊢
      rw [hreply, hentries]
      generalize ((handleMessage S pageLen me env s.db _).run digest fails s.db).2 = db' at hrot ⊢
      have hrequest : ∃ keyId publicKey signature,
          .rotateSignedPreKey id keyId publicKey signature ∈ s.requests := ⟨_, _, _, hmessage⟩
      have hret := h.retained
      have hsorted : SpkHistory me (history.map (spkRow me)) := spkHistory_map h.sorted
      obtain ⟨top, rest, rfl⟩ := List.exists_cons_of_ne_nil h.ne_nil
      rcases hfrom with rfl | ⟨hmem, hother⟩
      · rcases h.published with rfl | ⟨c, hc, hhistory⟩
        · have hnew : SpkHistory me ((spk :: top :: rest).map (spkRow me)) :=
            spkHistory_map h.client.sorted
          obtain ⟨rfl, hret'⟩ := Rotated.of_newer hsorted hret hnew hrot
          exact ⟨_, h.accept hret' hanswer hrequest⟩
        · cases hc
          obtain ⟨rfl, rfl⟩ := List.cons.inj hhistory
          cases Rotated.of_mem hsorted hret hrot List.mem_cons_self
          cases Rotated.of_top hsorted hret hrot
          refine ⟨_, h.known List.mem_cons_self hanswer ?_⟩
          rintro _ ⟨⟩ id' accepted previously current ⟨⟩
          refine ⟨hrequest, fun c hc _ => ?_⟩
          cases hc
          exact ⟨rfl, rfl, rfl⟩
      · cases Rotated.of_mem hsorted hret hrot (List.mem_map_of_mem hmem)
        refine ⟨_, h.known hmem hanswer ?_⟩
        rintro answer hsome id' accepted previously current rfl
        cases rotationReply_eq_some hsome
        exact ⟨hrequest, fun c hc hid => absurd hid (hother c hc)⟩
  · obtain ⟨hquiet, hret⟩ :=
      serve_other me S pageLen digest env fails (fun id keyId publicKey signature heq =>
        hrotation ⟨id, keyId, publicKey, signature, heq⟩) h.retained
    exact ⟨history, h.quiet hquiet hret⟩

theorem Agreement.transact (h : Agreement S digest me first s candidate older history)
    {t : Transaction C} (hothers : OfOthers me t) (unixepoch : Nat) :
    Agreement S digest me first (s.transact me digest t unixepoch) candidate older history := by
  have howner : t.spkOwner? ≠ some me := by
    cases t with
    | registerAtomic | rotateSignedPrekey => exact fun heq => hothers (Option.some.inj heq)
    | _ => nofun
  refine { h with
    retained := (t.effect digest s.db).retains_of_others howner h.retained
    accepted := fun row => ?_ }
  refine (mem_acceptedSpks_quiet fun e he row hrow heq => ?_).trans (h.accepted row)
  cases List.mem_singleton.mp he
  exact howner ((acceptedSpk_of_owner hrow).trans (congrArg some heq))

theorem Agreement.run {texts : List MessageId → Bytes} {pageLen : InboundMessage C → Nat → Nat}
    (run : Link.Run S texts pageLen me digest (Link.Registered S me first) RotationOps
      (fun _ _ => True) s) :
    ∃ candidate older history, Agreement S digest me first s candidate older history := by
  induction run with
  | start hstart => exact ⟨_, _, _, .start hstart⟩
  | perform run op hadmits ih =>
    obtain ⟨candidate, older, history, h⟩ := ih
    cases op with
    | queueSignedPrekeyRotation now drawn rotationId fails =>
      obtain ⟨candidate, h⟩ := h.queue texts now drawn hadmits fails
      exact ⟨candidate, older, history, h⟩
    | confirmSignedPrekeyRotated rotationId accepted previously currentKeyId now drawn
      newId fails =>
      obtain ⟨candidate, older, h⟩ := h.confirm texts hadmits.1 now drawn fails
      exact ⟨candidate, older, history, h⟩
    | _ => exact hadmits.elim
  | resend run ih =>
    obtain ⟨candidate, older, history, h⟩ := ih
    exact ⟨candidate, older, history, h.send fun _ => id⟩
  | serve run message hmessage _ env fails ih =>
    obtain ⟨candidate, older, history, h⟩ := ih
    obtain ⟨history, h⟩ := h.serve pageLen hmessage env fails
    exact ⟨candidate, older, history, h⟩
  | restart run loadedAt cutoffNow pruneNow m hload ih =>
    obtain ⟨candidate, older, history, h⟩ := ih
    exact ⟨candidate, older, history, h.reload hload⟩
  | transact run t hothers _ unixepoch ih =>
    obtain ⟨candidate, older, history, h⟩ := ih
    exact ⟨candidate, older, history, h.transact hothers unixepoch⟩

/-- The client holds the four newest keys of the history. -/
theorem Agreement.held (h : Agreement S digest me first s candidate older history)
    (hspk : spk ∈ history.take 4) :
    spk ∈ heldSpks s.manager ∧ S.toPublic spk.secret = spk.publicKey := by
  obtain ⟨current, hstored, hheld⟩ := h.client.held
  have hkeys : heldSpks s.manager = candidate.toList.map Prod.snd ++ older.take 4 := by
    rw [← hheld, heldSpks, hstored]
    rfl
  rcases h.published with rfl | ⟨c, rfl, rfl⟩
  · exact ⟨hkeys ▸ List.mem_append_right _ hspk,
      h.client.genuine spk (List.mem_append_right _ (List.mem_of_mem_take hspk))⟩
  · refine ⟨hkeys ▸ ?_, h.client.genuine spk (List.mem_of_mem_take hspk)⟩
    rcases List.mem_cons.mp hspk with rfl | hspk
    · exact List.mem_cons_self
    · exact List.mem_cons_of_mem _ (List.take_subset_take_left _ (by decide) hspk)

end Steps

/-- With fewer than `n` keys above it, a key of a decreasing list is among the first `n`. -/
theorem SpkHistory.mem_take {userId : UserId} {history : List SignedPrekeyRow}
    (h : SpkHistory userId history) {row : SignedPrekeyRow} (hrow : row ∈ history) {n : Nat}
    (hfew : ((history.map SignedPrekeyRow.keyId).toFinset.filter (row.keyId < ·)).card < n) :
    row ∈ history.take n := by
  by_contra hnot
  have hdrop : row ∈ history.drop n := by
    rw [← List.take_append_drop n history] at hrow
    exact (List.mem_append.mp hrow).resolve_left hnot
  have hlong : n ≤ history.length := by
    by_contra hshort
    rw [List.drop_eq_nil_of_le (by omega)] at hdrop
    exact absurd hdrop List.not_mem_nil
  -- the first `n` have distinct ids above that of the row
  have hnodup : ((history.take n).map SignedPrekeyRow.keyId).Nodup :=
    h.nodup.sublist ((List.take_sublist n history).map _)
  have hsub : ((history.take n).map SignedPrekeyRow.keyId).toFinset ⊆
      (history.map SignedPrekeyRow.keyId).toFinset.filter (row.keyId < ·) := by
    intro id hid
    obtain ⟨newer, hnewer, rfl⟩ := List.mem_map.mp (List.mem_toFinset.mp hid)
    have hsorted := h.sorted
    rw [← List.take_append_drop n history] at hsorted
    refine Finset.mem_filter.mpr ⟨?_, (List.pairwise_append.mp hsorted).2.2 newer hnewer row hdrop⟩
    exact List.mem_toFinset.mpr (List.mem_map_of_mem (List.mem_of_mem_take hnewer))
  have hcard := Finset.card_le_card hsub
  rw [List.toFinset_card_of_nodup hnodup, List.length_map, List.length_take] at hcard
  omega

/-- **Signed-prekey agreement.** In every run, each of the four highest-numbered signed
prekeys that the relay has accepted, and each one that it stores, is held by the client with
its private key. -/
theorem accepted_spks_held {S : IdentitySuite K Sec C} {texts : List MessageId → Bytes}
    {pageLen : InboundMessage C → Nat → Nat} {digest : EncryptedEnvelope C → D} {me : UserId}
    {first : SignedPreKey Sec} {s : Link K Sec C D}
    (run : Link.Run S texts pageLen me digest (Link.Registered S me first) RotationOps
      (fun _ _ => True) s) (row : SignedPrekeyRow)
    (hrow : row ∈ s.db.signedPrekeys ∧ row.userId = me ∨
      row ∈ acceptedSpks digest (spkRow me first) s.log ∧
        (((acceptedSpks digest (spkRow me first) s.log).map
          SignedPrekeyRow.keyId).toFinset.filter (row.keyId < ·)).card < 4) :
    ∃ spk ∈ heldSpks s.manager, spk.keyId = row.keyId ∧ spk.publicKey.toList = row.publicKey ∧
      S.toPublic spk.secret = spk.publicKey := by
  obtain ⟨candidate, older, history, h⟩ := Agreement.run run
  have hfront : row ∈ (history.map (spkRow me)).take 4 := by
    rcases hrow with hstored | ⟨haccepted, hfew⟩
    · exact List.take_subset_take_left _ (by decide) ((h.retained row).mp hstored)
    · have hids : ((acceptedSpks digest (spkRow me first) s.log).map
          SignedPrekeyRow.keyId).toFinset =
          ((history.map (spkRow me)).map SignedPrekeyRow.keyId).toFinset := by
        ext id
        simp only [List.mem_toFinset, List.mem_map (f := SignedPrekeyRow.keyId), h.accepted]
      rw [hids] at hfew
      exact SpkHistory.mem_take (spkHistory_map h.sorted) ((h.accepted row).mp haccepted) hfew
  rw [← List.map_take] at hfront
  obtain ⟨spk, hspk, rfl⟩ := List.mem_map.mp hfront
  obtain ⟨hheld, hgenuine⟩ := h.held hspk
  exact ⟨spk, hheld, rfl, rfl, hgenuine⟩

/-! ## A rotation -/

def bobSpk : SignedPreKey Key32 := SignedPreKey.generate symbolicIdentity 0 (key32 9) (key32 8)

def bobRegisters : Transaction Ciphertext :=
  .registerAtomic ⟨Client.bob, (key32 9).toList, 0, bobSpk.publicKey.toList,
    bobSpk.signature.toList, []⟩ fun _ => 100

/-- Bob after his registration, on both sides. -/
def bobStarts : Link Term Key32 Ciphertext Unit where
  manager :=
    finalState ((persistRegistrationKeys bobSpk [] 100 100 false).run (newManager (key32 9)))
  calls := []
  requests := []
  replies := []
  notices := []
  db := bobRegisters.after (fun _ => ()) Db.fresh
  log := []

theorem bobStarts_registered : bobStarts.Registered symbolicIdentity Client.bob bobSpk where
  durable := by
    have hnew : (newManager (key32 9) : Manager Term Key32 Ciphertext).Durable 0 :=
      Manager.Durable.start (show loadOrGenerate (key32 9) _ 0 0 0 false = _ from rfl)
    exact ⟨_, hnew.outcome (S := symbolicIdentity) (.registered bobSpk [] 100 100 false)⟩
  stored := rfl
  previous := rfl
  genuine := rfl
  idle _ hitem := absurd hitem List.not_mem_nil
  retained row := by
    constructor
    · exact fun hrow => hrow.1
    · intro hrow
      exact ⟨hrow, by rw [List.mem_singleton.mp hrow]; rfl⟩
  requests := rfl
  replies := rfl
  log := rfl

/-- Bob rotates a month later, and his request is on its way. -/
def bobRotates : Link Term Key32 Ciphertext Unit :=
  (bobStarts.perform symbolicIdentity (fun _ => [])
    (.queueSignedPrekeyRotation 3000000 (key32 7) ⟨1⟩ false)).resend

def bobRotation : ClientMessage Ciphertext :=
  (rotationItem ⟨1⟩ (SignedPreKey.generate symbolicIdentity 1 (key32 9) (key32 7))).toClientMessage

/-- The relay has accepted the new key, and Bob has its answer. -/
def bobRotated : Link Term Key32 Ciphertext Unit :=
  (bobRotates.serve symbolicIdentity (fun _ _ => 0) Client.bob (fun _ => ()) bobRotation
    ⟨100, 100, 100, fun _ => 100, 100, 0⟩ false).perform symbolicIdentity (fun _ => [])
      (.confirmSignedPrekeyRotated ⟨1⟩ true false 1 3000001 (key32 6) ⟨2⟩ false)

theorem bobRotated_run : Link.Run symbolicIdentity (fun _ => []) (fun _ _ => 0) Client.bob
    (fun _ => ()) (Link.Registered symbolicIdentity Client.bob bobSpk) RotationOps
    (fun _ _ => True) bobRotated := by
  have hrequests : bobRotates.requests = [bobRotation] := rfl
  have hmessage : bobRotation ∈ bobRotates.requests := hrequests ▸ List.mem_singleton_self _
  refine .perform (.serve (.resend (.perform (.start bobStarts_registered) _ ?_)) _ hmessage trivial
    _ false) _ ⟨?_, ?_⟩
  · exact fun message hmessage => absurd hmessage List.not_mem_nil
  · exact List.mem_singleton_self _
  · intro message hmessage
    have heq : message = bobRotation := List.mem_singleton.mp (hrequests ▸ hmessage)
    subst heq
    exact ⟨nofun, nofun⟩

theorem accepted_spks_held_bob :
    ∃ spk ∈ heldSpks bobRotated.manager, spk.keyId = 1 ∧ spk.publicKey.toList = (key32 7).toList ∧
      symbolicIdentity.toPublic spk.secret = spk.publicKey := by
  refine accepted_spks_held bobRotated_run
    (spkRow Client.bob (SignedPreKey.generate symbolicIdentity 1 (key32 9) (key32 7)))
    (.inl ⟨?_, rfl⟩)
  have hrows : bobRotated.db.signedPrekeys.rows = [spkRow Client.bob bobSpk,
    spkRow Client.bob (SignedPreKey.generate symbolicIdentity 1 (key32 9) (key32 7))] := rfl
  rw [Table.mem_def, hrows]
  exact List.mem_cons_of_mem _ (List.mem_singleton_self _)

end Cmp.System
