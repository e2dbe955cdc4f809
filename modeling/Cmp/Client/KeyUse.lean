import Cmp.Client.Refinement

/-! No message key is used for two envelopes. A session's ratchet key is either the
one a peer's session had before, with its counter not moved back, or one drawn by
the operation; the counter moves only together with the envelope it numbers. -/

namespace Cmp.Client

open Cmp.Crypto Cmp.Protocol Cmp.Lib Cmp.Lib.Action

variable {K Sec C : Type}

/-! ## The ratchet key of a session -/

theorem dhStepIfNeeded_ourRatchet (S : Suite K Sec C) (drawn : Sec) (header : RatchetHeader)
    (s u : SessionState K Sec) (h : (dhStepIfNeeded S drawn header).run s = .ok () u) :
    (s.theirRatchetKey = some header.ratchetKey ∧ u = s) ∨
      u.ourRatchet.publicBytes = S.toPublic drawn := by
  rw [dhStepIfNeeded_run] at h
  split at h
  · obtain ⟨v, rkOut, rkOut2, -, -, -, rfl⟩ := (dhStep_eq_ok _ _ _ _ _).mp h
    exact .inr rfl
  · next hsame =>
    cases h
    exact .inl ⟨not_not.mp hsame, rfl⟩

/-- A decryption either leaves the sending side alone or draws a new key for it. -/
theorem decrypt_ourRatchet (S : Suite K Sec C) (drawn : Sec) (header : RatchetHeader) (c : C)
    (aad p : Bytes) (s t : SessionState K Sec)
    (h : (decrypt S drawn header c aad).run s = .ok p t) :
    (t.ourRatchet = s.ourRatchet ∧ t.sendCount = s.sendCount ∧
      (s.theirRatchetKey ≠ none ∨ s.skipped.lookup header.id ≠ none)) ∨
      t.ourRatchet.publicBytes = S.toPublic drawn := by
  rcases (decrypt_eq_ok _ _ _ _ _ _ _ _).mp h with ⟨messageKey, hk, -, rfl⟩ | ⟨-, hi⟩
  · exact .inl ⟨rfl, rfl, .inr (by rw [hk]; exact Option.some_ne_none _)⟩
  · obtain ⟨u, v, chainKey, ckOut, hdh, hskip, -, -, -, -, rfl⟩ :=
      (tryDecryptInner_eq_ok _ _ _ _ _ _ _ _).mp hi
    have hv := skipMessageKeys_frame S _ _ u v hskip
    rcases dhStepIfNeeded_ourRatchet S drawn header s u hdh with ⟨hsame, rfl⟩ | hnew
    · left
      rw [hv]
      exact ⟨rfl, rfl, .inl (by rw [hsame]; exact Option.some_ne_none _)⟩
    · right
      rw [hv]
      exact hnew

/-- A responder's first decryption draws its first sending key. -/
theorem decrypt_initializeBob_ourRatchet (S : Suite K Sec C) (drawn : Sec)
    (header : RatchetHeader) (c : C) (aad p : Bytes) (secret : K) (pair : RatchetKeyPair Sec)
    (t : SessionState K Sec)
    (h : (decrypt S drawn header c aad).run (initializeBob secret pair) = .ok p t) :
    t.ourRatchet.publicBytes = S.toPublic drawn := by
  rcases decrypt_ourRatchet S drawn header c aad p _ t h with ⟨-, -, hnone | hnone⟩ | hnew
  · exact absurd rfl hnone
  · exact absurd (Finmap.lookup_empty _) hnone
  · exact hnew

variable {S : IdentitySuite K Sec C}

theorem createBobSession_eq_ok {m : Manager K Sec C} {identityKey ephemeralKey : Key32}
    {spkId : UInt32} {opkId : Option UInt32} {session : SessionState K Sec}
    (h : createBobSession S m identityKey ephemeralKey spkId opkId = .ok session) :
    ∃ spk opk secret,
      (m.storedSpk.toList ++ m.previousSpks).find? (·.keyId == spkId) = some spk ∧
      opk = opkId.bind m.storedOpks.lookup ∧ (opkId.isSome → opk.isSome) ∧
      bobRespond S m.identity spk opk identityKey ephemeralKey = .ok secret ∧
      session = initializeBob secret ⟨spk.secret, spk.publicKey⟩ := by
  unfold createBobSession at h
  split at h
  · cases h
  · next spk hspk =>
    split at h
    · cases opkId with
      | none =>
        dsimp only at h
        split at h
        · cases h
        · next secret hsecret =>
          cases h
          exact ⟨spk, none, secret, hspk, rfl, id, hsecret, rfl⟩
      | some id =>
        cases hopk : m.storedOpks.lookup id with
        | none => simp [hopk] at h
        | some opk =>
          simp only [hopk] at h
          split at h
          · cases h
          · next secret hsecret =>
            cases h
            exact ⟨spk, some opk, secret, hspk, hopk.symm, fun _ => rfl, hsecret, rfl⟩
    · cases h

theorem sessionFromBundle_eq_ok {identity ephemeral drawn : Sec} {now : Nat} {bundle : PreKeyBundle}
    {session : PeerSession K Sec}
    (h : sessionFromBundle S identity ephemeral drawn now bundle = .ok session) :
    ∃ peerBundle x3dhResult ratchet, decodeBundle S bundle = .ok peerBundle ∧
      aliceInitiate S identity ephemeral peerBundle = .ok x3dhResult ∧
      initializeAlice S.toSuite drawn x3dhResult.sharedSecret peerBundle.signedPrekey =
        .ok ratchet ∧
      session.ratchet = ratchet ∧
      session.prekeyHeader = some
        { ephemeralPublic := x3dhResult.ephemeralPublic
          recipientSignedPrekeyId := bundle.signedPrekeyId
          recipientOneTimePrekeyId := peerBundle.oneTimePrekey.map Prod.fst } := by
  obtain ⟨peerBundle, hb, h⟩ := (Action.bind_eq_ok _ _ _).mp h
  split at h
  · cases h
  · next x3dhResult hx =>
    split at h
    · cases h
    · next ratchet hr =>
      cases h
      exact ⟨peerBundle, x3dhResult, ratchet, hb, hx, hr, rfl, rfl⟩

theorem sessionFromBundle_ourRatchet {identity ephemeral drawn : Sec} {now : Nat}
    {bundle : PreKeyBundle} {session : PeerSession K Sec}
    (h : sessionFromBundle S identity ephemeral drawn now bundle = .ok session) :
    session.ratchet.ourRatchet.publicBytes = S.toPublic drawn := by
  obtain ⟨peerBundle, x3dhResult, ratchet, -, -, hr, hratchet, -⟩ := sessionFromBundle_eq_ok h
  obtain ⟨rkOut, -, rfl⟩ := initializeAlice_eq_ok hr
  rw [hratchet]
  rfl

/-! ## Sessions and envelopes, operation by operation -/

/-- Ratchet key and message number of an envelope. -/
def keyUse (envelope : EncryptedEnvelope C) : B64Text Bytes × UInt32 :=
  match envelope.header with
  | .preKey _ _ _ _ ratchet => (ratchet.ratchetKey, ratchet.messageNumber)
  | .ratchet header => (header.ratchetKey, header.messageNumber)

theorem keyUse_wrap (S : IdentitySuite K Sec C) (session : PeerSession K Sec)
    (identityPublic : Key32) (message : RatchetMessage C) :
    keyUse (session.wrap S identityPublic message) =
      (b64Encode message.header.ratchetKey.toList, message.header.messageNumber) := by
  unfold keyUse PeerSession.wrap protoHeader
  cases session.prekeyHeader <;> rfl

/-- What an operation does to the sessions, and the envelopes it makes. -/
inductive SessionsStep (S : IdentitySuite K Sec C) (drawn : List Sec)
    (sessions : HMap UserId (PeerSession K Sec)) :
    List (UserId × EncryptedEnvelope C) → HMap UserId (PeerSession K Sec) → Prop
  | same : SessionsStep S drawn sessions [] sessions
  | removed (peerId : UserId) : SessionsStep S drawn sessions [] (sessions.erase peerId)
  | renewed (peerId : UserId) (session : PeerSession K Sec) (secret : Sec)
    (hdrawn : drawn = [secret])
      (hkey : session.ratchet.ourRatchet.publicBytes = S.toPublic secret) :
      SessionsStep S drawn sessions [] (sessions.insert peerId session)
  | received (peerId : UserId) (original session : PeerSession K Sec)
      (hsession : sessions.lookup peerId = some original)
      (hkey : session.ratchet.ourRatchet = original.ratchet.ourRatchet)
      (hcount : session.ratchet.sendCount = original.ratchet.sendCount) :
      SessionsStep S drawn sessions [] (sessions.insert peerId session)
  | used (peerId recipientId : UserId) (original session : PeerSession K Sec)
      (envelope : EncryptedEnvelope C) (hsession : sessions.lookup peerId = some original)
      (huse : keyUse envelope =
        (b64Encode original.ratchet.ourRatchet.publicBytes.toList, original.ratchet.sendCount))
      (hkey : session.ratchet.ourRatchet = original.ratchet.ourRatchet)
      (hcount : original.ratchet.sendCount < session.ratchet.sendCount) :
      SessionsStep S drawn sessions [(recipientId, envelope)] (sessions.insert peerId session)

theorem Outcome.sessionsStep {m m' : Manager K Sec C} {op : Op Sec C}
    {sent : List (UserId × EncryptedEnvelope C)} (h : Outcome S m op sent m') :
    SessionsStep S op.ratchetSecrets m.sessions sent m'.sessions := by
  cases h with
  | initiated peerId bundle ephemeral drawn now fails session hsession =>
    exact .renewed peerId session drawn rfl (sessionFromBundle_ourRatchet hsession)
  | expired peerId => exact .removed peerId
  | rejected messageId fails index recipientId => exact .removed recipientId
  | encrypted _ peerId recipientId plaintext original message ratchet item hsession hmade =>
    obtain ⟨hroom, chainKey, ckOut, -, -, hheader, -, rfl⟩ := (encrypt_eq_ok _ _ _ _ _ _).mp hmade
    refine .used peerId recipientId original _ _ hsession ?_ rfl ?_
    · rw [keyUse_wrap, hheader]
      rfl
    · show original.ratchet.sendCount < original.ratchet.sendCount + 1
      rw [UInt32.lt_iff_toNat_lt, toNat_succ hroom]
      exact Nat.lt_succ_self _
  | decrypted peerId messageId envelope env plaintext session opkId hopens =>
    have hsessions : ((m.opened peerId session opkId env).marked (peerId, messageId)
        (env.row plaintext)).sessions = m.sessions.insert peerId session := by
      unfold Manager.marked Manager.opened
      rw [takeOneTimePrekey_eq]
    rw [hsessions]
    cases hopens with
    | existing original header ciphertext aad _ ratchet _ hsession hopen =>
      rcases decrypt_ourRatchet _ _ _ _ _ _ _ _ hopen with ⟨hkey, hcount, -⟩ | hnew
      · exact .received peerId original _ hsession hkey hcount
      · exact .renewed peerId _ env.drawn rfl hnew
    | first _ _ _ _ _ fields bob ratchet _ _ _ _ hbob hopen =>
      obtain ⟨spk, opk, secret, -, -, -, -, rfl⟩ := createBobSession_eq_ok hbob
      exact .renewed peerId _ env.drawn rfl
        (decrypt_initializeBob_ourRatchet _ _ _ _ _ _ _ _ _ hopen)
  | _ => exact .same

/-- Every envelope now in the durable outbox was there before or has just been made. -/
theorem Outcome.sealed {m m' : Manager K Sec C} {op : Op Sec C}
    {sent : List (UserId × EncryptedEnvelope C)} (h : Outcome S m op sent m') :
    ∀ a ∈ m'.store.sealed, a ∈ m.store.sealed ∨ a ∈ sent := by
  have hkeep : ∀ {rows : List (MessageId × PendingOutbound C)}, rows ⊆ m.store.outbox →
      ∀ a ∈ rows.filterMap (fun row => sealedTo row.2.toClientMessage), a ∈ m.store.sealed := by
    intro rows hrows a ha
    obtain ⟨row, hrow, hs⟩ := List.mem_filterMap.mp ha
    exact List.mem_filterMap.mpr ⟨row, hrows hrow, hs⟩
  have hopen : ∀ {rows : List (MessageId × PendingOutbound C)} {id : MessageId}
      {item : PendingOutbound C}, rows ⊆ m.store.outbox → sealedTo item.toClientMessage = none →
      ∀ a ∈ (rows ++ [(id, item)]).filterMap (fun row => sealedTo row.2.toClientMessage),
        a ∈ m.store.sealed := by
    intro rows id item hrows hitem a ha
    simp only [List.filterMap_append, List.filterMap_cons, hitem, List.filterMap_nil,
      List.append_nil] at ha
    exact hkeep hrows a ha
  intro a ha
  cases h with
  | encrypted _ peerId recipientId plaintext original message ratchet item _ _ hitem =>
    rcases List.mem_filterMap.mp ha with ⟨row, hrow, hs⟩
    rcases List.mem_append.mp hrow with hrow | hrow
    · exact .inl (List.mem_filterMap.mpr ⟨row, hrow, hs⟩)
    · rw [List.mem_singleton.mp hrow, hitem] at hs
      cases hs
      exact .inr List.mem_cons_self
  | queued _ item hitem =>
    exact .inl (hopen (List.Subset.refl _) (Op.queuedItem_open hitem) a ha)
  | rotated | replenished => exact .inl (hopen (List.Subset.refl _) rfl a ha)
  | rotationReplaced => exact .inl (hopen (List.filter_subset_self _) rfl a ha)
  | uploadReplaced _ index item env generated =>
    left
    obtain ⟨row, hrow, hs⟩ := List.mem_filterMap.mp ha
    exact hopen (List.Subset.refl _) rfl a
      (List.mem_filterMap.mpr ⟨row, List.mem_of_mem_filter hrow, hs⟩)
  | confirmed | rejected | acked | rotationAccepted | uploadRejected =>
    exact .inl (hkeep (List.filter_subset_self _) a ha)
  | storedInbound peerId messageId =>
    left
    unfold CryptoStore.sealed Manager.committed at ha
    rw [(core_markProcessedCommitted (peerId, messageId) m.store).2] at ha
    exact ha
  | decrypted peerId messageId envelope env plaintext session opkId =>
    left
    unfold CryptoStore.sealed Manager.marked Manager.opened at ha
    rw [takeOneTimePrekey_eq] at ha
    exact ha
  | _ => exact .inl ha

/-! ## The invariant -/

theorem b64Encode_key_inj {a b : Key32} (h : b64Encode a.toList = b64Encode b.toList) : a = b :=
  List.Vector.toList_injective (Option.some.inj (congrArg B64Text.decoded h))

/-- Keys in use were drawn, no two sessions share one, and a session's counter is
past every number sent under its key. -/
structure KeysUsed (sessions : HMap UserId (PeerSession K Sec))
    (sent : List (UserId × EncryptedEnvelope C)) (ratchetKeys : List Key32) : Prop where
  sentKnown : ∀ a ∈ sent, ∃ key ∈ ratchetKeys, (keyUse a.2).1 = b64Encode key.toList
  known : ∀ peerId session, sessions.lookup peerId = some session →
    session.ratchet.ourRatchet.publicBytes ∈ ratchetKeys
  below : ∀ peerId session, sessions.lookup peerId = some session → ∀ a ∈ sent,
    (keyUse a.2).1 = b64Encode session.ratchet.ourRatchet.publicBytes.toList →
      (keyUse a.2).2 < session.ratchet.sendCount
  apart : ∀ peerId peerId' session session', sessions.lookup peerId = some session →
    sessions.lookup peerId' = some session' →
    session.ratchet.ourRatchet.publicBytes = session'.ratchet.ourRatchet.publicBytes →
      peerId = peerId'
  unique : (sent.map fun a => keyUse a.2).Nodup

namespace KeysUsed

variable {sessions : HMap UserId (PeerSession K Sec)}
  {sent : List (UserId × EncryptedEnvelope C)} {ratchetKeys : List Key32}

theorem empty :
    KeysUsed (∅ : HMap UserId (PeerSession K Sec)) ([] : List (UserId × EncryptedEnvelope C))
    [] where
  sentKnown a h := by cases h
  known peerId session h := by cases h
  below peerId session h := by cases h
  apart peerId peerId' session session' h := by cases h
  unique := List.nodup_nil

/-- More drawn keys change nothing. -/
theorem more (h : KeysUsed sessions sent ratchetKeys) (keys : List Key32) :
    KeysUsed sessions sent (ratchetKeys ++ keys) where
  sentKnown a ha :=
    let ⟨key, hkey, huse⟩ := h.sentKnown a ha
    ⟨key, List.mem_append_left _ hkey, huse⟩
  known peerId session hs := List.mem_append_left _ (h.known peerId session hs)
  below := h.below
  apart := h.apart
  unique := h.unique

theorem erase (h : KeysUsed sessions sent ratchetKeys) (peerId : UserId) :
    KeysUsed (sessions.erase peerId) sent ratchetKeys := by
  have hsub : ∀ {x session}, (sessions.erase peerId).lookup x = some session →
      sessions.lookup x = some session := by
    intro x session hx
    rw [HMap.lookup_erase_eq] at hx
    split at hx
    · cases hx
    · exact hx
  exact ⟨h.sentKnown, fun x s hx => h.known x s (hsub hx), fun x s hx => h.below x s (hsub hx),
    fun x y s s' hx hy => h.apart x y s s' (hsub hx) (hsub hy), h.unique⟩

/-- A session replaced by one whose key no other session has. -/
theorem insert (h : KeysUsed sessions sent ratchetKeys) (peerId : UserId)
    (session : PeerSession K Sec)
    (hknown : session.ratchet.ourRatchet.publicBytes ∈ ratchetKeys)
    (hbelow : ∀ a ∈ sent, (keyUse a.2).1 =
      b64Encode session.ratchet.ourRatchet.publicBytes.toList →
        (keyUse a.2).2 < session.ratchet.sendCount)
    (hapart : ∀ x other, x ≠ peerId → sessions.lookup x = some other →
      other.ratchet.ourRatchet.publicBytes ≠ session.ratchet.ourRatchet.publicBytes) :
    KeysUsed (sessions.insert peerId session) sent ratchetKeys := by
  refine ⟨h.sentKnown, fun x s hx => ?_, fun x s hx => ?_, fun x y s s' hx hy hk => ?_, h.unique⟩
  · rw [HMap.lookup_insert_eq] at hx
    split at hx
    · cases hx; exact hknown
    · exact h.known x s hx
  · rw [HMap.lookup_insert_eq] at hx
    split at hx
    · cases hx; exact hbelow
    · exact h.below x s hx
  · rw [HMap.lookup_insert_eq] at hx hy
    split at hx <;> split at hy
    · next hxp hyp => rw [hxp, hyp]
    · next _ hyp => cases hx; exact absurd hk.symm (hapart y s' hyp hy)
    · next hxp _ => cases hy; exact absurd hk (hapart x s hxp hx)
    · exact h.apart x y s s' hx hy hk

theorem step {drawn : List Sec} {sessions' : HMap UserId (PeerSession K Sec)}
    {made : List (UserId × EncryptedEnvelope C)} (h : KeysUsed sessions sent ratchetKeys)
    (hstep : SessionsStep S drawn sessions made sessions')
    (hfresh : (ratchetKeys ++ drawn.map S.toPublic).Nodup) :
    KeysUsed sessions' (sent ++ made) (ratchetKeys ++ drawn.map S.toPublic) := by
  have hmore := h.more (drawn.map S.toPublic)
  cases hstep with
  | same => rw [List.append_nil]; exact hmore
  | removed peerId => rw [List.append_nil]; exact hmore.erase peerId
  | renewed peerId session secret hdrawn hkey =>
    subst hdrawn
    rw [List.append_nil]
    have hnew : S.toPublic secret ∉ ratchetKeys := fun hmem =>
      (List.nodup_append.mp hfresh).2.2 _ hmem _ List.mem_cons_self rfl
    refine hmore.insert peerId session (by rw [hkey]; simp) (fun a ha huse => ?_)
      fun x other _ hx heq => ?_
    · -- nothing has been sent under a key that is drawn only now
      obtain ⟨key, hmem, hkey'⟩ := h.sentKnown a ha
      rw [hkey'] at huse
      rw [b64Encode_key_inj huse, hkey] at hmem
      exact absurd hmem hnew
    · exact hnew (hkey ▸ heq ▸ h.known x other hx)
  | received peerId original session hsession hkey hcount =>
    rw [List.append_nil]
    refine hmore.insert peerId session ?_ ?_ fun x other hx hother heq => ?_
    · rw [hkey]; exact hmore.known peerId original hsession
    · rw [hkey, hcount]; exact hmore.below peerId original hsession
    · rw [hkey] at heq
      exact hx (hmore.apart x peerId other original hother hsession heq)
  | used peerId recipientId original session envelope hsession huse hkey hcount =>
    -- first the envelope, then the counter that has moved past it
    have hfreshUse : keyUse envelope ∉ sent.map fun a => keyUse a.2 := by
      intro hmem
      obtain ⟨a, ha, hau⟩ := List.mem_map.mp hmem
      rw [huse] at hau
      have hlt := hmore.below peerId original hsession a ha (congrArg Prod.fst hau)
      rw [congrArg Prod.snd hau] at hlt
      exact absurd hlt (lt_irrefl _)
    have hsent : ∀ a ∈ sent ++ [(recipientId, envelope)],
        a ∈ sent ∨ keyUse a.2 = (b64Encode original.ratchet.ourRatchet.publicBytes.toList,
          original.ratchet.sendCount) := by
      intro a ha
      rcases List.mem_append.mp ha with ha | ha
      · exact .inl ha
      · rw [List.mem_singleton.mp ha]; exact .inr huse
    have hunique : ((sent ++ [(recipientId, envelope)]).map fun a => keyUse a.2).Nodup := by
      rw [List.map_append, List.nodup_append]
      refine ⟨hmore.unique, List.nodup_singleton _, fun x hx y hy hxy => ?_⟩
      rw [List.map_singleton, List.mem_singleton] at hy
      rw [hxy, hy] at hx
      exact hfreshUse hx
    have hins :=
      hmore.insert peerId session (by rw [hkey]; exact hmore.known peerId original hsession)
      (fun a ha hau => by
        rw [hkey] at hau
        exact lt_trans (hmore.below peerId original hsession a ha hau) hcount)
      (fun x other hx hother heq => by
        rw [hkey] at heq
        exact hx (hmore.apart x peerId other original hother hsession heq))
    refine ⟨fun a ha => ?_, hins.known, fun x s hx a ha hau => ?_, hins.apart, hunique⟩
    · rcases hsent a ha with ha | hau
      · exact hins.sentKnown a ha
      · exact ⟨_, hmore.known peerId original hsession, congrArg Prod.fst hau⟩
    · rcases hsent a ha with ha | hau'
      · exact hins.below x s hx a ha hau
      · rw [hau'] at hau ⊢
        have hpeer := hins.apart x peerId s session hx (Finmap.lookup_insert _)
          (by rw [hkey]; exact (b64Encode_key_inj hau).symm)
        subst hpeer
        rw [Finmap.lookup_insert] at hx
        cases hx
        exact hcount

end KeysUsed

/-! ## Runs -/

theorem ManagerRun.keysUsed {texts : List MessageId → Bytes} {t : Trace K Sec C}
    (run : ManagerRun S texts t) (hfresh : t.ratchetKeys.Nodup) :
    KeysUsed t.manager.sessions t.sent t.ratchetKeys ∧
      (∀ a ∈ t.manager.store.sealed, a ∈ t.sent) ∧ ∀ a ∈ t.released, a ∈ t.sent := by
  induction run with
  | start identity loadedAt cutoffNow pruneNow m hload =>
    cases hload
    exact ⟨KeysUsed.empty, fun a h => (by cases h), fun a h => by cases h⟩
  | @op t run op ih =>
    obtain ⟨hkeys, hstore, hreleased⟩ := ih (List.nodup_append.mp hfresh).1
    have houtcome := t.step_outcome (S := S) texts run.durable.sound op
    have hsealed : ∀ a ∈ (t.step S texts op).manager.store.sealed,
        a ∈ (t.step S texts op).sent := by
      intro a ha
      rcases houtcome.sealed a ha with ha | ha
      · exact List.mem_append_left _ (hstore a ha)
      · exact List.mem_append_right _ ha
    refine ⟨hkeys.step houtcome.sessionsStep hfresh, hsealed, fun a ha => ?_⟩
    · rcases List.mem_append.mp ha with ha | ha
      · rcases List.mem_append.mp ha with ha | ha
        · exact List.mem_append_left _ (hreleased a ha)
        · exact List.mem_append_right _ ha
      · exact hsealed a ha
  | @restart t run loadedAt cutoffNow pruneNow m hload ih =>
    obtain ⟨hkeys, hstore, hreleased⟩ := ih hfresh
    rw [run.durable.load] at hload
    cases hload
    refine ⟨hkeys, hstore, fun a ha => ?_⟩
    rcases List.mem_append.mp ha with ha | ha
    · exact hreleased a ha
    · exact hstore a ha

/-- **No message key for two envelopes.** Over every run with refused store calls,
crashes and restarts, if the ratchet keys drawn are distinct then two released
envelopes with the same ratchet key and message number are the same envelope, and no
two encryptions that succeeded used the same pair. -/
theorem message_keys_unique {S : IdentitySuite K Sec C} {texts : List MessageId → Bytes}
    {t : Trace K Sec C} (run : ManagerRun S texts t) (hfresh : t.ratchetKeys.Nodup) :
    (∀ a ∈ t.released, ∀ b ∈ t.released, keyUse a.2 = keyUse b.2 → a = b) ∧
      (t.sent.map fun a => keyUse a.2).Nodup := by
  obtain ⟨hkeys, -, hreleased⟩ := run.keysUsed hfresh
  refine ⟨fun a ha b hb huse => ?_, hkeys.unique⟩
  exact List.inj_on_of_nodup_map hkeys.unique (hreleased a ha) (hreleased b hb) huse

def alice : UserId := ⟨"alice", by decide⟩

def bob : UserId := ⟨"bob", by decide⟩

/-- A first message that cannot be stored, then one that can. -/
def firstOps : List (Op Key32 Ciphertext) :=
  [.initSessionFromBundle bob
      (publishedBundle symbolicIdentity (key32 9)
        (SignedPreKey.generate symbolicIdentity 1 (key32 9) (key32 8)) none)
      (key32 2) (key32 3) 0 false,
    .encryptMessage bob bob ⟨1⟩ [104] true, .encryptMessage bob bob ⟨1⟩ [104] false]

def firstSent : Trace Term Key32 Ciphertext :=
  firstOps.foldl (Trace.step symbolicIdentity fun _ => []) ⟨newManager (key32 1), [], [], [], 0⟩

theorem firstSent_run : ManagerRun symbolicIdentity (fun _ => []) firstSent :=
  .op (.op (.op (.start (key32 1) 0 0 0 (newManager (key32 1)) rfl) _) _) _

/-- Alice's first message to Bob. -/
def firstEnvelope : EncryptedEnvelope Ciphertext :=
  match firstSent.sent with
  | (_, envelope) :: _ => envelope
  | [] => ⟨0, .ratchet ⟨b64Encode [], 0, 0⟩, ⟨none, 0⟩⟩

/-- After a crash, the confirmation of the first message and a second one. -/
def sentTwice : Trace Term Key32 Ciphertext :=
  ((firstSent.restart 0 0 (firstSent.manager.reloaded 0 0)).step symbolicIdentity (fun _ => [])
    (.confirmMessageSent ⟨1⟩ false)).step symbolicIdentity (fun _ => [])
      (.encryptMessage bob bob ⟨2⟩ [105] false)

theorem message_keys_unique_sample :
    sentTwice.sent.map (fun a => (keyUse a.2).2) = [0, 1] ∧
      (∀ a ∈ sentTwice.released, ∀ b ∈ sentTwice.released, keyUse a.2 = keyUse b.2 → a = b) ∧
      (sentTwice.sent.map fun a => keyUse a.2).Nodup :=
  ⟨by decide, message_keys_unique
    (.op (.op (.restart firstSent_run 0 0 0 _ (firstSent_run.durable.load 0 0 0)) _) _) (by decide)⟩

end Cmp.Client
