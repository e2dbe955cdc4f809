import Cmp.Client.InboxRuns
import Cmp.Client.PendingInits

/-! Replays of a first message. Its key is the first of a chain from an X3DH secret, and
no stored session of its sender reaches that key: the session that opened the message
has spent it, and the root keys of all others are above the secret. So only a new
session can open the message again, and for that it needs the same prekeys. -/

namespace Cmp.Client

open Cmp.Crypto Cmp.Protocol Cmp.Lib Cmp.Lib.Action

variable {K Sec C : Type} {S : IdentitySuite K Sec C} {rank : K → Nat} {m m' : Manager K Sec C}
  {op : Op Sec C} {sent : List (UserId × EncryptedEnvelope C)} {peerId sender : UserId}
  {session : PeerSession K Sec} {envelope first : EncryptedEnvelope C}

/-- The one-time prekey an envelope names. -/
def namedPrekey (envelope : EncryptedEnvelope C) : Option UInt32 :=
  match envelope.header with
  | .preKey _ _ _ opkId _ => opkId
  | .ratchet _ => none

/-! ## Where sessions come from -/

/-- The ways a session can be in the store after an operation. -/
inductive SessionFrom (S : IdentitySuite K Sec C) (m : Manager K Sec C) (op : Op Sec C)
    (peerId : UserId) (session : PeerSession K Sec) : Prop
  | kept (hsession : m.sessions.lookup peerId = some session)
  | used (original : PeerSession K Sec) (plaintext aad : Bytes) (message : RatchetMessage C)
      (hsession : m.sessions.lookup peerId = some original)
      (hmade : (encrypt S.toSuite plaintext aad).run original.ratchet =
        .ok message session.ratchet)
  | made (bundle : PreKeyBundle) (hmade : MadeFrom S m.identity bundle session)
  | opened (messageId : MessageId) (envelope : EncryptedEnvelope C) (env : DecryptEnv Sec)
      (plaintext : Bytes) (opkId : Option UInt32)
      (hop : op = .decryptMessageToText peerId messageId envelope env)
      (hopens : Opens S m peerId envelope env.drawn plaintext session opkId)

theorem SessionFrom.of_insert {other : UserId} {new : PeerSession K Sec}
    (hs : (m.sessions.insert other new).lookup peerId = some session)
    (hnew : peerId = other → session = new → SessionFrom S m op peerId session) :
    SessionFrom S m op peerId session := by
  rw [HMap.lookup_insert_eq] at hs
  split at hs
  · next heq =>
    cases hs
    exact hnew heq rfl
  · exact .kept hs

theorem SessionFrom.of_erase {other : UserId}
    (hs : (m.sessions.erase other).lookup peerId = some session) :
    SessionFrom S m op peerId session := by
  rw [HMap.lookup_erase_eq] at hs
  split at hs
  · cases hs
  · exact .kept hs

theorem Outcome.sessionFrom (h : Outcome S m op sent m')
    (hs : m'.sessions.lookup peerId = some session) : SessionFrom S m op peerId session := by
  cases h with
  | initiated other bundle ephemeral drawn now fails new hsession =>
    refine .of_insert hs ?_
    rintro - rfl
    exact .made bundle ⟨ephemeral, drawn, now, hsession⟩
  | expired | rejected => exact .of_erase hs
  | encrypted _ other _ plaintext original message ratchet _ hsession hmade =>
    refine .of_insert hs ?_
    rintro rfl rfl
    exact .used original plaintext _ message hsession hmade
  | decrypted other messageId envelope env plaintext new opkId hopens =>
    unfold Manager.marked Manager.opened at hs
    rw [takeOneTimePrekey_eq] at hs
    refine .of_insert hs ?_
    rintro rfl rfl
    exact .opened messageId envelope env plaintext opkId rfl hopens
  | _ => exact .kept hs

theorem SessionFrom.supplied (hF : S.toSuite.Free) (hR : S.toSuite.RootsGrow rank)
    (hs : SessionsSupplied S rank m.sessions) (h : SessionFrom S m op peerId session) :
    session.ratchet.Supplied S.toSuite rank := by
  cases h with
  | kept hsession => exact hs _ _ hsession
  | used original plaintext aad message hsession hmade =>
    exact (encrypt_advances plaintext aad message (hs _ _ hsession) hmade).supplied
  | made bundle hmade =>
    obtain ⟨ephemeral, drawn, now, hsession⟩ := hmade
    obtain ⟨_, _, _, -, -, hratchet, rfl, -⟩ := sessionFromBundle_eq_ok hsession
    exact supplied_initializeAlice hratchet
  | opened _ _ _ _ _ _ hopens =>
    obtain ⟨k, -, -, hsupplied, -⟩ := hopens.spends hF hR hs
    exact hsupplied

/-! ## The key of the first message -/

/-- Sealed under a key of a chain from `root`. -/
def SealedFrom (S : IdentitySuite K Sec C) (root : K) (envelope : EncryptedEnvelope C) : Prop :=
  ∃ k, StartsAt S.toSuite root k ∧ OpensUnder S envelope k

/-- An envelope with one key, of a chain from an X3DH secret. -/
structure SealedFirst (S : IdentitySuite K Sec C) (rank : K → Nat)
    (first : EncryptedEnvelope C) (secret k : K) : Prop where
  rank_eq : rank secret = 0
  start : StartsAt S.toSuite secret k
  opens : OpensUnder S first k
  only : ∀ k', OpensUnder S first k' → k' = k

theorem FirstMessage.From.sealedFirst (hF : S.toSuite.Free) (haead : S.toSuite.AeadOpens)
    (hX : S.SecretsFirst rank) {identity : Sec} {bundle : PreKeyBundle} {f : FirstMessage C}
    (h : f.From S identity bundle) : ∃ secret k, SealedFirst S rank f.envelope secret k := by
  obtain ⟨secret, d, header, ciphertext, aad, hsecret, hparts, hsealed⟩ := h.key hX
  refine ⟨secret, _, hsecret, ⟨d, 0, rfl⟩, ⟨_, _, _, _, hparts, haead _ _ _ _ hsealed⟩, ?_⟩
  rintro k' ⟨_, _, _, _, hparts', hopen⟩
  cases hparts.symm.trans hparts'
  exact (hF.opens_only hsealed hopen).1

/-- What the relay can hand out as a PreKey envelope: none but `first` is sealed under
the secret that `first` was sealed under. -/
def Unforged (S : IdentitySuite K Sec C) (first envelope : EncryptedEnvelope C) : Prop :=
  envelope.header.isPreKey = true → ∀ root, SealedFrom S root first → SealedFrom S root envelope →
    envelope = first

variable {opkId : Option UInt32}

section Spent

variable {secret k : K}

/-- A new session that opened anything does not reach the key of `first` any more. -/
theorem Opens.spent_first (hF : S.toSuite.Free) (hR : S.toSuite.RootsGrow rank)
    (hfirst : SealedFirst S rank first secret k) (hforged : Unforged S first envelope) {drawn : Sec}
    {plaintext : Bytes} (h : Opens S m peerId envelope drawn plaintext session opkId)
    (hnone : m.sessions.lookup peerId = none) : session.ratchet.Spent S.toSuite rank k := by
  cases h with
  | existing original _ _ _ _ _ _ hsession => cases hnone.symm.trans hsession
  | first identityKey ephemeralKey spkId _ proto fields bob ratchet _ hheader hfields _ hbob
      hopen =>
    obtain ⟨spk, opk, bobSecret, -, -, -, -, rfl⟩ := createBobSession_eq_ok hbob
    obtain ⟨k', hk', hreach, hspent, hadvance⟩ :=
      decrypt_spends hF hR drawn fields.header fields.ciphertext fields.envelopeAad plaintext
        (supplied_initializeBob bobSecret _) hopen
    have hparts := envelopeParts_preKey hheader hfields
    have hopens : OpensUnder S envelope k' := ⟨_, _, _, _, hparts, hk'⟩
    have hstart : StartsAt S.toSuite bobSecret k' := hreach.resolve_left not_holds_start
    by_cases heq : bobSecret = secret
    · have hkind : envelope.header.isPreKey = true := by rw [hheader]; rfl
      have hsame := hforged hkind secret ⟨k, hfirst.start, hfirst.opens⟩ ⟨k', heq ▸ hstart, hopens⟩
      rw [hsame] at hopens
      cases hfirst.only k' hopens
      exact hspent
    · obtain ⟨r, hr, -⟩ := hspent.2
      refine ⟨fun hold => heq ?_, secret, by rw [hfirst.rank_eq]; exact Nat.zero_lt_of_lt hr,
        hfirst.start⟩
      have hreach' : StartsAt S.toSuite bobSecret k :=
        (hadvance.reached k hold).resolve_left not_holds_start
      exact hreach'.root_eq hF hfirst.start

theorem MadeFrom.spent_first (hR : S.toSuite.RootsGrow rank)
    (hfirst : SealedFirst S rank first secret k) {identity : Sec} {bundle : PreKeyBundle}
    (h : MadeFrom S identity bundle session) : session.ratchet.Spent S.toSuite rank k := by
  obtain ⟨hskipped, hchain, hrank⟩ := h.unstarted hR
  refine ⟨fun hold => ?_, secret, by rw [hfirst.rank_eq]; exact hrank, hfirst.start⟩
  rw [SessionState.Holds, hskipped, hchain] at hold
  exact not_holds_start hold

end Spent

/-! ## Prekeys that are used up -/

/-- The client has registered, and the one-time prekey is gone for good. -/
def Manager.UsedUp (opkId : Option UInt32) (m : Manager K Sec C) : Prop :=
  m.storedSpk.isSome = true ∧ ∀ id, opkId = some id →
    m.storedOpks.lookup id = none ∧ saturatingSucc id ≤ m.nextOneTimePrekeyId

namespace Manager.UsedUp

variable {opkId : Option UInt32}

theorem same (h : m.UsedUp opkId) (hspk : m'.storedSpk.isSome = true)
    (hopks : ∀ id, m.storedOpks.lookup id = none → m'.storedOpks.lookup id = none)
    (hnext : m'.nextOneTimePrekeyId = m.nextOneTimePrekeyId) : m'.UsedUp opkId :=
  ⟨hspk, fun id hid => ⟨hopks id (h.2 id hid).1, hnext ▸ (h.2 id hid).2⟩⟩

/-- New prekeys have other ids. -/
theorem generated (h : m.UsedUp opkId) {env : UploadEnv Sec}
    {generated : List (UInt32 × OneTimePreKey Sec)} {nextId : UInt32}
    (hgen : Generated S m env generated nextId) (hspk : m'.storedSpk = m.storedSpk)
    (hopks : m'.storedOpks = (fileGenerated generated nextId env m).storedOpks)
    (hnext : m'.nextOneTimePrekeyId = nextId) : m'.UsedUp opkId := by
  refine ⟨hspk ▸ h.1, fun id hid => ?_⟩
  obtain ⟨hgone, hbelow⟩ := h.2 id hid
  have hle : m.nextOneTimePrekeyId ≤ nextId :=
    UInt32.le_iff_toNat_le.mpr (by have := checkedAdd_eq_some hgen.next; omega)
  rw [hopks, hnext]
  refine ⟨?_, le_trans hbelow hle⟩
  unfold fileGenerated
  rw [HMap.lookup_insertAll_of_notMem _ _ (hgen.notMem hbelow), HMap.lookup_filter, hgone]
  rfl

end Manager.UsedUp

/-! ## What the relay does -/

/-- An operation in a run in which `first` is delivered under one sender's name, nothing
else is sealed under its secret, and the client registers once. -/
def Op.Relayed (S : IdentitySuite K Sec C) (first : EncryptedEnvelope C) (sender : UserId)
    (m : Manager K Sec C) : Op Sec C → Prop
  | .decryptMessageToText peerId _ envelope _ =>
    (envelope = first → peerId = sender) ∧ (peerId = sender → Unforged S first envelope)
  | .persistRegistrationKeys .. => m.storedSpk = none
  | _ => True

/-- `first` has been decrypted, and the result stored. -/
def Decrypted (first : EncryptedEnvelope C) (opened : List (Opening C)) : Prop :=
  ∃ o ∈ opened, o.kept = true ∧ o.envelope = first

/-- When `first` comes again, it names a one-time prekey, its sender has a session, or it comes
under an id whose marker is still there. -/
def Op.Covered (first : EncryptedEnvelope C) (sender : UserId) (m : Manager K Sec C)
    (opened : List (Opening C)) : Op Sec C → Prop
  | .decryptMessageToText peerId messageId envelope _ => envelope = first →
    Decrypted first opened → (namedPrekey first).isSome ∨ (m.sessions.lookup sender).isSome ∨
      (m.processedMessages.lookup (peerId, messageId)).isSome
  | _ => True

theorem Outcome.usedUp (h : Outcome S m op sent m') (hop : op.Relayed S first sender m)
    (hm : m.UsedUp opkId) : m'.UsedUp opkId := by
  cases h with
  | registered =>
    have hnone : m.storedSpk = none := hop
    have hsome := hm.1
    rw [hnone] at hsome
    cases hsome
  | decrypted =>
    unfold Manager.marked Manager.opened
    rw [takeOneTimePrekey_eq]
    refine hm.same hm.1 (fun id hid => ?_) rfl
    rw [Option.eq_none_iff_forall_ne_some] at hid ⊢
    exact fun opk hopk => hid opk (lookup_of_takenOpks hopk)
  | rotated | rotationReplaced => exact hm.same rfl (fun _ => id) rfl
  | replenished _ env generated nextId hgen | uploadReplaced _ _ _ env generated nextId _ hgen =>
    exact hm.generated hgen rfl rfl rfl
  | uploadRejected _ _ _ ids =>
    refine hm.same hm.1 (fun id hid => ?_) rfl
    show (HMap.removeAll ids m.storedOpks).2.lookup id = none
    rw [HMap.lookup_removeAll, hid]
    exact ite_self _
  | _ => exact hm.same hm.1 (fun _ => id) rfl

/-! ## The invariant -/

/-- No session of the sender reaches the key `k`, and old signed prekeys are kept only
beside a current one. -/
structure Fenced (S : IdentitySuite K Sec C) (rank : K → Nat) (sender : UserId) (k : K)
    (m : Manager K Sec C) : Prop where
  durable : ∃ prunedAt, m.Durable prunedAt
  history : m.storedSpk = none → m.previousSpks = []
  supplied : SessionsSupplied S rank m.sessions
  spent : ∀ session, m.sessions.lookup sender = some session →
    session.ratchet.Spent S.toSuite rank k

theorem Outcome.history (h : Outcome S m op sent m')
    (hm : m.storedSpk = none → m.previousSpks = []) :
    m'.storedSpk = none → m'.previousSpks = [] := by
  cases h with
  | registered => exact fun _ => rfl
  | rotated | rotationReplaced => rintro ⟨⟩
  | rotationAccepted =>
    intro hnone
    show m.previousSpks.take SIGNED_PREKEY_PRIVATE_HISTORY = []
    rw [hm hnone, List.take_nil]
  | decrypted =>
    unfold Manager.marked Manager.opened
    rw [takeOneTimePrekey_eq]
    exact hm
  | _ => exact hm

section Fenced

variable {secret k : K}

theorem Outcome.fenced (hF : S.toSuite.Free) (hR : S.toSuite.RootsGrow rank)
    (hfirst : SealedFirst S rank first secret k) (h : Outcome S m op sent m')
    (hop : op.Relayed S first sender m) (hm : Fenced S rank sender k m) :
    Fenced S rank sender k m' := by
  obtain ⟨prunedAt, hdurable⟩ := hm.durable
  refine ⟨⟨_, hdurable.outcome h⟩, h.history hm.history,
    fun peerId session hs => (h.sessionFrom hs).supplied hF hR hm.supplied, fun session hs => ?_⟩
  cases h.sessionFrom hs with
  | kept hsession => exact hm.spent session hsession
  | used original plaintext aad message hsession hmade =>
    exact (hm.spent original hsession).advance hF
      (encrypt_advances plaintext aad message (hm.supplied _ _ hsession) hmade)
  | made bundle hmade => exact hmade.spent_first hR hfirst
  | opened messageId envelope env plaintext opkId hcall hopens =>
    subst hcall
    cases hnone : m.sessions.lookup sender with
    | none => exact hopens.spent_first hF hR hfirst (hop.2 rfl) hnone
    | some original =>
      obtain ⟨_, -, -, -, hreach⟩ := hopens.spends hF hR hm.supplied
      exact (hm.spent original hnone).advance hF (hreach original hnone).2

/-- `first` is opened by a new session only, with the prekeys it names. -/
theorem Fenced.opens_new (hF : S.toSuite.Free) (hR : S.toSuite.RootsGrow rank)
    (hfirst : SealedFirst S rank first secret k) (hm : Fenced S rank sender k m) {drawn : Sec}
    {plaintext : Bytes} (hopens : Opens S m sender first drawn plaintext session opkId) :
    m.sessions.lookup sender = none ∧ opkId = namedPrekey first ∧ m.storedSpk.isSome = true ∧
      ∀ id, opkId = some id → id ∈ m.storedOpks := by
  have hnone : m.sessions.lookup sender = none := by
    refine Option.eq_none_iff_forall_ne_some.mpr fun original hsession => ?_
    obtain ⟨k', hk', -, -, hreach⟩ := hopens.spends hF hR hm.supplied
    cases hfirst.only k' hk'
    exact (hm.spent original hsession).not_reaches hF (hreach original hsession).1
  cases hopens with
  | existing original _ _ _ _ _ _ hsession => cases hnone.symm.trans hsession
  | first _ _ spkId _ _ fields bob ratchet _ hheader _ _ hbob =>
    obtain ⟨spk, opk, bobSecret, hspk, hopk, hsome, -, -⟩ := createBobSession_eq_ok hbob
    refine ⟨hnone, ?_, ?_, ?_⟩
    · unfold namedPrekey
      rw [hheader]
    · refine Option.isSome_iff_ne_none.mpr fun hstored => ?_
      rw [hstored, hm.history hstored] at hspk
      cases hspk
    · rintro id rfl
      rw [hopk] at hsome
      exact Finmap.lookup_isSome.mp (hsome rfl)

/-- What a run keeps: no session reaches the key, and once `first` is decrypted its
prekeys are used up. -/
structure OpenedOnce (S : IdentitySuite K Sec C) (rank : K → Nat) (first : EncryptedEnvelope C)
    (sender : UserId) (k : K) (m : Manager K Sec C) (opened : List (Opening C)) : Prop where
  fenced : Fenced S rank sender k m
  used : Decrypted first opened → m.UsedUp (namedPrekey first)
  once : opened.Pairwise fun o o' =>
    ¬((o.kept = true ∧ o.envelope = first) ∧ o'.kept = true ∧ o'.envelope = first)

variable {opened new : List (Opening C)}

/-- An operation that stores no new decryption of `first`. -/
theorem OpenedOnce.outcome (hF : S.toSuite.Free) (hR : S.toSuite.RootsGrow rank)
    (hfirst : SealedFirst S rank first secret k) (h : OpenedOnce S rank first sender k m opened)
    (houtcome : Outcome S m op sent m') (hop : op.Relayed S first sender m)
    (hnew : ∀ o ∈ new, ¬(o.kept = true ∧ o.envelope = first)) :
    OpenedOnce S rank first sender k m' (opened ++ new) := by
  refine ⟨houtcome.fenced hF hR hfirst hop h.fenced, ?_, ?_⟩
  · rintro ⟨o, ho, hkept⟩
    rcases List.mem_append.mp ho with ho | ho
    · exact houtcome.usedUp hop (h.used ⟨o, ho, hkept⟩)
    · exact absurd hkept (hnew o ho)
  · refine List.pairwise_append.mpr ⟨h.once, ?_, fun o _ o' ho' hboth => hnew o' ho' hboth.2⟩
    exact List.pairwise_of_forall_mem_list fun o _ o' ho' hboth => hnew o' ho' hboth.2

/-- `first` decrypted and stored: it was not before, and its prekeys are used up now. -/
theorem OpenedOnce.opens (hF : S.toSuite.Free) (hR : S.toSuite.RootsGrow rank)
    (hfirst : SealedFirst S rank first secret k) (h : OpenedOnce S rank first sender k m opened)
    {messageId : MessageId} {env : DecryptEnv Sec} {plaintext : Bytes} {opkId : Option UInt32}
    (houtcome : Outcome S m (.decryptMessageToText sender messageId first env) []
      ((m.opened sender session opkId env).marked (sender, messageId) (env.row plaintext)))
    (hopens : Opens S m sender first env.drawn plaintext session opkId)
    (hnew : m.processedMessages.lookup (sender, messageId) = none)
    (hop : (Op.decryptMessageToText sender messageId first env).Relayed S first sender m)
    (hcovered : (Op.decryptMessageToText sender messageId first env).Covered first sender m opened)
    {o : Opening C} :
    OpenedOnce S rank first sender k
      ((m.opened sender session opkId env).marked (sender, messageId) (env.row plaintext))
      (opened ++ [o]) := by
  obtain ⟨hnone, hnamed, hregistered, hstored⟩ := h.fenced.opens_new hF hR hfirst hopens
  have hbefore : ¬Decrypted first opened := by
    intro hdecrypted
    rcases hcovered rfl hdecrypted with hsome | hsome | hsome
    · obtain ⟨id, hid⟩ := Option.isSome_iff_exists.mp hsome
      have hgone := ((h.used hdecrypted).2 id hid).1
      exact Finmap.lookup_eq_none.mp hgone (hstored id (hnamed.trans hid))
    · rw [hnone] at hsome
      cases hsome
    · rw [hnew] at hsome
      cases hsome
  obtain ⟨prunedAt, hdurable⟩ := h.fenced.durable
  refine ⟨houtcome.fenced hF hR hfirst hop h.fenced, fun _ => ?_, ?_⟩
  · unfold Manager.marked Manager.opened
    rw [takeOneTimePrekey_eq, ← hnamed]
    refine ⟨hregistered, fun id hid => ⟨?_, hdurable.sound.opkBelow id (hstored id hid)⟩⟩
    rw [hid]
    exact Finmap.lookup_erase _ _
  · refine List.pairwise_append.mpr ⟨h.once, List.pairwise_singleton _ _, ?_⟩
    exact fun o ho o' _ hboth => hbefore ⟨o, ho, hboth.1⟩

/-- One call of `decrypt_message_to_text`. -/
theorem OpenedOnce.decrypt (hF : S.toSuite.Free) (hR : S.toSuite.RootsGrow rank)
    (hfirst : SealedFirst S rank first secret k) (h : OpenedOnce S rank first sender k m opened)
    {messageId : MessageId} {env : DecryptEnv Sec} {answer : InboundDecrypt}
    (hop : (Op.decryptMessageToText peerId messageId envelope env).Relayed S first sender m)
    (hcovered :
      (Op.decryptMessageToText peerId messageId envelope env).Covered first sender m opened)
    (hrun : (decryptMessageToText S peerId messageId envelope env).run m = .ok answer m') :
    OpenedOnce S rank first sender k m'
      (opened ++ Op.openings S m (.decryptMessageToText peerId messageId envelope env)) := by
  obtain ⟨hresult, hopenings⟩ := decryptResult_of_run hrun
  have houtcome := hresult.outcome
  rw [hopenings]
  rcases hresult.openings_cases with
    hunkept | ⟨plaintext, session, opkId, hopens, hnew, rfl, heq⟩
  · refine h.outcome hF hR hfirst houtcome hop fun o ho hkept => ?_
    rw [hunkept o ho] at hkept
    cases hkept.1
  · rw [heq]
    by_cases hsame : envelope = first
    · subst hsame
      cases hop.1 rfl
      exact h.opens hF hR hfirst houtcome hopens hnew hop hcovered
    · refine h.outcome hF hR hfirst houtcome hop fun o ho hkept => hsame ?_
      rw [List.mem_singleton.mp ho] at hkept
      exact hkept.2

/-- The confirmation that follows. -/
theorem OpenedOnce.committed (hF : S.toSuite.Free) (hR : S.toSuite.RootsGrow rank)
    (hfirst : SealedFirst S rank first secret k) (h : OpenedOnce S rank first sender k m opened)
    {messageId : MessageId} {processed : ProcessedMessage}
    (hmarker : m.processedMessages.lookup (peerId, messageId) = some processed) :
    OpenedOnce S rank first sender k (m.committed (peerId, messageId) processed) opened := by
  have hout : Outcome S m _ [] _ := .storedInbound peerId messageId false processed hmarker
  have hsame : OpenedOnce S rank first sender k _ (opened ++ []) :=
    h.outcome hF hR hfirst hout trivial fun o ho => by cases ho
  rwa [List.append_nil] at hsame

/-- Any operation. -/
theorem OpenedOnce.call (hF : S.toSuite.Free) (hR : S.toSuite.RootsGrow rank)
    (hfirst : SealedFirst S rank first secret k) (h : OpenedOnce S rank first sender k m opened)
    (texts : List MessageId → Bytes) (hop : op.Relayed S first sender m)
    (hcovered : op.Covered first sender m opened) :
    OpenedOnce S rank first sender k (finalState ((perform S texts op).run m))
      (opened ++ op.openings S m) := by
  obtain ⟨prunedAt, hdurable⟩ := h.fenced.durable
  have houtcome := perform_outcome (S := S) texts hdurable.sound op
  cases op with
  | decryptMessageToText peerId messageId envelope env =>
    obtain ⟨answer, m', hrun, -⟩ := decryptMessageToText_result S peerId messageId envelope env m
    simp only [perform, run_map, hrun]
    exact h.decrypt hF hR hfirst hop hcovered hrun
  | _ => exact h.outcome hF hR hfirst houtcome hop fun o ho => by cases ho

end Fenced

/-! ## Runs -/

/-- An event in such a run. -/
def InboxEvent.Relayed (S : IdentitySuite K Sec C) (first : EncryptedEnvelope C)
    (sender : UserId) (i : Inbox K Sec C) (e : InboxEvent Sec C) : Prop :=
  ∀ op, e.call = some op → op.Relayed S first sender i.app.crypto

def InboxEvent.Covered (first : EncryptedEnvelope C) (sender : UserId) (i : Inbox K Sec C)
    (e : InboxEvent Sec C) : Prop :=
  ∀ op, e.call = some op → op.Covered first sender i.app.crypto i.opened

theorem OpenedOnce.step {secret k : K} {texts : List MessageId → Bytes} {parses : String → Bool}
    (hF : S.toSuite.Free) (hR : S.toSuite.RootsGrow rank)
    (hfirst : SealedFirst S rank first secret k) {i : Inbox K Sec C}
    (h : OpenedOnce S rank first sender k i.app.crypto i.opened) {e : InboxEvent Sec C}
    (he : e.Relayed S first sender i) (hcovered : e.Covered first sender i) :
    OpenedOnce S rank first sender k (i.step S texts parses e).app.crypto
      (i.step S texts parses e).opened := by
  cases e with
  | deliver inbound env =>
    obtain ⟨shouldAck, fresh, app', hrun, hresult⟩ := processInbound_result S inbound env i.app
    have hdecrypt : ∀ {answer m}, (decryptMessageToText S inbound.senderId inbound.messageId
        inbound.envelope env.decrypt).run i.app.crypto = .ok answer m →
        OpenedOnce S rank first sender k m (i.opened ++ Op.openings S i.app.crypto
          (.decryptMessageToText inbound.senderId inbound.messageId inbound.envelope
            env.decrypt)) :=
      fun hcall => h.decrypt hF hR hfirst (he _ rfl) (hcovered _ rfl) hcall
    simp only [Inbox.step, InboxEvent.apply, InboxEvent.call, hrun, Option.map_some,
      Option.getD_some]
    cases hresult with
    | answered answer m hcall | unwritten text m hcall | unconfirmed text m hcall =>
      exact hdecrypt hcall
    | stored text m m' hcall hconfirm =>
      rcases hconfirm with rfl | ⟨processed, hmarker, rfl⟩
      · exact hdecrypt hcall
      · exact (hdecrypt hcall).committed hF hR hfirst hmarker
  | receipt senderId receiptId envelope env confirmFails =>
    obtain ⟨shouldAck, app', hrun, hresult⟩ :=
      openReadReceipt_result S parses senderId receiptId envelope env confirmFails i.app
    simp only [Inbox.step, InboxEvent.apply, InboxEvent.call, hrun, Option.map_some,
      Option.getD_some]
    cases hresult with
    | answered answer m hcall => exact h.decrypt hF hR hfirst (he _ rfl) (hcovered _ rfl) hcall
    | confirmed answer m processed hcall hmarker =>
      exact (h.decrypt hF hR hfirst (he _ rfl) (hcovered _ rfl) hcall).committed hF hR hfirst
        hmarker
  | other op => exact h.call hF hR hfirst texts (he op rfl) (hcovered op rfl)
  | sent peerId messageId body =>
    simp only [Inbox.step, InboxEvent.apply, InboxEvent.call, Option.map_none, Option.getD_none,
      List.append_nil]
    exact h

theorem InboxRun.openedOnce {secret k : K} {texts : List MessageId → Bytes}
    {parses : String → Bool} (hF : S.toSuite.Free) (hR : S.toSuite.RootsGrow rank)
    (hfirst : SealedFirst S rank first secret k) {i : Inbox K Sec C}
    (run : InboxRun S texts parses
      (fun i e => e.Relayed S first sender i ∧ e.Covered first sender i) i) :
    OpenedOnce S rank first sender k i.app.crypto i.opened := by
  induction run with
  | start userId identity loadedAt cutoffNow pruneNow m hload =>
    have hdurable := Manager.Durable.start hload
    cases hload
    refine ⟨⟨⟨_, hdurable⟩, fun _ => rfl, ?_, ?_⟩, ?_, List.Pairwise.nil⟩
    · rintro peerId session ⟨⟩
    · rintro session ⟨⟩
    · rintro ⟨o, ho, -⟩
      cases ho
  | event run e he ih => exact ih.step hF hR hfirst he.1 he.2
  | restart run loadedAt cutoffNow pruneNow m hload ih =>
    obtain ⟨prunedAt, hdurable⟩ := ih.fenced.durable
    rw [hdurable.load] at hload
    cases hload
    exact ⟨⟨⟨_, hdurable.reloaded cutoffNow pruneNow⟩, ih.fenced.history, ih.fenced.supplied,
      ih.fenced.spent⟩, ih.used, ih.once⟩

/-- **A first message is decrypted once.** In every run against a relay that delivers it
under one name as often as it likes, no two decryptions of a first message are stored,
if whenever it comes again it names a one-time prekey, its sender has a session, or it comes
under an id whose marker is still there. -/
theorem first_message_decrypted_once {texts : List MessageId → Bytes} {parses : String → Bool}
    (hF : S.toSuite.Free) (haead : S.toSuite.AeadOpens) (hR : S.toSuite.RootsGrow rank)
    (hX : S.SecretsFirst rank) {identity : Sec} {bundle : PreKeyBundle} {f : FirstMessage C}
    (hf : f.From S identity bundle) {i : Inbox K Sec C}
    (run : InboxRun S texts parses
      (fun i e => e.Relayed S f.envelope sender i ∧ e.Covered f.envelope sender i) i) :
    i.opened.Pairwise fun o o' => ¬((o.kept = true ∧ o.envelope = f.envelope) ∧
      o'.kept = true ∧ o'.envelope = f.envelope) := by
  obtain ⟨secret, k, hfirst⟩ := hf.sealedFirst hF haead hX
  exact (run.openedOnce hF hR hfirst).once

/-! ## A message without a one-time prekey -/

/-- Alice's first message to Bob; the relay had no one-time prekey of his left. -/
def aliceFirst : FirstMessage Ciphertext := ⟨⟨1⟩, [104], firstEnvelope⟩

set_option maxRecDepth 4000 in
theorem aliceFirst_from : aliceFirst.From symbolicIdentity (key32 1)
    (publishedBundle symbolicIdentity (key32 9) bobSpk none) :=
  ⟨_, _, _, ⟨key32 2, key32 3, 0, rfl⟩, rfl, rfl⟩

/-- It is delivered under another id. -/
def firstAgain : InboxEvent Key32 Ciphertext :=
  .deliver ⟨⟨2⟩, alice, firstEnvelope⟩ ⟨⟨200, 200, 200, key32 7, false, false⟩, false, false⟩

def stepped (i : Inbox Term Key32 Ciphertext) (e : InboxEvent Key32 Ciphertext) :
    Inbox Term Key32 Ciphertext :=
  i.step symbolicIdentity (fun _ => []) (fun _ => true) e

/-- Bob has registered and decrypted the message. -/
def bobReads : Inbox Term Key32 Ciphertext :=
  stepped (stepped ⟨App.new bob (newManager (key32 9)) [], [], [], 0⟩ (.other bobRegisters))
    (firstDelivery false)

theorem delivery_relayed (i : Inbox Term Key32 Ciphertext) (messageId : MessageId)
    (env : InboundEnv Key32) :
    (InboxEvent.deliver ⟨messageId, alice, firstEnvelope⟩ env).Relayed symbolicIdentity
      aliceFirst.envelope alice i := by
  rintro _ ⟨⟩
  exact ⟨fun _ => rfl, fun _ _ _ _ _ => rfl⟩

theorem bobReads_run (guard : Inbox Term Key32 Ciphertext → InboxEvent Key32 Ciphertext → Prop)
    (hguard : ∀ i e, i.opened = [] → e.Relayed symbolicIdentity aliceFirst.envelope alice i →
      guard i e) :
    InboxRun symbolicIdentity (fun _ => []) (fun _ => true) guard bobReads := by
  refine .event (.event (.start bob (key32 9) 0 0 0 (newManager (key32 9)) rfl) _ ?_) _ ?_
  · refine hguard _ _ rfl ?_
    rintro _ ⟨⟩
    rfl
  · exact hguard _ _ rfl (delivery_relayed _ _ _)

/-- The ids under which a decryption of the message was stored. -/
def firstOpenings (i : Inbox Term Key32 Ciphertext) : List MessageId :=
  (i.opened.filter fun o => o.kept && decide (o.envelope = firstEnvelope)).map Opening.messageId

set_option maxRecDepth 4000 in
theorem first_message_decrypted_once_bob :
    firstOpenings bobReads = [⟨1⟩] ∧
      (stepped bobReads firstAgain).opened.Pairwise fun o o' =>
        ¬((o.kept = true ∧ o.envelope = aliceFirst.envelope) ∧
          o'.kept = true ∧ o'.envelope = aliceFirst.envelope) := by
  have reads : InboxRun symbolicIdentity (fun _ => []) (fun _ => true) (fun i e =>
      e.Relayed symbolicIdentity aliceFirst.envelope alice i ∧
        e.Covered aliceFirst.envelope alice i) bobReads := by
    refine bobReads_run _ fun i e hnone he => ⟨he, ?_⟩
    rintro op -
    cases op with
    | decryptMessageToText =>
      rintro - ⟨o, ho, -⟩
      rw [hnone] at ho
      cases ho
    | _ => trivial
  have covered : firstAgain.Covered aliceFirst.envelope alice bobReads := by
    rintro _ ⟨⟩ - -
    exact .inr (.inl rfl)
  exact ⟨rfl, first_message_decrypted_once symbolic_free symbolic_aeadOpens symbolic_rootsGrow
    symbolicIdentity_secretsFirst aliceFirst_from
    (.event reads firstAgain ⟨delivery_relayed _ _ _, covered⟩)⟩

/-- Bob answers. -/
def bobAnswers : InboxEvent Key32 Ciphertext :=
  .other (.encryptMessage alice alice ⟨30⟩ [105] false)

/-- The relay rejects the answer, and the session goes with it. -/
def answerRejected : InboxEvent Key32 Ciphertext := .other (.rejectMessage ⟨30⟩ false)

set_option maxRecDepth 4000 in
/-- The relay then delivers the message again, and it is decrypted again. -/
theorem first_message_replayed :
    ∃ i, InboxRun symbolicIdentity (fun _ => []) (fun _ => true)
        (fun i e => e.Relayed symbolicIdentity aliceFirst.envelope alice i) i ∧
      firstOpenings i = [⟨1⟩, ⟨2⟩] := by
  have reads := bobReads_run _ fun _ _ _ he => he
  have answered := InboxRun.event reads bobAnswers fun _ h => by cases h; trivial
  have rejected := InboxRun.event answered answerRejected fun _ h => by cases h; trivial
  exact ⟨_, .event rejected firstAgain (delivery_relayed _ _ _), rfl⟩

end Cmp.Client
