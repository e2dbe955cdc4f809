import Cmp.Client.InboxKeys
import Cmp.Client.InboxSafety

/-! Runs of deliveries keep the invariants of keys, markers and history: no inbound
message is lost, and none is acknowledged before it is in the history. -/

namespace Cmp.Client

open Cmp.Crypto Cmp.Protocol Cmp.Lib Cmp.Lib.Action

variable {K Sec C : Type}

/-! ## Operations that leave markers alone -/

/-- What an admitted operation other than a confirmed acknowledgement does. -/
structure Quiet (S : IdentitySuite K Sec C) (rank : K → Nat) (op : Op Sec C)
    (m m' : Manager K Sec C) : Prop where
  memory : m'.processedMessages = m.processedMessages
  store : m'.store.processed = m.store.processed
  supplied : SessionsSupplied S rank m'.sessions
  advance : ∀ peerId session, m.sessions.lookup peerId = some session →
    ∃ session', m'.sessions.lookup peerId = some session' ∧
      session.ratchet.Advances S.toSuite rank session'.ratchet
  items : ∀ item ∈ m'.pendingOutbound, item ∈ m.pendingOutbound ∨ op.queuedItem = some item ∨
    ∀ ackId, item.ackedIds ackId = none

variable {i : Inbox K Sec C}

section Quiet

variable {S : IdentitySuite K Sec C} {rank : K → Nat} {op : Op Sec C} {m m' : Manager K Sec C}
  {sent : List (UserId × EncryptedEnvelope C)} {mail : MessageId → Option (Delivery C)}

theorem Quiet.same (hs : SessionsSupplied S rank m.sessions)
    (hmemory : m'.processedMessages = m.processedMessages)
    (hstore : m'.store.processed = m.store.processed) (hsessions : m'.sessions = m.sessions)
    (hitems : ∀ item ∈ m'.pendingOutbound, item ∈ m.pendingOutbound ∨
      op.queuedItem = some item ∨ ∀ ackId, item.ackedIds ackId = none) : Quiet S rank op m m' where
  memory := hmemory
  store := hstore
  supplied := by rw [hsessions]; exact hs
  advance peerId session hsession :=
    ⟨session, by rw [hsessions]; exact hsession, .refl (hs peerId session hsession)⟩
  items := hitems

/-- A session put in the place of one it continues, or of none. -/
theorem Quiet.insert {peerId : UserId} (session : PeerSession K Sec)
    (hs : SessionsSupplied S rank m.sessions) (hsession : session.ratchet.Supplied S.toSuite rank)
    (hold : ∀ original, m.sessions.lookup peerId = some original →
      original.ratchet.Advances S.toSuite rank session.ratchet)
    (hmemory : m'.processedMessages = m.processedMessages)
    (hstore : m'.store.processed = m.store.processed)
    (hsessions : m'.sessions = m.sessions.insert peerId session)
    (hitems : ∀ item ∈ m'.pendingOutbound, item ∈ m.pendingOutbound ∨
      op.queuedItem = some item ∨ ∀ ackId, item.ackedIds ackId = none) : Quiet S rank op m m' where
  memory := hmemory
  store := hstore
  supplied := by rw [hsessions]; exact hs.insert hsession
  advance x original horiginal := by
    rw [hsessions, HMap.lookup_insert_eq]
    split
    · next heq => exact ⟨session, rfl, hold original (heq ▸ horiginal)⟩
    · exact ⟨original, horiginal, .refl (hs x original horiginal)⟩
  items := hitems

theorem ackedIds_of_sealed {item : PendingOutbound C} {sealed : UserId × EncryptedEnvelope C}
    (h : sealedTo item.toClientMessage = some sealed) (ackId : MessageId) :
    item.ackedIds ackId = none := by
  cases item <;> first | rfl | cases h

theorem items_append {pending : List (PendingOutbound C)} {item : PendingOutbound C}
    (hitem : op.queuedItem = some item ∨ ∀ ackId, item.ackedIds ackId = none) :
    ∀ other ∈ pending ++ [item], other ∈ pending ∨ op.queuedItem = some other ∨
      ∀ ackId, other.ackedIds ackId = none := by
  intro other hother
  rcases List.mem_append.mp hother with hother | hother
  · exact .inl hother
  · rw [List.mem_singleton.mp hother]
    exact .inr hitem

theorem Outcome.quiet (h : Outcome S i.app.crypto op sent m') (hop : op.Admitted mail i)
    (hs : SessionsSupplied S rank i.app.crypto.sessions) :
    Quiet S rank op i.app.crypto m' ∨
      ∃ ackId ids index item, i.app.crypto.pendingOutbound[index]? = some item ∧
        item.ackedIds ackId = some ids ∧
        m' = (i.app.crypto.unmarked ids).unfiled index ackId := by
  have hkeep : ∀ {pending : List (PendingOutbound C)},
      pending ⊆ i.app.crypto.pendingOutbound → ∀ item ∈ pending,
        item ∈ i.app.crypto.pendingOutbound ∨ op.queuedItem = some item ∨
          ∀ ackId, item.ackedIds ackId = none :=
    fun hsub item hitem => .inl (hsub hitem)
  have herase : ∀ index, i.app.crypto.pendingOutbound.eraseIdx index ⊆
      i.app.crypto.pendingOutbound := fun index => List.eraseIdx_subset
  cases h with
  | acked ackId ids fails index item hitem hids =>
    exact .inr ⟨ackId, ids, index, item, hitem, hids, rfl⟩
  | expired | rejected | pruned | prunedTwice | decrypted | storedInbound => exact hop.elim
  | idle | asked | registered => exact .inl (.same hs rfl rfl rfl (hkeep (List.Subset.refl _)))
  | initiated peerId bundle ephemeral drawn now fails session hsession =>
    obtain ⟨_, _, ratchet, -, -, hratchet, rfl, -⟩ := sessionFromBundle_eq_ok hsession
    refine .inl (.insert session hs (supplied_initializeAlice hratchet)
      (fun original horiginal => ?_) rfl rfl
      rfl (hkeep (List.Subset.refl _)))
    cases horiginal.symm.trans hop
  | encrypted _ peerId recipientId plaintext original message ratchet item hsession hmade hitem =>
    have hadvance := encrypt_advances plaintext _ message (hs _ _ hsession) hmade
    refine .inl (.insert (original.used ratchet) hs hadvance.supplied
      (fun other hother => ?_) rfl rfl rfl (items_append (.inr (ackedIds_of_sealed hitem))))
    cases hsession.symm.trans hother
    exact hadvance
  | queued _ item hitem => exact .inl (.same hs rfl rfl rfl (items_append (.inl hitem)))
  | confirmed _ index => exact .inl (.same hs rfl rfl rfl (hkeep (herase index)))
  | rotated => exact .inl (.same hs rfl rfl rfl (items_append (.inr fun _ => rfl)))
  | rotationAccepted _ index => exact .inl (.same hs rfl rfl rfl (hkeep (herase index)))
  | rotationReplaced _ index =>
    refine .inl (.same hs rfl rfl rfl fun item hitem => ?_)
    rcases List.mem_or_eq_of_mem_set hitem with hitem | rfl
    · exact .inl hitem
    · exact .inr (.inr fun _ => rfl)
  | replenished => exact .inl (.same hs rfl rfl rfl (items_append (.inr fun _ => rfl)))
  | uploadReplaced _ index =>
    exact .inl (.same hs rfl rfl rfl fun item hitem =>
      items_append (.inr fun _ => rfl) item (List.mem_of_mem_eraseIdx hitem))
  | uploadRejected _ index => exact .inl (.same hs rfl rfl rfl (hkeep (herase index)))

end Quiet

/-! ## Events -/

/-- The id of a delivery stands for its sender and its envelope. -/
def Delivers (mail : MessageId → Option (Delivery C)) (peerId : UserId) (messageId : MessageId)
    (envelope : EncryptedEnvelope C) : Prop :=
  mail messageId = some (.message peerId envelope) ∨
    mail messageId = some (.receipt peerId envelope)

/-- The invariant of a run of deliveries. -/
structure Inbox.Invariant (S : IdentitySuite K Sec C) (rank : K → Nat)
    (mail : MessageId → Option (Delivery C)) (i : Inbox K Sec C) : Prop where
  durable : i.app.crypto.Durable i.prunedAt
  keys : KeysSpent S rank i.app.crypto.sessions i.opened
  safe : Safe mail i.app.crypto i.app.messages i.opened i.acked i.prunedAt

section Events

variable {S : IdentitySuite K Sec C} {rank : K → Nat} {mail : MessageId → Option (Delivery C)}
  {m m' : Manager K Sec C} {messages : List HistoryRow} {opened : List (Opening C)}
  {acked : List MessageId} {prunedAt : Nat} {peerId : UserId} {messageId : MessageId}
  {envelope : EncryptedEnvelope C} {env : DecryptEnv Sec} {answer : InboundDecrypt}

/-- An envelope the ratchet opens has not been stored before. -/
theorem Safe.fresh (h : Safe mail m messages opened acked prunedAt)
    (hkeys : KeysSpent S rank m.sessions opened) (hF : S.toSuite.Free)
    (hR : S.toSuite.RootsGrow rank) (hO : S.toSuite.OneKey)
    (hmail : Delivers mail peerId messageId envelope) {drawn : Sec} {plaintext : Bytes}
    {session : PeerSession K Sec} {opkId : Option UInt32}
    (hopens : Opens S m peerId envelope drawn plaintext session opkId) :
    ∀ o ∈ opened, o.key = (peerId, messageId) → o.kept = false := by
  intro o ho hkey
  obtain ⟨hpeer, hid⟩ := Prod.mk.inj hkey
  by_contra hkept
  have henvelope : o.envelope = envelope := by
    have hknown := h.known o ho
    unfold Opening.IsMessage Opening.IsReceipt at hknown
    rw [hid] at hknown
    rcases hmail with hmail | hmail <;> rw [hmail] at hknown <;> rcases hknown with h | h <;>
      cases h <;> rfl
  rw [← hpeer, ← henvelope] at hopens
  exact hkeys.not_opens hF hR hO ho (Bool.of_not_eq_false hkept) hopens

/-- The marker behind a text. -/
theorem DecryptResult.pending {text : String}
    (h : DecryptResult S m peerId messageId envelope env (.pending text) m') :
    ∃ since, m'.processedMessages.lookup (peerId, messageId) = some ⟨some text, since⟩ := by
  generalize hanswer : InboundDecrypt.pending text = answer at h
  cases h with
  | failed | pruned | unsaved => cases hanswer
  | known processed hmarker =>
    obtain ⟨pendingPlaintext, since⟩ := processed
    cases pendingPlaintext with
    | none => cases hanswer
    | some t => cases hanswer; exact ⟨since, hmarker⟩
  | decrypted plaintext session opkId =>
    cases hanswer
    refine ⟨env.markedAt, ?_⟩
    rw [Manager.opened, takeOneTimePrekey_eq]
    exact Finmap.lookup_insert _

theorem DecryptResult.duplicate
    (h : DecryptResult S m peerId messageId envelope env .duplicate m') :
    m' = m ∧ ∃ since, m.processedMessages.lookup (peerId, messageId) = some ⟨none, since⟩ := by
  generalize hanswer : InboundDecrypt.duplicate = answer at h
  cases h with
  | known processed hmarker =>
    obtain ⟨pendingPlaintext, since⟩ := processed
    cases pendingPlaintext with
    | none => exact ⟨rfl, since, hmarker⟩
    | some t => cases hanswer
  | _ => cases hanswer

/-- One call of `decrypt_message_to_text` keeps the invariants. -/
theorem DecryptResult.safe (hF : S.toSuite.Free) (hR : S.toSuite.RootsGrow rank)
    (hO : S.toSuite.OneKey) (h : Safe mail m messages opened acked prunedAt)
    (hkeys : KeysSpent S rank m.sessions opened)
    (hmail : Delivers mail peerId messageId envelope)
    (hlatest : max env.now env.pruneNow ≤ prunedAt)
    (hresult : DecryptResult S m peerId messageId envelope env answer m') :
    Safe mail m' messages (opened ++ openings S m peerId messageId envelope env answer) acked
        prunedAt ∧
      KeysSpent S rank m'.sessions
        (opened ++ openings S m peerId messageId envelope env answer) := by
  have hnow : env.now ≤ prunedAt := le_trans (le_max_left _ _) hlatest
  have hprune : env.pruneNow ≤ prunedAt := le_trans (le_max_right _ _) hlatest
  have hfailed : Safe mail m messages
      (opened ++ openings S m peerId messageId envelope env .failed) acked prunedAt ∧
      KeysSpent S rank m.sessions
        (opened ++ openings S m peerId messageId envelope env .failed) := by
    refine ⟨h.unkept (fun o ho => ?_) (fun o ho => (mem_openings_failed ho).1)
      fun o ho o' ho' hkey => ?_, hkeys.append fun o ho => (mem_openings_failed ho).1⟩
    · obtain ⟨-, hkey, henvelope, -⟩ := mem_openings_failed ho
      obtain ⟨hpeer, hid⟩ := Prod.mk.inj hkey
      unfold Opening.IsMessage Opening.IsReceipt
      rw [hpeer, hid, henvelope]
      exact hmail
    · obtain ⟨-, hkey', -, plaintext, hp⟩ := mem_openings_failed ho'
      obtain ⟨session, opkId, hopens⟩ := ratchetOpens_opens hp
      exact h.fresh hkeys hF hR hO hmail hopens o ho (hkey.trans hkey')
  have hstore : ∀ {now : Nat} {p : Manager K Sec C} (key : UserId × MessageId)
      (processed : ProcessedMessage), (p.pruned now).store.processed.lookup key = some processed →
        p.store.processed.lookup key = some processed :=
    fun _ _ hp => (lookup_keepFrom.mp hp).1
  cases hresult with
  | failed => exact hfailed
  | known processed hmarker =>
    rw [openings_known hmarker, List.append_nil]
    exact ⟨h, hkeys⟩
  | pruned => exact ⟨hfailed.1.pruned hnow rfl hstore rfl, hfailed.2⟩
  | unsaved =>
    have hpruned : Safe mail (m.pruned env.now) messages _ acked prunedAt :=
      hfailed.1.pruned hnow rfl hstore rfl
    exact ⟨hpruned.pruned hprune rfl (fun _ _ => id) rfl, hfailed.2⟩
  | decrypted plaintext session opkId hopens hnew hrow =>
    rw [openings_pending hnew, Manager.opened, takeOneTimePrekey_eq]
    have hpruned : Safe mail (m.pruned env.now) messages opened acked prunedAt :=
      h.pruned hnow rfl hstore rfl
    have htwice : Safe mail ((m.pruned env.now).prunedInMemory env.pruneNow) messages opened acked
        prunedAt := hpruned.pruned hprune rfl (fun _ _ => id) rfl
    exact ⟨htwice.opens (o := ⟨peerId, messageId, envelope, utf8Text plaintext, env.markedAt, true⟩)
      hmail (h.fresh hkeys hF hR hO hmail hopens) rfl rfl rfl rfl,
      hkeys.opens (o := ⟨peerId, messageId, envelope, utf8Text plaintext, env.markedAt, true⟩)
        hF hR hopens⟩

/-- The common start of a delivery: the manager after the decryption. -/
theorem Inbox.Invariant.decrypted (hF : S.toSuite.Free) (hR : S.toSuite.RootsGrow rank)
    (hO : S.toSuite.OneKey) (h : i.Invariant S rank mail)
    (hmail : Delivers mail peerId messageId envelope)
    (hrun : (decryptMessageToText S peerId messageId envelope env).run i.app.crypto =
      .ok answer m') :
    Inbox.Invariant S rank mail
      ⟨{ i.app with crypto := m' },
        i.opened ++ Op.openings S i.app.crypto
          (.decryptMessageToText peerId messageId envelope env),
        i.acked, max i.prunedAt (max env.now env.pruneNow)⟩ := by
  obtain ⟨hresult, hopenings⟩ := decryptResult_of_run hrun
  obtain ⟨hsafe, hkeys⟩ := hresult.safe hF hR hO (h.safe.mono (le_max_left _ _)) h.keys hmail
    (le_max_right _ _)
  exact ⟨Manager.Durable.outcome hresult.outcome h.durable, hopenings ▸ hkeys, hopenings ▸ hsafe⟩

theorem Inbox.Invariant.committed {i : Inbox K Sec C} (h : i.Invariant S rank mail)
    {processed : ProcessedMessage}
    (hmarker : i.app.crypto.processedMessages.lookup (peerId, messageId) = some processed)
    (hrow : ∀ o ∈ i.opened, o.kept = true → o.key = (peerId, messageId) → o.IsMessage mail →
      o.row ∈ i.app.messages) :
    Inbox.Invariant S rank mail
      { i with app :=
        { i.app with crypto := i.app.crypto.committed (peerId, messageId) processed } } where
  durable := by
    have hd := Manager.Durable.outcome (Outcome.storedInbound (S := S) peerId messageId false
      processed hmarker) h.durable
    exact Nat.max_zero i.prunedAt ▸ hd
  keys := h.keys
  safe := h.safe.committed hmarker hrow

/-- A delivery keeps the invariant, and answers `should_ack` only with the row in the
history. -/
theorem InboundResult.invariant (hF : S.toSuite.Free) (hR : S.toSuite.RootsGrow rank)
    (hO : S.toSuite.OneKey) (h : i.Invariant S rank mail) {inbound : InboundMessage C}
    {env : InboundEnv Sec} {shouldAck fresh : Bool} {app' : App K Sec C}
    (hmail : mail inbound.messageId = some (.message inbound.senderId inbound.envelope))
    (hresult : InboundResult S i.app inbound env shouldAck fresh app') :
    Inbox.Invariant S rank mail
        ⟨app', i.opened ++ Op.openings S i.app.crypto (.decryptMessageToText inbound.senderId
          inbound.messageId inbound.envelope env.decrypt),
          i.acked ++ (if shouldAck then [inbound.messageId] else []),
          max i.prunedAt (max env.decrypt.now env.decrypt.pruneNow)⟩ ∧
      (shouldAck = true → ∃ o ∈ i.opened ++ Op.openings S i.app.crypto
          (.decryptMessageToText inbound.senderId inbound.messageId inbound.envelope env.decrypt),
        o.kept = true ∧ o.IsMessage mail ∧ o.key = (inbound.senderId, inbound.messageId) ∧
          o.row ∈ app'.messages) := by
  have hdelivers : Delivers mail inbound.senderId inbound.messageId inbound.envelope := .inl hmail
  have hsettled : ∀ {messages : List HistoryRow} {opened : List (Opening C)} {o : Opening C},
      o ∈ opened → o.kept = true → o.IsMessage mail →
        o.key = (inbound.senderId, inbound.messageId) → o.row ∈ messages →
          ∀ id ∈ [inbound.messageId], Settled mail messages opened id := by
    intro messages opened o ho hkept hmessage hkey hrow id hid
    rw [List.mem_singleton.mp hid]
    exact .inl ⟨o, ho, hkept, hmessage, (Prod.mk.inj hkey).2, hrow⟩
  cases hresult with
  | answered answer m hrun hanswer =>
    have hi := h.decrypted hF hR hO hdelivers hrun
    cases answer with
    | pending text => exact absurd rfl (hanswer text)
    | failed =>
      refine ⟨?_, fun h => by cases h⟩
      simpa using hi
    | duplicate =>
      -- a marker without text: the history has the message
      obtain ⟨rfl, since, hmarker⟩ := (decryptResult_of_run hrun).1.duplicate
      obtain ⟨o, ho, hkept, hkey, hmark⟩ := hi.safe.marked _ _ (.inl hmarker)
      have hid := (Prod.mk.inj hkey).2
      have hmessage : o.IsMessage mail := (hi.safe.known o ho).resolve_right fun hreceipt => by
        unfold Opening.IsReceipt at hreceipt
        rw [hid, hmail] at hreceipt
        cases hreceipt
      have hrow : o.row ∈ i.app.messages := by
        rcases hmark.text with htext | ⟨-, hrow⟩
        · cases htext
        · exact hrow hmessage
      exact ⟨⟨hi.durable, hi.keys,
        hi.safe.acknowledge (hsettled ho hkept hmessage hkey hrow)⟩,
        fun _ => ⟨o, ho, hkept, hmessage, hkey, hrow⟩⟩
  | unwritten text m hrun =>
    refine ⟨?_, fun h => by cases h⟩
    simpa using h.decrypted hF hR hO hdelivers hrun
  | unconfirmed text m hrun =>
    have hi := h.decrypted hF hR hO hdelivers hrun
    obtain ⟨since, hmarker⟩ := (decryptResult_of_run hrun).1.pending
    obtain ⟨o, -, -, -, -, hrow, -, hsafe⟩ := hi.safe.stores hmail hmarker
    rw [hrow] at hsafe
    refine ⟨⟨hi.durable, hi.keys, ?_⟩, fun h => by cases h⟩
    simpa using hsafe
  | stored text m m' hrun hconfirm =>
    have hi := h.decrypted hF hR hO hdelivers hrun
    obtain ⟨since, hmarker⟩ := (decryptResult_of_run hrun).1.pending
    obtain ⟨o, ho, hkept, hmessage, hkey, hrow, hmem, hsafe⟩ := hi.safe.stores hmail hmarker
    rw [hrow] at hsafe
    have hwritten : Inbox.Invariant S rank mail
        ⟨{ i.app with
            crypto := m
            messages := (insertMessage ⟨inbound.senderId, .received, inbound.messageId, text⟩
              i.app.messages).1 }, _, i.acked ++ [inbound.messageId], _⟩ :=
      ⟨hi.durable, hi.keys, hsafe.acknowledge
        (hsettled ho hkept hmessage hkey (hrow ▸ hmem))⟩
    refine ⟨?_, fun _ => ⟨o, ho, hkept, hmessage, hkey, hrow ▸ hmem⟩⟩
    rcases hconfirm with rfl | ⟨processed, hprocessed, rfl⟩
    · exact hwritten
    · refine hwritten.committed hprocessed fun o' ho' hkept' hkey' _ => ?_
      cases hsafe.unique ho' ho hkept' hkept (hkey'.trans hkey.symm)
      exact hrow ▸ hmem

theorem ReceiptResult.invariant (hF : S.toSuite.Free) (hR : S.toSuite.RootsGrow rank)
    (hO : S.toSuite.OneKey) (h : i.Invariant S rank mail) {app' : App K Sec C}
    (hmail : mail messageId = some (.receipt peerId envelope))
    (hresult : ReceiptResult S i.app peerId messageId envelope env app') :
    Inbox.Invariant S rank mail
      ⟨app', i.opened ++ Op.openings S i.app.crypto
        (.decryptMessageToText peerId messageId envelope env), i.acked,
        max i.prunedAt (max env.now env.pruneNow)⟩ := by
  cases hresult with
  | answered answer m hrun => exact h.decrypted hF hR hO (.inr hmail) hrun
  | confirmed answer m processed hrun hmarker =>
    refine (h.decrypted hF hR hO (.inr hmail) hrun).committed hmarker fun o _ _ hkey hmessage => ?_
    unfold Opening.IsMessage at hmessage
    rw [(Prod.mk.inj hkey).2, hmail] at hmessage
    cases hmessage

theorem Inbox.Invariant.other (texts : List MessageId → Bytes) (hF : S.toSuite.Free)
    (h : i.Invariant S rank mail) {op : Op Sec C} (hop : op.Admitted mail i) :
    Inbox.Invariant S rank mail
      { i with
        app := { i.app with crypto := finalState ((perform S texts op).run i.app.crypto) }
        prunedAt := max i.prunedAt op.prunesAt } := by
  have houtcome := perform_outcome (S := S) texts h.durable.sound op
  unfold HasOutcome at houtcome
  have hdurable := Manager.Durable.outcome houtcome h.durable
  have hsafe := h.safe.mono (le_max_left i.prunedAt op.prunesAt)
  rcases houtcome.quiet hop h.keys.supplied with hquiet |
    ⟨ackId, ids, index, item, hitem, hids, heq⟩
  · refine ⟨hdurable, h.keys.advance hF hquiet.supplied hquiet.advance,
      hsafe.quiet hquiet.memory hquiet.store fun item hitem => ?_⟩
    rcases hquiet.items item hitem with hold | hnew | hnone
    · exact .inl hold
    · right
      intro ackId ids hids id hid
      cases op with
      | queueAck messageIds newId fails =>
        cases hnew
        simp only [PendingOutbound.ackedIds, Option.ite_none_right_eq_some] at hids
        cases hids.2
        exact h.safe.acked id (hop id hid)
      | queueReadReceiptAck receiptIds newId fails =>
        cases hnew
        simp only [PendingOutbound.ackedIds, Option.ite_none_right_eq_some] at hids
        cases hids.2
        exact .inr (hop id hid)
      | _ => cases hnew
    · right
      intro ackId ids hids
      cases (hnone ackId).symm.trans hids
  · rw [heq] at hdurable ⊢
    exact ⟨hdurable, h.keys, hsafe.unmarked hitem hids⟩

theorem op_openings_of_admitted {op : Op Sec C} (hop : op.Admitted mail i) :
    op.openings S i.app.crypto = [] := by
  cases op <;> first | rfl | exact hop.elim

theorem Inbox.Invariant.step {texts : List MessageId → Bytes} {parses : String → Bool}
    (hF : S.toSuite.Free) (hR : S.toSuite.RootsGrow rank) (hO : S.toSuite.OneKey)
    (h : i.Invariant S rank mail) {e : InboxEvent Sec C} (he : e.Admitted mail i) :
    (i.step S texts parses e).Invariant S rank mail := by
  cases e with
  | deliver inbound env =>
    obtain ⟨shouldAck, fresh, app', hrun, hresult⟩ := processInbound_result S inbound env i.app
    have hi := (hresult.invariant hF hR hO h he).1
    simp only [Inbox.step, InboxEvent.apply, hrun]
    exact hi
  | receipt senderId receiptId envelope env confirmFails =>
    obtain ⟨shouldAck, app', hrun, hresult⟩ :=
      openReadReceipt_result S parses senderId receiptId envelope env confirmFails i.app
    have hi := hresult.invariant hF hR hO h he
    simp only [Inbox.step, InboxEvent.apply, hrun, List.append_nil]
    exact hi
  | other op =>
    have hi := h.other texts hF he
    have hnone := op_openings_of_admitted (S := S) he
    unfold Inbox.step InboxEvent.apply InboxEvent.call
    simpa [hnone] using hi
  | sent peerId messageId body =>
    have hsafe := h.safe.sent ⟨peerId, .sent, messageId, body⟩ he
    unfold Inbox.step InboxEvent.apply InboxEvent.call
    simpa using (⟨h.durable, h.keys, hsafe⟩ : Inbox.Invariant S rank mail
      { i with app := { i.app with
        messages := (insertMessage ⟨peerId, .sent, messageId, body⟩ i.app.messages).1 } })

theorem InboxRun.invariant {texts : List MessageId → Bytes} {parses : String → Bool}
    (hF : S.toSuite.Free) (hR : S.toSuite.RootsGrow rank) (hO : S.toSuite.OneKey)
    (run : InboxRun S texts parses (InboxEvent.Admitted mail) i) :
    i.Invariant S rank mail := by
  induction run with
  | start userId identity loadedAt cutoffNow pruneNow m hload =>
    have hdurable := Manager.Durable.start hload
    cases hload
    exact ⟨hdurable, KeysSpent.empty, Safe.start rfl rfl rfl⟩
  | event run e he ih => exact ih.step hF hR hO he
  | restart run loadedAt cutoffNow pruneNow m hload ih =>
    rw [ih.durable.load] at hload
    cases hload
    exact ⟨ih.durable.reloaded cutoffNow pruneNow, ih.keys,
      ih.safe.reloaded ih.durable cutoffNow pruneNow⟩

end Events

def bobRegisters : Op Key32 Ciphertext :=
  .persistRegistrationKeys (SignedPreKey.generate symbolicIdentity 1 (key32 9) (key32 8)) [] 100
    100 false

/-- A delivery of Alice's message, with the transaction of the decryption refused or not. -/
def firstDelivery (fails : Bool) : InboxEvent Key32 Ciphertext :=
  .deliver ⟨⟨1⟩, alice, firstEnvelope⟩ ⟨⟨200, 200, 200, key32 7, false, fails⟩, false, false⟩

end Cmp.Client
