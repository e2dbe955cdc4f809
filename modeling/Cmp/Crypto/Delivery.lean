import Cmp.Crypto.Exchange
import Cmp.Crypto.Symbolic

/-! Delivery completeness of the Double Ratchet: whatever the order, an encrypted
message that has not been opened yet decrypts to its plaintext, unless too many
keys would have to be skipped. -/

namespace Cmp.Crypto

open Cmp.Lib

variable {K Sec C : Type}

/-- Runs of `encrypt` calls and deliveries of what they produced. A message may be
delivered at any time, late or never; a repeat of an opened one is part of a run
when it is rejected. Keys drawn are new. -/
inductive DeliveryRun (S : Suite K Sec C) (w₀ : Exchange K Sec C) : Exchange K Sec C → Prop
  | start : DeliveryRun S w₀ w₀
  | send {w : Exchange K Sec C} (x : Party) (plaintext aad : Bytes) (run : DeliveryRun S w₀ w) :
      DeliveryRun S w₀ (w.send S x plaintext aad)
  | deliver {w : Exchange K Sec C} (m : Sent C) (drawn : Sec) (run : DeliveryRun S w₀ w)
      (sent : m ∈ w.sent)
      (fresh : (w.session m.sender.other).Draws m.message.header → S.toPublic drawn ∉ w.generated)
      (repeated : (∃ r ∈ w.opened, r.header = m.message.header) →
        ∃ err t, (decrypt S drawn m.message.header m.message.ciphertext m.aad).run
          (w.session m.sender.other) = .error err t) :
      DeliveryRun S w₀
        (w.receive S m.sender.other drawn m.message.header m.message.ciphertext m.aad)

variable {S : Suite K Sec C} {ss : K}

/-- The joint invariant holds along every run. -/
theorem DeliveryRun.tracked (hS : S.KdfTotal) (hdh : S.DhCommutes) (haead : S.AeadOpens)
    {w₀ w : Exchange K Sec C} (hstart : ∃ v, Tracked S ss v w₀) (hrun : DeliveryRun S w₀ w) :
    ∃ v, Tracked S ss v w := by
  induction hrun with
  | start => exact hstart
  | send x plaintext aad _ ih =>
    obtain ⟨v, h⟩ := ih
    exact h.send hS x plaintext aad
  | @deliver w m drawn _ hm hfresh hrep ih =>
    obtain ⟨v, h⟩ := ih
    cases hdec : (decrypt S drawn m.message.header m.message.ciphertext m.aad).run
        (w.session m.sender.other) with
    | error err t => exact ⟨v, h.receive_error _ _ _ _ _ hdec⟩
    | ok p t =>
      have hnew : ∀ r ∈ w.opened, r.header ≠ m.message.header := by
        intro r hr heq
        obtain ⟨err, t', herr⟩ := hrep ⟨r, hr, heq⟩
        rw [hdec] at herr
        cases herr
      refine h.receive_ok hS hdh hm (h.id_not_opened hm hnew) hfresh hdec ?_
      intro e hl hd
      rw [haead _ _ _ _ hl.made] at hd
      cases hd
      rfl

/-- **Delivery completeness.** In every run of two sessions on the same secret, the
first delivery of a message to the peer, with the `envelope_aad` it was encrypted
with, returns its plaintext, provided the stored keys and the keys to skip are at
most `MAX_SKIP`. -/
theorem delivery_complete (hS : S.KdfTotal) (hdh : S.DhCommutes) (haead : S.AeadOpens)
    (a b : Sec) (alice : SessionState K Sec)
    (hinit : initializeAlice S a ss (S.toPublic b) = .ok alice)
    (hab : S.toPublic a ≠ S.toPublic b) (w : Exchange K Sec C)
    (hrun : DeliveryRun S (Exchange.start S a b ss alice) w) (m : Sent C) (hm : m ∈ w.sent)
    (hnew : ∀ r ∈ w.opened, r.header ≠ m.message.header) (drawn : Sec)
    (hskip : HMap.size (w.session m.sender.other).skipped +
      (w.session m.sender.other).keysToSkip m.message.header ≤ MAX_SKIP) :
    ∃ t, (decrypt S drawn m.message.header m.message.ciphertext m.aad).run
      (w.session m.sender.other) = .ok m.plaintext t := by
  obtain ⟨v, h⟩ := hrun.tracked hS hdh haead ⟨_, Tracked.start hS a b alice hinit hab⟩
  obtain ⟨e, hl⟩ := h.logged m hm
  have hid := h.id_not_opened hm hnew
  rw [hl.id_eq] at hid
  have hd := haead _ _ _ _ hl.made
  rw [hl.header] at hd hskip ⊢
  exact h.sync.decrypt_genuine_ok hS hdh hl.receiver hl.lt_top hl.lt_sent hid drawn hd hskip

/-- The same from here on: whatever the two send and receive next, a message that has not been
opened yet decrypts to its plaintext. -/
def Delivering (S : Suite K Sec C) (w : Exchange K Sec C) : Prop :=
  ∀ w', DeliveryRun S w w' → ∀ m ∈ w'.sent, (∀ r ∈ w'.opened, r.header ≠ m.message.header) →
    ∀ drawn, HMap.size (w'.session m.sender.other).skipped +
      (w'.session m.sender.other).keysToSkip m.message.header ≤ MAX_SKIP →
    ∃ t, (decrypt S drawn m.message.header m.message.ciphertext m.aad).run
      (w'.session m.sender.other) = .ok m.plaintext t

theorem DeliveryRun.trans {w₀ w w' : Exchange K Sec C} (hrun : DeliveryRun S w₀ w)
    (hrest : DeliveryRun S w w') : DeliveryRun S w₀ w' := by
  induction hrest with
  | start => exact hrun
  | send x plaintext aad _ ih => exact ih.send x plaintext aad
  | deliver m drawn _ hm hfresh hrep ih => exact ih.deliver m drawn hm hfresh hrep

/-- Alice has sent `m` in a new session, and Bob has received it. -/
def Exchange.afterFirst (S : Suite K Sec C) (a b drawn : Sec) (ss : K)
    (alice : SessionState K Sec) (plaintext aad : Bytes) (m : RatchetMessage C) :
    Exchange K Sec C :=
  ((Exchange.start S a b ss alice).send S .alice plaintext aad).receive S .bob drawn m.header
    m.ciphertext aad

/-- The first message of Alice, delivered: from then on delivery is ordinary, both ways. -/
theorem delivers_after_first (hS : S.KdfTotal) (hdh : S.DhCommutes) (haead : S.AeadOpens)
    {a b drawn : Sec} {s s' t : SessionState K Sec} {p aad : Bytes} {m : RatchetMessage C}
    (hinit : initializeAlice S a ss (S.toPublic b) = .ok s)
    (hab : S.toPublic a ≠ S.toPublic b) (hfresh : S.toPublic drawn ∉ [S.toPublic a, S.toPublic b])
    (hsend : (encrypt S p aad).run s = .ok m s')
    (hopen : (decrypt S drawn m.header m.ciphertext aad).run
      (initializeBob ss (RatchetKeyPair.generate S b)) = .ok p t) :
    let w := Exchange.afterFirst S a b drawn ss s p aad m
    w.session .alice = s' ∧ w.session .bob = t ∧ w.sent = [⟨.alice, p, aad, m⟩] ∧
      w.opened = [⟨.bob, m.header, aad, p⟩] ∧ Delivering S w := by
  have hsent : (Exchange.start S a b ss s).send S .alice p aad =
      { Exchange.start S a b ss s with
        session := Function.update (startSessions S b ss s) .alice s',
        sent := [⟨.alice, p, aad, m⟩] } := by
    have hrun : (encrypt S p aad).run ((Exchange.start S a b ss s).session .alice) =
        .ok m s' := hsend
    simp only [Exchange.send, hrun]
    rfl
  have hbob : Function.update (startSessions S b ss s) .alice s' .bob =
      initializeBob ss (RatchetKeyPair.generate S b) := rfl
  have hreceived : Exchange.afterFirst S a b drawn ss s p aad m =
      { session := Function.update (Function.update (startSessions S b ss s) .alice s') .bob t
        sent := [⟨.alice, p, aad, m⟩]
        opened := [⟨.bob, m.header, aad, p⟩]
        generated := if (initializeBob ss (RatchetKeyPair.generate S b)).Draws m.header then
          S.toPublic drawn :: [S.toPublic a, S.toPublic b] else [S.toPublic a, S.toPublic b] } := by
    unfold Exchange.afterFirst
    rw [hsent]
    simp only [Exchange.receive, hbob, hopen]
    rfl
  have hrun : DeliveryRun S (Exchange.start S a b ss s)
      (Exchange.afterFirst S a b drawn ss s p aad m) := by
    refine .deliver ⟨.alice, p, aad, m⟩ drawn (.send .alice p aad .start) ?_ (fun _ => ?_) ?_
    · rw [hsent]
      exact List.mem_singleton.mpr rfl
    · rw [hsent]
      exact hfresh
    · rw [hsent]
      rintro ⟨r, hr, -⟩
      cases hr
  intro w
  refine ⟨?_, ?_, ?_, ?_, fun w' hrest m' hm' hnew drawn' hskip => ?_⟩
  · exact congrArg (fun w => w.session .alice) hreceived
  · exact congrArg (fun w => w.session .bob) hreceived
  · exact congrArg Exchange.sent hreceived
  · exact congrArg Exchange.opened hreceived
  · exact delivery_complete hS hdh haead a b s hinit hab w' (hrun.trans hrest) m' hm' hnew drawn'
      hskip

def sampleAlice : SessionState Term Key32 :=
  (Joint.start (key32 1) (key32 2)).session symbolic (.shared 0) 1 0 ∅

/-- Alice has sent two messages. -/
def sampleSent : Exchange Term Key32 Ciphertext :=
  ((Exchange.start symbolic (key32 1) (key32 2) (.shared 0) sampleAlice).send
    symbolic .alice [10] [7]).send symbolic .alice [11] [7]

/-- The second of them. -/
def sampleMessage : Sent Ciphertext := sampleSent.sent.get ⟨0, by decide⟩

/-- The second arrives first. -/
def sampleExchange : Exchange Term Key32 Ciphertext :=
  sampleSent.receive symbolic .bob (key32 3) sampleMessage.message.header
    sampleMessage.message.ciphertext sampleMessage.aad

theorem sampleExchange_run :
    DeliveryRun symbolic (Exchange.start symbolic (key32 1) (key32 2) (.shared 0) sampleAlice)
      sampleExchange :=
  .deliver sampleMessage (key32 3) (.send _ _ _ (.send _ _ _ .start)) List.mem_cons_self
    (fun _ => by decide) (fun ⟨_, hr, _⟩ => by cases hr)

theorem delivery_complete_late :
    ∃ m ∈ sampleExchange.sent, m.plaintext = [10] ∧
      ∃ t, (decrypt symbolic (key32 4) m.message.header m.message.ciphertext m.aad).run
        (sampleExchange.session .bob) = .ok [10] t :=
  ⟨sampleExchange.sent.get ⟨1, by decide⟩, List.get_mem _ _, rfl,
    delivery_complete symbolic_kdfTotal symbolic_dhCommutes symbolic_aeadOpens (key32 1) (key32 2)
      sampleAlice rfl (by decide) sampleExchange sampleExchange_run _ (List.get_mem _ _)
      (by decide) (key32 4) (by decide)⟩

end Cmp.Crypto
