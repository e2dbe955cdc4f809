import Cmp.Crypto.Genuine

/-! Two sessions, what they have encrypted and decrypted, and the steps of a run.
`Tracked` carries the joint invariant together with the log. -/

namespace Cmp.Crypto

open Cmp.Lib

variable {K Sec C : Type}

/-- An `encrypt` call that returned. -/
structure Sent (C : Type) where
  sender : Party
  plaintext : Bytes
  aad : Bytes
  message : RatchetMessage C

/-- A `decrypt` call that returned `Ok`. -/
structure Opened where
  receiver : Party
  header : RatchetHeader
  aad : Bytes
  plaintext : Bytes
  deriving DecidableEq

structure Exchange (K Sec C : Type) where
  session : Party → SessionState K Sec
  sent : List (Sent C)
  opened : List Opened
  /-- Public halves of the ratchet keys drawn so far. -/
  generated : List Key32

namespace Exchange

/-- Alice's session from `initialize_alice` on `ss` and the public key of `b`,
Bob's from `initialize_bob` on `ss` and the pair of `b`. -/
def start (S : Suite K Sec C) (a b : Sec) (ss : K) (alice : SessionState K Sec) :
    Exchange K Sec C where
  session := startSessions S b ss alice
  sent := []
  opened := []
  generated := [S.toPublic a, S.toPublic b]

/-- Party `x` calls `encrypt`. -/
def send (S : Suite K Sec C) (w : Exchange K Sec C) (x : Party) (plaintext aad : Bytes) :
    Exchange K Sec C :=
  match (encrypt S plaintext aad).run (w.session x) with
  | .ok m t =>
    { w with
      session := Function.update w.session x t
      sent := ⟨x, plaintext, aad, m⟩ :: w.sent }
  | .error _ t => { w with session := Function.update w.session x t }

/-- Party `x` calls `decrypt`; `drawn` is the secret the call draws if it makes a
DH step. -/
def receive (S : Suite K Sec C) (w : Exchange K Sec C) (x : Party) (drawn : Sec)
    (header : RatchetHeader) (ciphertext : C) (aad : Bytes) : Exchange K Sec C :=
  let generated :=
    if (w.session x).Draws header then S.toPublic drawn :: w.generated else w.generated
  match (decrypt S drawn header ciphertext aad).run (w.session x) with
  | .ok plaintext t =>
    { w with
      session := Function.update w.session x t
      opened := ⟨x, header, aad, plaintext⟩ :: w.opened
      generated := generated }
  | .error _ t =>
    { w with
      session := Function.update w.session x t
      generated := generated }

end Exchange

/-! ## The log against the history -/

/-- `m` is a message of chain `e` of the history. -/
structure Joint.Logged (S : Suite K Sec C) (ss : K) (v : Joint Sec) (m : Sent C) (e : Nat) :
    Prop where
  lt_top : e < v.top
  owner : (e + 1) % 2 = m.sender.parity
  header : m.message.header = v.header S e m.message.header.messageNumber
  lt_sent : m.message.header.messageNumber < v.sent e
  made : S.aeadEncrypt (v.key S ss e m.message.header.messageNumber) m.plaintext
    (authenticatedData m.aad m.message.header) = .ok m.message.ciphertext

/-- Two messages of one history with the same header are on the same chain. -/
theorem Joint.Logged.id_eq {S : Suite K Sec C} {ss : K} {v : Joint Sec} {m : Sent C} {e : Nat}
    (h : v.Logged S ss m e) :
    m.message.header.id = (v.pub S (e + 1), m.message.header.messageNumber) := by
  rw [h.header]
  rfl

/-- The receiver of chain `e` is the peer of its sender. -/
theorem Joint.Logged.receiver {S : Suite K Sec C} {ss : K} {v : Joint Sec} {m : Sent C} {e : Nat}
    (h : v.Logged S ss m e) : e % 2 = m.sender.other.parity := by
  have h1 := h.owner
  have h2 := m.sender.other_parity
  omega

theorem Joint.Logged.mono {S : Suite K Sec C} {ss : K} {v v' : Joint Sec} {m : Sent C} {e : Nat}
    (h : v.Logged S ss m e) (hq : v.toTimeline.SameSecrets v'.toTimeline (e + 1))
    (hprev : ∀ i, i + 1 < e → v.sent i = v'.sent i) (hsent : v.sent e ≤ v'.sent e)
    (htop : v.top ≤ v'.top) : v'.Logged S ss m e where
  lt_top := Nat.lt_of_lt_of_le h.lt_top htop
  owner := h.owner
  header := h.header.trans (Timeline.header_congr hq hprev _)
  lt_sent := UInt32.lt_of_lt_of_le h.lt_sent hsent
  made := (Timeline.key_congr hq _) ▸ h.made

theorem Joint.Logged.continues {S : Suite K Sec C} {ss : K} {v v' : Joint Sec} {m : Sent C}
    {e : Nat} (h : v.Logged S ss m e) (hv : v.Continues v') : v'.Logged S ss m e := by
  have hlt := h.lt_top
  exact h.mono (fun i hi => hv.secrets i (by omega)) (fun _ _ => by rw [hv.sent])
    (by rw [hv.sent]; exact UInt32.le_refl _) hv.top

/-- The receipt `r` is of the message `m`. -/
structure Opened.Of (r : Opened) (m : Sent C) : Prop where
  receiver : r.receiver = m.sender.other
  header : r.header = m.message.header
  aad : r.aad = m.aad
  plaintext : r.plaintext = m.plaintext

/-- The joint invariant and the log. -/
structure Tracked (S : Suite K Sec C) (ss : K) (v : Joint Sec) (w : Exchange K Sec C) : Prop where
  sync : Sync S ss v w.session (w.opened.map (·.header.id)) w.generated
  logged : ∀ m ∈ w.sent, ∃ e, v.Logged S ss m e
  sent_nodup : (w.sent.map (·.message.header.id)).Nodup
  opened_nodup : (w.opened.map (·.header.id)).Nodup
  matched : ∀ r ∈ w.opened, ∃ m ∈ w.sent, r.Of m

variable {S : Suite K Sec C} {ss : K} {v : Joint Sec} {w : Exchange K Sec C}

namespace Tracked

theorem start (hS : S.KdfTotal) (a b : Sec) (alice : SessionState K Sec)
    (hinit : initializeAlice S a ss (S.toPublic b) = .ok alice)
    (hab : S.toPublic a ≠ S.toPublic b) :
    Tracked S ss (Joint.start a b) (Exchange.start S a b ss alice) where
  sync := Sync.start hS a b alice hinit hab
  logged := fun m hm => by cases hm
  sent_nodup := List.nodup_nil
  opened_nodup := List.nodup_nil
  matched := fun r hr => by cases hr

/-- The message just encrypted has a name of its own. -/
theorem id_not_sent (h : Tracked S ss v w) {e : Nat} (he : e < v.top) (m : Sent C)
    (hm : m ∈ w.sent) : m.message.header.id ≠ (v.pub S (e + 1), v.sent e) := by
  intro hid
  obtain ⟨i, hl⟩ := h.logged m hm
  rw [hl.id_eq] at hid
  obtain ⟨hk, hn⟩ := Prod.mk.inj hid
  have hlt := hl.lt_top
  have hie : i = e := by
    have := h.sync.distinct (i + 1) (e + 1) (by omega) (by omega) hk
    omega
  subst hie
  exact absurd hl.lt_sent (hn ▸ UInt32.lt_irrefl _)

theorem send (hS : S.KdfTotal) (h : Tracked S ss v w) (x : Party) (plaintext aad : Bytes) :
    ∃ v', Tracked S ss v' (w.send S x plaintext aad) := by
  unfold Exchange.send
  cases hrun : (encrypt S plaintext aad).run (w.session x) with
  | error err t =>
    refine ⟨v, ?_⟩
    simp only [encrypt_error S _ _ _ _ _ hrun, Function.update_eq_self]
    exact h
  | ok m t =>
    obtain ⟨e, hx, hh, hmade, hc, hsync⟩ := h.sync.encrypt hS hrun
    have hnear := h.sync.near x
    have hnum : m.header.messageNumber = v.sent e := by rw [hh]; rfl
    have hlt : v.sent e < (v.sendOn e).sent e := by
      show _ < (v.toTimeline.send e).sent e
      rw [Timeline.send_sent_self, UInt32.lt_iff_toNat_lt, toNat_succ hc]
      exact Nat.lt_succ_self _
    refine ⟨v.sendOn e, hsync, ?_, ?_, h.opened_nodup, ?_⟩
    · intro m' hm'
      rcases List.mem_cons.mp hm' with rfl | hold
      · refine ⟨e, ?_⟩
        have hpar := h.sync.parity x
        have hhead : v.header S e (v.sent e) = (v.sendOn e).header S e (v.sent e) :=
          Timeline.header_congr (Timeline.sameSecrets_send _ _ _)
            (fun i hi => (Timeline.send_sent_ne _ (by omega)).symm) _
        exact
          { lt_top := by show e < v.top; omega
            owner := by show (e + 1) % 2 = x.parity; omega
            header := by rw [hnum]; exact hh.trans hhead
            lt_sent := by rw [hnum]; exact hlt
            made := by
              rw [hnum]
              exact (Timeline.key_congr (Timeline.sameSecrets_send _ _ _) _) ▸ hmade }
      · obtain ⟨i, hl⟩ := h.logged m' hold
        have hi := hl.lt_top
        refine ⟨i, hl.mono (Timeline.sameSecrets_send _ _ _) ?_ ?_ (Nat.le_refl _)⟩
        · intro j hj
          exact (Timeline.send_sent_ne _ (by omega)).symm
        · by_cases hie : i = e
          · subst hie
            exact UInt32.le_of_lt hlt
          · show v.sent i ≤ (v.toTimeline.send e).sent i
            rw [Timeline.send_sent_ne _ hie]
            exact UInt32.le_refl _
    · refine List.nodup_cons.mpr ⟨?_, h.sent_nodup⟩
      intro hmem
      obtain ⟨m', hm', hid⟩ := List.mem_map.mp hmem
      refine h.id_not_sent (e := e) (by omega) m' hm' (hid.trans ?_)
      show m.header.id = _
      rw [hh]
      rfl
    · intro r hr
      obtain ⟨m', hm', hof⟩ := h.matched r hr
      exact ⟨m', List.mem_cons_of_mem _ hm', hof⟩

/-- A rejected call changes nothing but the list of drawn keys. -/
theorem receive_error (h : Tracked S ss v w) (x : Party) (drawn : Sec) (header : RatchetHeader)
    (c : C) (aad : Bytes) {err : CryptoError} {t : SessionState K Sec}
    (hrun : (decrypt S drawn header c aad).run (w.session x) = .error err t) :
    Tracked S ss v (w.receive S x drawn header c aad) := by
  unfold Exchange.receive
  simp only [hrun, decrypt_error S _ _ _ _ _ _ _ hrun, Function.update_eq_self]
  refine { h with sync := ?_ }
  show Sync S ss v w.session _ (if _ then _ else _)
  split
  · exact h.sync.mono_generated _
  · exact h.sync

/-- A message that has no receipt yet is not in the opened list. -/
theorem id_not_opened (h : Tracked S ss v w) {m : Sent C} (hm : m ∈ w.sent)
    (hnew : ∀ r ∈ w.opened, r.header ≠ m.message.header) :
    m.message.header.id ∉ w.opened.map (·.header.id) := by
  intro hmem
  obtain ⟨r, hr, hid⟩ := List.mem_map.mp hmem
  obtain ⟨m', hm', hof⟩ := h.matched r hr
  have hsame : m' = m := List.inj_on_of_nodup_map h.sent_nodup hm' hm (by rw [← hid, hof.header])
  exact hnew r hr (hsame ▸ hof.header)

/-- Opening a logged message keeps the invariant, if the text is the right one. -/
theorem receive_ok (hS : S.KdfTotal) (hdh : S.DhCommutes) (h : Tracked S ss v w) {m : Sent C}
    (hm : m ∈ w.sent) (hid : m.message.header.id ∉ w.opened.map (·.header.id)) {drawn : Sec}
    (hfresh : (w.session m.sender.other).Draws m.message.header →
      S.toPublic drawn ∉ w.generated)
    {c : C} {p : Bytes} {t : SessionState K Sec}
    (hrun : (decrypt S drawn m.message.header c m.aad).run (w.session m.sender.other) = .ok p t)
    (hp : ∀ e, v.Logged S ss m e →
      S.aeadDecrypt (v.key S ss e m.message.header.messageNumber) c
        (authenticatedData m.aad m.message.header) = .ok p → p = m.plaintext) :
    ∃ v', Tracked S ss v' (w.receive S m.sender.other drawn m.message.header c m.aad) := by
  obtain ⟨e, hl⟩ := h.logged m hm
  have hideq := hl.id_eq
  have hrun' := hrun
  have hfresh' := hfresh
  rw [hl.header] at hrun' hfresh'
  obtain ⟨hd, v', hv, hsync⟩ := h.sync.decrypt_genuine hS hdh hl.receiver hl.lt_top hl.lt_sent
    (hideq ▸ hid) hfresh' hrun'
  rw [← hl.header] at hd hsync
  refine ⟨v', ?_⟩
  unfold Exchange.receive
  simp only [hrun]
  refine ⟨?_, ?_, h.sent_nodup, ?_, ?_⟩
  · rw [← hideq] at hsync
    exact hsync
  · intro m' hm'
    obtain ⟨i, hl'⟩ := h.logged m' hm'
    exact ⟨i, hl'.continues hv⟩
  · exact List.nodup_cons.mpr ⟨hid, h.opened_nodup⟩
  · intro r hr
    rcases List.mem_cons.mp hr with rfl | hold
    · exact ⟨m, hm, rfl, rfl, rfl, hp e hl hd⟩
    · exact h.matched r hold

end Tracked

end Cmp.Crypto
