import Cmp.Crypto.Delivery

/-! Injective agreement of the Double Ratchet against an attacker who chooses every
header, ciphertext, envelope context and delivery: a successful `decrypt` has an
`encrypt` call of the peer behind it, and no two have the same one. -/

namespace Cmp.Crypto

open Cmp.Lib

variable {K Sec C : Type}

/-! ## The attacker -/

/-- Root keys a session on `ss` can come to. -/
inductive Suite.IsRoot (S : Suite K Sec C) (ss : K) : K → Prop
  | shared : S.IsRoot ss ss
  | next (r d : K) (h : S.IsRoot ss r) : S.IsRoot ss (S.nextRoot r d)

/-- Message keys of any chain a session on `ss` can come to. -/
def Suite.IsSessionKey (S : Suite K Sec C) (ss k : K) : Prop :=
  ∃ r d n, S.IsRoot ss r ∧ k = S.messageKeyAt (S.newChain r d) n

/-- Only `encrypt` makes ciphertexts under session keys: if `c` opens under one,
it was produced in this run. -/
def Exchange.Unforged (S : Suite K Sec C) (ss : K) (w : Exchange K Sec C) (c : C) : Prop :=
  ∀ k aad p, S.IsSessionKey ss k → S.aeadDecrypt k c aad = .ok p →
    ∃ m ∈ w.sent, m.message.ciphertext = c

/-- Runs where the attacker calls `decrypt` of either party on anything he can make. -/
inductive AttackedRun (S : Suite K Sec C) (ss : K) (w₀ : Exchange K Sec C) :
    Exchange K Sec C → Prop
  | start : AttackedRun S ss w₀ w₀
  | send {w : Exchange K Sec C} (x : Party) (plaintext aad : Bytes)
      (run : AttackedRun S ss w₀ w) : AttackedRun S ss w₀ (w.send S x plaintext aad)
  | receive {w : Exchange K Sec C} (x : Party) (drawn : Sec) (header : RatchetHeader) (c : C)
      (aad : Bytes) (run : AttackedRun S ss w₀ w)
      (fresh : (w.session x).Draws header → S.toPublic drawn ∉ w.generated)
      (unforged : w.Unforged S ss c) :
      AttackedRun S ss w₀ (w.receive S x drawn header c aad)

variable {S : Suite K Sec C} {ss : K} {v : Joint Sec} {w : Exchange K Sec C}

theorem Timeline.root_isRoot (tl : Timeline Sec) (j : Nat) : S.IsRoot ss (tl.root S ss j) := by
  induction j with
  | zero => exact .shared
  | succ e ih => exact .next _ _ ih

/-- Two parties with the parities of one chain are peers. -/
theorem Party.eq_other_of_parity {p q : Party} {e : Nat} (hp : (e + 1) % 2 = p.parity)
    (hq : e % 2 = q.parity) : q = p.other := by
  cases p <;> cases q <;> simp [Party.parity, Party.other] at * <;> omega

/-- The key of a header names the chain of the message with that header. -/
theorem Tracked.chain_eq_of_header (h : Tracked S ss v w) {m : Sent C} {i e : Nat}
    (hl : v.Logged S ss m i) (he : e < v.top)
    (hkey : m.message.header.ratchetKey = v.pub S (e + 1)) : i = e := by
  have hi := hl.lt_top
  have hpub : v.pub S (i + 1) = v.pub S (e + 1) := (congrArg Prod.fst hl.id_eq).symm.trans hkey
  have := h.sync.distinct (i + 1) (e + 1) (by omega) (by omega) hpub
  omega

/-- What opens under a session key is a logged message with this header and context. -/
theorem Tracked.origin_of_open (hF : S.Free) (h : Tracked S ss v w) {header : RatchetHeader}
    {c : C} {aad p : Bytes} {k : K} (hk : S.IsSessionKey ss k) (hc : w.Unforged S ss c)
    (hd : S.aeadDecrypt k c (authenticatedData aad header) = .ok p) :
    ∃ m ∈ w.sent, ∃ e, v.Logged S ss m e ∧ k = v.key S ss e m.message.header.messageNumber ∧
      header = m.message.header ∧ aad = m.aad ∧ p = m.plaintext := by
  obtain ⟨m, hm, rfl⟩ := hc k _ p hk hd
  obtain ⟨e, hl⟩ := h.logged m hm
  obtain ⟨hkey, haad, hp⟩ := hF.opens_only hl.made hd
  obtain ⟨ha, hh⟩ := authenticatedData_inj haad
  exact ⟨m, hm, e, hl, hkey, hh, ha, hp⟩

/-- A successful `decrypt` opens a message of the peer that was not opened before. -/
theorem Tracked.decrypt_origin (hS : S.KdfTotal) (hF : S.Free) (h : Tracked S ss v w)
    {x : Party} {drawn : Sec} {header : RatchetHeader} {c : C} {aad p : Bytes}
    {t : SessionState K Sec} (hc : w.Unforged S ss c)
    (hok : (decrypt S drawn header c aad).run (w.session x) = .ok p t) :
    ∃ m ∈ w.sent, x = m.sender.other ∧ header = m.message.header ∧ aad = m.aad ∧
      p = m.plaintext ∧ header.id ∉ w.opened.map (·.header.id) := by
  have hnear := h.sync.near x
  have hpar := h.sync.parity x
  rcases (decrypt_eq_ok _ _ _ _ _ _ _ _).mp hok with ⟨k, hk, hd, -⟩ | ⟨hnone, hok⟩
  · -- a stored key belongs to a chain this party receives
    obtain ⟨e, hf, hkey, -, hnew, rfl⟩ := (h.sync.stored x _ _).mp hk
    have hsess : S.IsSessionKey ss (v.key S ss e header.id.2) :=
      ⟨_, _, _, v.root_isRoot e, rfl⟩
    obtain ⟨m, hm, i, hl, -, rfl, ha, hp⟩ := h.origin_of_open hF hsess hc hd
    have hle := hf.1
    have hie : i = e := h.chain_eq_of_header hl (by omega) hkey
    subst hie
    exact ⟨m, hm, Party.eq_other_of_parity hl.owner hf.2, rfl, ha, hp, hnew⟩
  · by_cases hsame : (w.session x).theirRatchetKey = some header.ratchetKey
    · -- the current chain: the position of the key is the number in the header
      have htheir := h.sync.theirRatchetKey_eq x
      have hrecv := h.sync.receivingChainKey_eq x
      match hj : v.index x with
      | 0 =>
        rw [hsame, hj] at htheir
        cases htheir
      | 1 =>
        rw [hj] at hrecv
        exact absurd hok (tryDecryptInner_unstarted _ _ _ _ _ _ _ hsame hrecv)
      | e + 2 =>
        rw [hsame, hj] at htheir
        have hkey : header.ratchetKey = v.pub S (e + 1) := Option.some.inj htheir
        obtain ⟨-, hd, -, -⟩ :=
          (h.sync.tryDecryptInner_current hS hj drawn header hkey c aad p t).mp hok
        obtain ⟨m, hm, i, hl, hk, rfl, ha, hp⟩ :=
          h.origin_of_open hF ⟨_, _, _, v.root_isRoot e, rfl⟩ hc hd
        have hie : i = e := h.chain_eq_of_header hl (by omega) hkey
        subst hie
        have hf : v.Follows x i := ⟨by omega, by omega⟩
        have hpos := (hF.messageKeyAt_inj hk).1
        refine ⟨m, hm, Party.eq_other_of_parity hl.owner hf.2, rfl, ha, hp, ?_⟩
        intro hmem
        have hlt := h.sync.opened_lt hf _ hmem hkey
        rw [v.pos_current hj, UInt32.lt_iff_toNat_lt] at hlt
        have hnum : m.message.header.id.2 = m.message.header.messageNumber := rfl
        rw [hnum] at hlt
        omega
    · -- a DH step: the root key and the peer key single out one chain
      obtain ⟨-, -, hd, -⟩ := (h.sync.tryDecryptInner_step hS drawn header hsame c aad p t).mp hok
      obtain ⟨m, hm, i, hl, hk, rfl, ha, hp⟩ :=
        h.origin_of_open hF ⟨_, _, _, v.root_isRoot _, rfl⟩ hc hd
      have hi := hl.lt_top
      have hkey : m.message.header.ratchetKey = v.pub S (i + 1) := congrArg Prod.fst hl.id_eq
      have hix : v.index x = i := by
        rcases hF.diffieHellman_inj (hF.messageKeyAt_inj hk).2.2 with ⟨-, hX⟩ | ⟨hj, -⟩
        · have := h.sync.distinct (i + 1) i (by omega) (by omega) (hkey.symm.trans hX)
          omega
        · exact h.sync.distinct _ _ (by omega) (by omega) hj
      refine ⟨m, hm, Party.eq_other_of_parity hl.owner (hix ▸ hpar), rfl, ha, hp, ?_⟩
      intro hmem
      obtain ⟨q, e, hf, hk', -⟩ := h.sync.passed _ hmem
      have hq := h.sync.near q
      have hle := hf.1
      have := h.chain_eq_of_header hl (e := e) (by omega) hk'
      omega

theorem AttackedRun.tracked (hS : S.KdfTotal) (hdh : S.DhCommutes) (hF : S.Free)
    {w₀ : Exchange K Sec C} (hstart : ∃ v, Tracked S ss v w₀) (hrun : AttackedRun S ss w₀ w) :
    ∃ v, Tracked S ss v w := by
  induction hrun with
  | start => exact hstart
  | send x plaintext aad _ ih =>
    obtain ⟨v, h⟩ := ih
    exact h.send hS x plaintext aad
  | @receive w x drawn header c aad _ hfresh hc ih =>
    obtain ⟨v, h⟩ := ih
    cases hdec : (decrypt S drawn header c aad).run (w.session x) with
    | error err t => exact ⟨v, h.receive_error _ _ _ _ _ hdec⟩
    | ok p t =>
      obtain ⟨m, hm, rfl, rfl, rfl, rfl, hid⟩ := h.decrypt_origin hS hF hc hdec
      exact h.receive_ok hS hdh hm hid hfresh hdec (fun _ _ _ => rfl)

/-- **Injective agreement.** The successful `decrypt` calls of a run map one to one
into the `encrypt` calls of the peer, with plaintext, header and context identical. -/
theorem injective_agreement (hS : S.KdfTotal) (hdh : S.DhCommutes) (hF : S.Free) (a b : Sec)
    (alice : SessionState K Sec) (hinit : initializeAlice S a ss (S.toPublic b) = .ok alice)
    (hab : S.toPublic a ≠ S.toPublic b) (w : Exchange K Sec C)
    (hrun : AttackedRun S ss (Exchange.start S a b ss alice) w) :
    ∃ f : Fin w.opened.length → Fin w.sent.length, Function.Injective f ∧
      ∀ i, (w.opened.get i).Of (w.sent.get (f i)) := by
  obtain ⟨v, h⟩ := hrun.tracked hS hdh hF ⟨_, Tracked.start hS a b alice hinit hab⟩
  have hmatch : ∀ i, ∃ j, (w.opened.get i).Of (w.sent.get j) := by
    intro i
    obtain ⟨m, hm, hof⟩ := h.matched _ (List.get_mem w.opened i)
    obtain ⟨j, rfl⟩ := List.mem_iff_get.mp hm
    exact ⟨j, hof⟩
  choose f hf using hmatch
  refine ⟨f, ?_, hf⟩
  intro i i' hii
  have hhead : (w.opened.get i).header = (w.opened.get i').header := by
    rw [(hf i).header, (hf i').header, hii]
  have hsame := List.inj_on_of_nodup_map h.opened_nodup (List.get_mem _ i) (List.get_mem _ i')
    (congrArg RatchetHeader.id hhead)
  exact (List.nodup_iff_injective_get.mp (h.opened_nodup.of_map _)) hsame

/-- The message that Bob opened is replayed to him. -/
def sampleReplay : Exchange Term Key32 Ciphertext :=
  sampleExchange.receive symbolic .bob (key32 4) sampleMessage.message.header
    sampleMessage.message.ciphertext sampleMessage.aad

theorem sampleReplay_run :
    AttackedRun symbolic (.shared 0)
      (Exchange.start symbolic (key32 1) (key32 2) (.shared 0) sampleAlice) sampleReplay :=
  .receive .bob (key32 4) _ _ _
    (.receive .bob (key32 3) _ _ _ (.send _ _ _ (.send _ _ _ .start)) (fun _ => by decide)
      (fun _ _ _ _ _ => ⟨sampleMessage, List.mem_cons_self, rfl⟩))
    (fun _ => by decide) (fun _ _ _ _ _ => ⟨sampleMessage, List.mem_cons_self, rfl⟩)

theorem injective_agreement_replay :
    sampleReplay.opened.length = 1 ∧
      ∃ f : Fin sampleReplay.opened.length → Fin sampleReplay.sent.length,
        Function.Injective f ∧ ∀ i, (sampleReplay.opened.get i).Of (sampleReplay.sent.get (f i)) :=
  ⟨by decide, injective_agreement symbolic_kdfTotal symbolic_dhCommutes symbolic_free (key32 1)
    (key32 2) sampleAlice rfl (by decide) sampleReplay sampleReplay_run⟩

end Cmp.Crypto
