import Cmp.Crypto.Timeline
import Cmp.Crypto.SkippedKeys

/-! The joint invariant of an initiator and a responder, and what each ratchet
operation does to it.

* `Sync.start`: two fresh sessions are in sync;
* `Sync.encrypt`: a message is added to the sender's chain;
* `Sync.useStored`, `Sync.receive`, `Sync.dhStep`: the three ways a message is
  received. -/

namespace Cmp.Crypto

open Cmp.Lib

variable {K Sec C : Type}

/-- Alice initiates the session, Bob responds. -/
inductive Party
  | alice
  | bob
  deriving DecidableEq, Repr

def Party.other : Party → Party
  | .alice => .bob
  | .bob => .alice

/-- The secrets of the initiator have odd numbers. -/
def Party.parity : Party → Nat
  | .alice => 1
  | .bob => 0

theorem Party.other_parity (p : Party) : p.other.parity + p.parity = 1 := by
  cases p <;> rfl

theorem Party.eq_or_other (p q : Party) : q = p ∨ q = p.other := by
  cases p <;> cases q <;> simp [Party.other]

/-- The history together with the place of each party in it. -/
structure Joint (Sec : Type) extends Timeline Sec where
  index : Party → Nat
  recv : Party → UInt32
  top : Nat

namespace Joint

/-- How far party `p` has followed chain `e`. -/
def pos (v : Joint Sec) (p : Party) (e : Nat) : UInt32 :=
  if e + 2 = v.index p then v.recv p else v.sent e

/-- Party `p` has started to receive chain `e`. -/
def Follows (v : Joint Sec) (p : Party) (e : Nat) : Prop := e + 2 ≤ v.index p ∧ e % 2 = p.parity

end Joint

/-- The joint invariant. `opened` are the messages already decrypted and
`generated` the ratchet keys drawn so far. -/
structure Sync (S : Suite K Sec C) (ss : K) (v : Joint Sec) (sess : Party → SessionState K Sec)
    (opened : List (Key32 × UInt32)) (generated : List Key32) : Prop where
  parity : ∀ p, v.index p % 2 = p.parity
  near : ∀ p, v.index p ≤ v.top ∧ v.top ≤ v.index p + 1
  session : ∀ p, sess p = v.session S ss (v.index p) (v.recv p) (sess p).skipped
  stored : ∀ p, HoldsKeys (v.Follows p) (fun e => v.pub S (e + 1)) (v.key S ss) (v.pos p) opened
    (sess p).skipped
  passed : ∀ id ∈ opened, ∃ p e, v.Follows p e ∧ id.1 = v.pub S (e + 1) ∧ id.2 < v.pos p e
  recv_le : ∀ p e, v.index p = e + 2 → v.recv p ≤ v.sent e
  unused : ∀ e, v.top ≤ e → v.sent e = 0
  distinct : ∀ i j, i ≤ v.top → j ≤ v.top → v.pub S i = v.pub S j → i = j
  known : ∀ i ≤ v.top, v.pub S i ∈ generated

variable {S : Suite K Sec C} {ss : K} {v : Joint Sec} {sess : Party → SessionState K Sec}
  {opened : List (Key32 × UInt32)} {generated : List Key32}

namespace Sync

/-! ## Start and frame -/

theorem mono_generated (h : Sync S ss v sess opened generated) (key : Key32) :
    Sync S ss v sess opened (key :: generated) :=
  { h with known := fun i hi => List.mem_cons_of_mem _ (h.known i hi) }

theorem index_other (h : Sync S ss v sess opened generated) (x : Party) :
    v.index x.other = v.index x + 1 ∨ v.index x = v.index x.other + 1 := by
  have h1 := h.parity x
  have h2 := h.parity x.other
  have h3 := h.near x
  have h4 := h.near x.other
  have h5 := x.other_parity
  omega

/-- Every session has a key for the chain it receives on. -/
theorem theirKey_isSome (h : Sync S ss v sess opened generated) (x : Party) :
    (sess x).receivingChainKey.isSome → (sess x).theirRatchetKey.isSome := by
  rw [h.session x]
  match v.index x with
  | 0 => simp [Timeline.session, Timeline.receivingChain]
  | 1 => simp [Timeline.session, Timeline.theirKey]
  | e + 2 => simp [Timeline.session, Timeline.theirKey]

end Sync

/-- Before the first message: Bob has secret 0, Alice secret 1. -/
def Joint.start (a b : Sec) : Joint Sec where
  secret j := if j = 0 then b else a
  sent _ := 0
  index p := p.parity
  recv _ := 0
  top := 1

/-- The two sessions as they are initialised. -/
def startSessions (S : Suite K Sec C) (b : Sec) (ss : K) (alice : SessionState K Sec) :
    Party → SessionState K Sec
  | .alice => alice
  | .bob => initializeBob ss (RatchetKeyPair.generate S b)

theorem Sync.start (hS : S.KdfTotal) (a b : Sec) (alice : SessionState K Sec)
    (hinit : initializeAlice S a ss (S.toPublic b) = .ok alice)
    (hab : S.toPublic a ≠ S.toPublic b) :
    Sync S ss (Joint.start a b) (startSessions S b ss alice) [] [S.toPublic a, S.toPublic b] := by
  have hpub : ∀ i ≤ 1, (Joint.start a b).pub S i = if i = 0 then
      S.toPublic b else S.toPublic a := by
    intro i _
    exact apply_ite S.toPublic (i = 0) b a
  have halice : alice = (Joint.start a b).session S ss 1 0 ∅ := by
    unfold initializeAlice at hinit
    simp only [kdfRk_total hS] at hinit
    cases hinit
    rfl
  refine
    { parity := fun p => by cases p <;> rfl
      near := fun p => by cases p <;> simp [Joint.start, Party.parity]
      session := ?_
      stored := ?_
      passed := fun id hid => by cases hid
      recv_le := fun p e _ => UInt32.zero_le
      unused := fun _ _ => rfl
      distinct := ?_
      known := ?_ }
  · intro p
    cases p with
    | alice => rw [startSessions, halice]; rfl
    | bob => rfl
  · intro p
    have hskip : (startSessions S b ss alice p).skipped = ∅ := by
      cases p with
      | alice => rw [startSessions, halice]; rfl
      | bob => rfl
    rw [hskip]
    refine HoldsKeys.empty ?_
    intro e he
    have := he.1
    cases p <;> simp [Joint.start, Party.parity] at this
  · intro i j hi hj hij
    rw [hpub i hi, hpub j hj] at hij
    have hi' : i ≤ 1 := hi
    have hj' : j ≤ 1 := hj
    by_cases h0 : i = 0 <;> by_cases h1 : j = 0
    · omega
    · rw [if_pos h0, if_neg h1] at hij
      exact absurd hij.symm hab
    · rw [if_neg h0, if_pos h1] at hij
      exact absurd hij hab
    · omega
  · intro i hi
    rw [hpub i hi]
    split <;> simp

/-! ## Sending -/

/-- One more message on chain `e`. -/
def Joint.sendOn (v : Joint Sec) (e : Nat) : Joint Sec :=
  { v with toTimeline := v.toTimeline.send e }

@[simp] theorem Joint.sendOn_index (v : Joint Sec) (e : Nat) : (v.sendOn e).index = v.index := rfl

@[simp] theorem Joint.sendOn_recv (v : Joint Sec) (e : Nat) : (v.sendOn e).recv = v.recv := rfl

variable {x p : Party}

/-- A chain grows at its open end only, which nobody has passed. -/
theorem Sync.pos_sendOn (h : Sync S ss v sess opened generated) {e : Nat} (hx : v.index x = e + 1)
    {i : Nat} (hi : v.Follows p i) :
    (v.sendOn e).pos p i = v.pos p i := by
  have h1 := h.near p
  have h2 := h.near x
  have h3 := hi.1
  unfold Joint.pos
  rw [Joint.sendOn_index, Joint.sendOn_recv]
  split
  · rfl
  · exact Timeline.send_sent_ne _ (by omega)

theorem Sync.encrypt (hS : S.KdfTotal) (h : Sync S ss v sess opened generated)
    {plaintext aad : Bytes} {m : RatchetMessage C} {t : SessionState K Sec}
    (henc : (encrypt S plaintext aad).run (sess x) = .ok m t) :
    ∃ e, v.index x = e + 1 ∧ m.header = v.header S e (v.sent e) ∧
      S.aeadEncrypt (v.key S ss e (v.sent e)) plaintext (authenticatedData aad m.header) =
        .ok m.ciphertext ∧
      (v.sent e).toNat + 1 < UInt32.size ∧
      Sync S ss (v.sendOn e) (Function.update sess x t) opened generated := by
  obtain ⟨hc, chainKey, ckOut, hk, hck, hh, hct, rfl⟩ := (encrypt_eq_ok S _ _ _ _ _).mp henc
  have hsx := h.session x
  cases hj : v.index x with
  | zero =>
    rw [hsx, hj] at hk
    cases hk
  | succ e =>
    rw [hj] at hsx
    have hcount : (sess x).sendCount = v.sent e := by rw [hsx]; rfl
    have hhead : (sess x).nextHeader = v.header S e (v.sent e) := by rw [hsx]; rfl
    have hchain : chainKey = S.nextChain^[(v.sent e).toNat] (v.chain S ss e) := by
      rw [hsx] at hk
      exact (Option.some.inj hk).symm
    rw [kdfCk_total hS] at hck
    cases hck
    rw [hcount] at hc
    rw [hhead] at hh hct
    subst hchain
    refine ⟨e, rfl, hh, hh ▸ hct, hc, ?_⟩
    have hskip : ∀ p, (Function.update sess x
        { sess x with
          sendingChainKey := some (S.nextChain (S.nextChain^[(v.sent e).toNat] (v.chain S ss e)))
          sendCount := (sess x).sendCount + 1 } p).skipped = (sess p).skipped := by
      intro p
      by_cases hpx : p = x
      · subst hpx; rw [Function.update_self]
      · rw [Function.update_of_ne hpx]
    refine
      { parity := h.parity
        near := h.near
        session := ?_
        stored := ?_
        passed := ?_
        recv_le := ?_
        unused := ?_
        distinct := h.distinct
        known := h.known }
    · intro p
      rw [hskip]
      by_cases hpx : p = x
      · subst hpx
        rw [Function.update_self, hcount]
        show _ = (v.toTimeline.send e).session S ss (v.index p) (v.recv p) _
        rw [hj, ← Timeline.session_send _ _ _ _ hc, ← hsx]
      · rw [Function.update_of_ne hpx]
        have h1 := h.near p
        have h2 := h.near x
        have hcongr : v.session S ss (v.index p) (v.recv p) (sess p).skipped =
            (v.toTimeline.send e).session S ss (v.index p) (v.recv p) (sess p).skipped :=
          Timeline.session_congr _ _ (Timeline.sameSecrets_send _ _ _)
            (fun i hi hne => (Timeline.send_sent_ne _ (by
              have := (p.eq_or_other x).resolve_left (fun h => hpx h.symm)
              have := h.index_other p
              subst x
              omega)).symm)
        exact (h.session p).trans hcongr
    · intro p
      rw [hskip]
      exact (h.stored p).congr (fun _ => Iff.rfl) (fun _ _ => rfl)
        (fun i _ => funext fun n => (Timeline.key_congr (Timeline.sameSecrets_send _ e _) n).symm)
        (fun i hi => h.pos_sendOn hj hi)
    · intro id hid
      obtain ⟨p, i, hf, hkey, hlt⟩ := h.passed id hid
      exact ⟨p, i, hf, hkey, (h.pos_sendOn hj hf).symm ▸ hlt⟩
    · intro p i hi
      have hle := h.recv_le p i hi
      by_cases hie : i = e
      · subst hie
        show v.recv p ≤ (v.toTimeline.send i).sent i
        rw [Timeline.send_sent_self, UInt32.le_iff_toNat_le, toNat_succ hc]
        exact Nat.le_succ_of_le (UInt32.le_iff_toNat_le.mp hle)
      · exact (Timeline.send_sent_ne _ hie).symm ▸ hle
    · intro i hi
      have h2 := h.near x
      have hne : i ≠ e := by
        have : v.top ≤ i := hi
        omega
      exact (Timeline.send_sent_ne _ hne).trans (h.unused i hi)

/-! ## Receiving -/

/-- Chains in use have different ratchet keys, across both parties. -/
theorem Sync.chain_unique (h : Sync S ss v sess opened generated) {q : Party} {e i : Nat}
    (he : v.Follows p e) (hi : v.Follows q i) (hkey : v.pub S (i + 1) = v.pub S (e + 1)) :
    i = e ∧ q = p := by
  have h1 := h.near p
  have h2 := h.near q
  have hle := he.1
  have hli := hi.1
  have hie : i = e := by
    have := h.distinct (i + 1) (e + 1) (by omega) (by omega) hkey
    omega
  refine ⟨hie, ?_⟩
  have hpar := he.2
  have hqar := hi.2
  cases p <;> cases q <;> simp_all [Party.parity]

/-- What has been opened on a chain lies before the position of its receiver. -/
theorem Sync.opened_lt (h : Sync S ss v sess opened generated) {e : Nat} (he : v.Follows p e)
    (id : Key32 × UInt32) (hid : id ∈ opened) (hkey : id.1 = v.pub S (e + 1)) :
    id.2 < v.pos p e := by
  obtain ⟨q, i, hf, hk, hlt⟩ := h.passed id hid
  obtain ⟨rfl, rfl⟩ := h.chain_unique he hf (hk.symm.trans hkey)
  exact hlt

/-- A message is decrypted with a stored key. -/
theorem Sync.useStored (h : Sync S ss v sess opened generated) {id : Key32 × UInt32} {k : K}
    (hk : (sess x).skipped.lookup id = some k) :
    Sync S ss v
      (Function.update sess x { sess x with skipped := (sess x).skipped.erase id })
      (id :: opened) generated := by
  obtain ⟨e, hf, hkey, hlt, -, -⟩ := (h.stored x id k).mp hk
  refine { h with session := ?_, stored := ?_, passed := ?_ }
  · intro p
    by_cases hpx : p = x
    · subst hpx
      rw [Function.update_self]
      nth_rewrite 1 [h.session p]
      rfl
    · rw [Function.update_of_ne hpx]
      exact h.session p
  · intro p
    by_cases hpx : p = x
    · subst hpx
      rw [Function.update_self]
      exact (h.stored p).erase id
    · rw [Function.update_of_ne hpx]
      refine (h.stored p).open_other id ?_
      intro i hi hik
      exact hpx (h.chain_unique hf hi (hik.symm.trans hkey)).2
  · intro id' hid'
    cases List.mem_cons.mp hid' with
    | inl heq => exact ⟨x, e, hf, heq ▸ hkey, heq ▸ hlt⟩
    | inr hold => exact h.passed id' hold

/-- Party `x` has received message `n` of its current chain. -/
def Joint.receive (v : Joint Sec) (x : Party) (n : UInt32) : Joint Sec :=
  { v with recv := Function.update v.recv x (n + 1) }

@[simp] theorem Joint.receive_recv_self (v : Joint Sec) (x : Party) (n : UInt32) :
    (v.receive x n).recv x = n + 1 := Function.update_self _ _ _

theorem Joint.receive_recv_ne (v : Joint Sec) (hpx : p ≠ x) (n : UInt32) :
    (v.receive x n).recv p = v.recv p := Function.update_of_ne hpx _ _

theorem Joint.pos_current (v : Joint Sec) {e : Nat} (hx : v.index x = e + 2) :
    v.pos x e = v.recv x := if_pos hx.symm

theorem Joint.pos_receive (v : Joint Sec) {e : Nat} (hx : v.index x = e + 2) (n : UInt32) :
    (v.receive x n).pos x = Function.update (v.pos x) e (n + 1) := by
  funext i
  unfold Joint.pos Joint.receive
  by_cases hi : i = e
  · subst hi
    simp [hx]
  · simp [hx, hi]

theorem Joint.pos_receive_ne (v : Joint Sec) (hpx : p ≠ x) (n : UInt32) :
    (v.receive x n).pos p = v.pos p := by
  funext i
  unfold Joint.pos Joint.receive
  simp only [Function.update_of_ne hpx]

/-- A message of the current chain is decrypted, the keys before it are stored. -/
theorem Sync.receive (h : Sync S ss v sess opened generated) {e : Nat} {n : UInt32}
    (hx : v.index x = e + 2) (hle : v.recv x ≤ n) (hlt : n < v.sent e) :
    Sync S ss (v.receive x n)
      (Function.update sess x ((sess x).receivedTo S (v.pub S (e + 1))
        (S.nextChain^[(v.recv x).toNat] (v.chain S ss e)) n))
      ((v.pub S (e + 1), n) :: opened) generated := by
  have hc : n.toNat + 1 < UInt32.size := by
    have h1 := UInt32.lt_iff_toNat_lt.mp hlt
    have h2 : (v.sent e).toNat < UInt32.size := (v.sent e).toNat_lt
    omega
  have hleN := UInt32.le_iff_toNat_le.mp hle
  have hf : v.Follows x e := by
    have := h.parity x
    exact ⟨by omega, by omega⟩
  have hcur := v.pos_current hx
  have hnew : (sess x).receivedTo S (v.pub S (e + 1))
      (S.nextChain^[(v.recv x).toNat] (v.chain S ss e)) n =
      v.session S ss (e + 2) (n + 1) (skipRange S (v.pub S (e + 1))
        (n.toNat - (v.recv x).toNat) (v.recv x)
        (S.nextChain^[(v.recv x).toNat] (v.chain S ss e)) (sess x).skipped) := by
    nth_rewrite 1 [h.session x]
    rw [hx]
    exact Timeline.session_receivedTo _ _ _ _ _ hle hc
  have hinj : ∀ i, v.Follows x i → v.pub S (i + 1) = v.pub S (e + 1) → i = e :=
    fun i hi hk => (h.chain_unique hf hi hk).1
  refine
    { parity := h.parity
      near := h.near
      session := ?_
      stored := ?_
      passed := ?_
      recv_le := ?_
      unused := h.unused
      distinct := h.distinct
      known := h.known }
  · intro p
    by_cases hpx : p = x
    · subst hpx
      rw [Function.update_self, hnew, v.receive_recv_self]
      exact congrArg (fun j => v.session S ss j (n + 1) _) hx.symm
    · rw [Function.update_of_ne hpx, v.receive_recv_ne hpx]
      exact h.session p
  · intro p
    by_cases hpx : p = x
    · subst hpx
      rw [Function.update_self, v.pos_receive hx, hnew]
      have hskip := (h.stored p).skipRange (S := S) hf hinj
        (fun id hid hk => h.opened_lt hf id hid hk) n (hcur.symm ▸ hle)
        (S.nextChain^[(v.recv p).toNat] (v.chain S ss e)) (by
          intro i hi
          rw [hcur] at hi ⊢
          have := UInt32.le_iff_toNat_le.mp hi
          rw [messageKeyAt_iterate, Nat.sub_add_cancel this]
          rfl)
      have hopen := hskip.open_next hinj (by rwa [Function.update_self])
      rw [Function.update_self, Function.update_idem, hcur] at hopen
      exact hopen
    · rw [Function.update_of_ne hpx, v.pos_receive_ne hpx]
      refine (h.stored p).open_other _ ?_
      intro i hi hik
      exact hpx (h.chain_unique hf hi hik.symm).2
  · intro id hid
    cases List.mem_cons.mp hid with
    | inl heq =>
      subst heq
      refine ⟨x, e, hf, rfl, ?_⟩
      rw [v.pos_receive hx, Function.update_self, UInt32.lt_iff_toNat_lt, toNat_succ hc]
      exact Nat.lt_succ_self _
    | inr hold =>
      obtain ⟨p, i, hfi, hk, hlti⟩ := h.passed id hold
      refine ⟨p, i, hfi, hk, ?_⟩
      by_cases hpx : p = x
      · subst hpx
        rw [v.pos_receive hx]
        by_cases hie : i = e
        · subst hie
          rw [Function.update_self, UInt32.lt_iff_toNat_lt, toNat_succ hc]
          rw [hcur, UInt32.lt_iff_toNat_lt] at hlti
          omega
        · rwa [Function.update_of_ne hie]
      · rwa [v.pos_receive_ne hpx]
  · intro p i hi
    by_cases hpx : p = x
    · subst hpx
      have hie : i = e := by
        have : v.index p = i + 2 := hi
        omega
      subst hie
      rw [v.receive_recv_self, UInt32.le_iff_toNat_le, toNat_succ hc]
      exact UInt32.lt_iff_toNat_lt.mp hlt
    · rw [v.receive_recv_ne hpx]
      exact h.recv_le p i hi

/-- Draining the current chain leaves every followed chain passed to its end. -/
theorem Sync.holds_drained (h : Sync S ss v sess opened generated) (x : Party) :
    HoldsKeys (v.Follows x) (fun e => v.pub S (e + 1)) (v.key S ss) v.sent opened
      ((sess x).drained S (v.previousLength (v.index x))).skipped := by
  have hs := h.session x
  match hj : v.index x with
  | 0 =>
    have hd : (sess x).drained S (v.previousLength 0) = sess x := by
      rw [hs, hj]
      rfl
    rw [hd]
    refine (h.stored x).congr (fun _ => Iff.rfl) (fun _ _ => rfl) (fun _ _ => rfl) ?_
    intro e he
    have := he.1
    omega
  | 1 =>
    have hd : (sess x).drained S (v.previousLength 1) = sess x := by
      rw [hs, hj]
      rfl
    rw [hd]
    refine (h.stored x).congr (fun _ => Iff.rfl) (fun _ _ => rfl) (fun _ _ => rfl) ?_
    intro e he
    have := he.1
    omega
  | e + 2 =>
    have hf : v.Follows x e := by
      have := h.parity x
      exact ⟨by omega, by omega⟩
    have hcur := v.pos_current hj
    have hd : ((sess x).drained S (v.previousLength (e + 2))).skipped =
        skipRange S (v.pub S (e + 1)) ((v.sent e).toNat - (v.recv x).toNat) (v.recv x)
          (S.nextChain^[(v.recv x).toNat] (v.chain S ss e)) (sess x).skipped := by
      nth_rewrite 1 [hs]
      rw [hj]
      rfl
    have hskip := (h.stored x).skipRange (S := S) hf
      (fun i hi hk => (h.chain_unique hf hi hk).1)
      (fun id hid hk => h.opened_lt hf id hid hk) (v.sent e) (hcur.symm ▸ h.recv_le x e hj)
      (S.nextChain^[(v.recv x).toNat] (v.chain S ss e)) (by
        intro i hi
        rw [hcur] at hi ⊢
        rw [messageKeyAt_iterate, Nat.sub_add_cancel (UInt32.le_iff_toNat_le.mp hi)]
        rfl)
    rw [hd, ← hcur]
    rw [hcur] at hskip ⊢
    refine hskip.congr (fun _ => Iff.rfl) (fun _ _ => rfl) (fun _ _ => rfl) ?_
    intro i hi
    by_cases hie : i = e
    · subst hie
      rw [Function.update_self]
    · have hne : i + 2 ≠ v.index x := by omega
      rw [Function.update_of_ne hie, Joint.pos, if_neg hne]

/-- Party `x` has made a DH step with the secret `drawn`. -/
def Joint.stepTo (v : Joint Sec) (x : Party) (drawn : Sec) : Joint Sec :=
  { toTimeline := v.toTimeline.draw (v.index x + 2) drawn
    index := Function.update v.index x (v.index x + 2)
    recv := Function.update v.recv x 0
    top := v.index x + 2 }

@[simp] theorem Joint.stepTo_index_self (v : Joint Sec) (x : Party) (drawn : Sec) :
    (v.stepTo x drawn).index x = v.index x + 2 := Function.update_self _ _ _

theorem Joint.stepTo_index_ne (v : Joint Sec) (hpx : p ≠ x) (drawn : Sec) :
    (v.stepTo x drawn).index p = v.index p := Function.update_of_ne hpx _ _

@[simp] theorem Joint.stepTo_recv_self (v : Joint Sec) (x : Party) (drawn : Sec) :
    (v.stepTo x drawn).recv x = 0 := Function.update_self _ _ _

theorem Joint.stepTo_recv_ne (v : Joint Sec) (hpx : p ≠ x) (drawn : Sec) :
    (v.stepTo x drawn).recv p = v.recv p := Function.update_of_ne hpx _ _

theorem Joint.stepTo_follows_ne (v : Joint Sec) (hpx : p ≠ x) (drawn : Sec) (e : Nat) :
    (v.stepTo x drawn).Follows p e ↔ v.Follows p e := by
  unfold Joint.Follows
  rw [v.stepTo_index_ne hpx]

theorem Joint.pos_stepTo_ne (v : Joint Sec) (hpx : p ≠ x) (drawn : Sec) :
    (v.stepTo x drawn).pos p = v.pos p := by
  funext i
  unfold Joint.pos
  rw [v.stepTo_index_ne hpx, v.stepTo_recv_ne hpx]
  rfl

/-- Behind the new chain everything is passed to its end. -/
theorem Joint.pos_stepTo_self (v : Joint Sec) (x : Party) (drawn : Sec) (i : Nat) :
    (v.stepTo x drawn).pos x i = if i = v.index x then 0 else v.sent i := by
  unfold Joint.pos
  rw [v.stepTo_index_self, v.stepTo_recv_self]
  by_cases hi : i = v.index x
  · rw [if_pos hi, if_pos (by omega)]
  · rw [if_neg hi, if_neg (by omega)]
    rfl

theorem Sync.stepTo_follows (h : Sync S ss v sess opened generated) (x : Party) (drawn : Sec)
    (i : Nat) : (v.stepTo x drawn).Follows x i ↔ i = v.index x ∨ v.Follows x i := by
  have := h.parity x
  unfold Joint.Follows
  rw [v.stepTo_index_self]
  omega

section DhStep

variable (h : Sync S ss v sess opened generated) (hx : v.index x < v.top)

include h hx

theorem Sync.top_eq : v.top = v.index x + 1 := by
  have := h.near x
  omega

theorem Sync.index_of_ne (hpx : p ≠ x) : v.index p = v.index x + 1 := by
  obtain rfl := (x.eq_or_other p).resolve_left hpx
  have h1 := h.index_other x
  have h2 := h.near x.other
  have h3 := h.top_eq hx
  omega

variable (drawn : Sec)

theorem Sync.sameSecrets_stepTo {i : Nat} (hi : i ≤ v.top) :
    v.toTimeline.SameSecrets (v.stepTo x drawn).toTimeline i := by
  have := h.top_eq hx
  exact Timeline.sameSecrets_draw _ _ (by omega)

theorem Sync.pub_stepTo {i : Nat} (hi : i ≤ v.top) :
    (v.stepTo x drawn).pub S i = v.pub S i :=
  (Timeline.pub_congr (h.sameSecrets_stepTo hx drawn hi)).symm

/-- The keys of chains already followed are those of the old history. -/
theorem Sync.chain_stepTo {e : Nat} (he : v.Follows p e) :
    (v.stepTo x drawn).pub S (e + 1) = v.pub S (e + 1) ∧
      (v.stepTo x drawn).key S ss e = v.key S ss e := by
  have h1 := h.near p
  have h2 := he.1
  exact ⟨h.pub_stepTo hx drawn (by omega), funext fun i =>
    (Timeline.key_congr (h.sameSecrets_stepTo hx drawn (by omega)) i).symm⟩

theorem Sync.session_stepTo (hdh : S.DhCommutes) (n : UInt32) :
    (sess x).dhStepped S drawn (v.header S (v.index x) n) =
      (v.stepTo x drawn).session S ss (v.index x + 2) 0
        ((sess x).drained S (v.previousLength (v.index x))).skipped := by
  have htop := h.top_eq hx
  have hs := h.session x
  calc (sess x).dhStepped S drawn (v.header S (v.index x) n)
    _ = (v.session S ss (v.index x) (v.recv x) (sess x).skipped).dhStepped S drawn
          (v.header S (v.index x) n) := by rw [← hs]
    _ = _ := Timeline.session_dhStepped hdh _ _ _ _ _ _ (h.unused _ (by omega))
    _ = _ := by rw [← hs]; rfl

/-- The party that steps has drained its chain and follows a new one. -/
theorem Sync.stored_stepTo :
    HoldsKeys ((v.stepTo x drawn).Follows x) (fun e => (v.stepTo x drawn).pub S (e + 1))
      ((v.stepTo x drawn).key S ss) ((v.stepTo x drawn).pos x) opened
      ((sess x).drained S (v.previousLength (v.index x))).skipped := by
  have hsent : ∀ e, v.Follows x e → (v.stepTo x drawn).pos x e = v.sent e := by
    intro e he
    have := he.1
    rw [v.pos_stepTo_self, if_neg (by omega)]
  have hold := (h.holds_drained x).congr (fun _ => Iff.rfl)
    (fun e he => (h.chain_stepTo hx drawn he).1) (fun e he => (h.chain_stepTo hx drawn he).2) hsent
  have hzero : (v.stepTo x drawn).pos x (v.index x) = 0 := by
    rw [v.pos_stepTo_self, if_pos rfl]
  exact (hold.add_chain (v.index x) hzero).congr (fun i => h.stepTo_follows x drawn i)
    (fun _ _ => rfl) (fun _ _ => rfl) (fun _ _ => rfl)

omit hx in
/-- What has been passed stays passed. -/
theorem Sync.passed_stepTo {e : Nat} (hf : v.Follows p e) {n : UInt32} (hlt : n < v.pos p e) :
    (v.stepTo x drawn).Follows p e ∧ n < (v.stepTo x drawn).pos p e := by
  by_cases hpx : p = x
  · subst hpx
    refine ⟨(h.stepTo_follows p drawn e).mpr (.inr hf), ?_⟩
    have h1 := hf.1
    rw [v.pos_stepTo_self, if_neg (by omega)]
    unfold Joint.pos at hlt
    split at hlt
    · next he => exact UInt32.lt_of_lt_of_le hlt (h.recv_le p e he.symm)
    · exact hlt
  · rw [v.pos_stepTo_ne hpx]
    exact ⟨(v.stepTo_follows_ne hpx drawn e).mpr hf, hlt⟩

/-- The new ratchet key is none of the old ones. -/
theorem Sync.pub_stepTo_cases {i : Nat} (hi : i ≤ v.index x + 2) :
    i = v.index x + 2 ∧ (v.stepTo x drawn).pub S i = S.toPublic drawn ∨
      i ≤ v.top ∧ (v.stepTo x drawn).pub S i = v.pub S i ∧ v.pub S i ∈ generated := by
  have htop := h.top_eq hx
  by_cases hnew : i = v.index x + 2
  · exact .inl ⟨hnew, hnew ▸ congrArg S.toPublic (Timeline.draw_secret_self _ _ _)⟩
  · have hold : i ≤ v.top := by omega
    exact .inr ⟨hold, h.pub_stepTo hx drawn hold, h.known i hold⟩

/-- A DH step to the open chain of the peer. -/
theorem Sync.dhStep (hdh : S.DhCommutes) (n : UInt32) (hfresh : S.toPublic drawn ∉ generated) :
    Sync S ss (v.stepTo x drawn)
      (Function.update sess x ((sess x).dhStepped S drawn (v.header S (v.index x) n)))
      opened (S.toPublic drawn :: generated) := by
  have htop := h.top_eq hx
  refine
    { parity := ?_
      near := ?_
      session := ?_
      stored := ?_
      passed := ?_
      recv_le := ?_
      unused := ?_
      distinct := ?_
      known := ?_ }
  · intro p
    by_cases hpx : p = x
    · subst hpx
      have := h.parity p
      rw [v.stepTo_index_self]
      omega
    · rw [v.stepTo_index_ne hpx]
      exact h.parity p
  · intro p
    show _ ≤ v.index x + 2 ∧ v.index x + 2 ≤ _
    by_cases hpx : p = x
    · subst hpx
      rw [v.stepTo_index_self]
      omega
    · have := h.index_of_ne hx hpx
      rw [v.stepTo_index_ne hpx]
      omega
  · intro p
    by_cases hpx : p = x
    · subst hpx
      rw [Function.update_self, h.session_stepTo hx drawn hdh, v.stepTo_index_self,
        v.stepTo_recv_self]
      rfl
    · rw [Function.update_of_ne hpx, v.stepTo_index_ne hpx, v.stepTo_recv_ne hpx]
      exact (h.session p).trans
        (Timeline.session_congr _ _ (h.sameSecrets_stepTo hx drawn (h.near p).1) fun _ _ _ => rfl)
  · intro p
    by_cases hpx : p = x
    · subst hpx
      rw [Function.update_self, h.session_stepTo hx drawn hdh]
      exact h.stored_stepTo hx drawn
    · rw [Function.update_of_ne hpx, v.pos_stepTo_ne hpx]
      exact (h.stored p).congr (fun e => v.stepTo_follows_ne hpx drawn e)
        (fun e he => (h.chain_stepTo hx drawn he).1) (fun e he => (h.chain_stepTo hx drawn he).2)
        (fun _ _ => rfl)
  · intro id hid
    obtain ⟨p, e, hf, hk, hlt⟩ := h.passed id hid
    obtain ⟨hf', hlt'⟩ := h.passed_stepTo drawn hf hlt
    exact ⟨p, e, hf', hk.trans (h.chain_stepTo hx drawn hf).1.symm, hlt'⟩
  · intro p e hp
    by_cases hpx : p = x
    · subst hpx
      rw [v.stepTo_recv_self]
      exact UInt32.zero_le
    · rw [v.stepTo_index_ne hpx] at hp
      rw [v.stepTo_recv_ne hpx]
      exact h.recv_le p e hp
  · intro e he
    have : v.index x + 2 ≤ e := he
    exact h.unused e (by omega)
  · intro i j hi hj hij
    rcases h.pub_stepTo_cases hx drawn hi with ⟨hin, hpi⟩ | ⟨hi, hpi, hki⟩ <;>
      rcases h.pub_stepTo_cases hx drawn hj with ⟨hjn, hpj⟩ | ⟨hj, hpj, hkj⟩
    · rw [hin, hjn]
    · exact absurd (hpi.symm.trans (hij.trans hpj) ▸ hkj) hfresh
    · exact absurd (hpj.symm.trans (hij.symm.trans hpi) ▸ hki) hfresh
    · exact h.distinct i j hi hj (hpi.symm.trans (hij.trans hpj))
  · intro i hi
    rcases h.pub_stepTo_cases hx drawn hi with ⟨-, hpub⟩ | ⟨-, hpub, hknown⟩
    · rw [hpub]
      exact List.mem_cons_self
    · rw [hpub]
      exact List.mem_cons_of_mem _ hknown

end DhStep

end Cmp.Crypto
