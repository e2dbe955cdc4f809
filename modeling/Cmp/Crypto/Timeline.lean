import Cmp.Crypto.KeySchedule

/-! The shared history of two honest sessions. The ratchet secrets of the two
parties form one sequence, the responder's first secret at 0 and the initiator's
at 1; chain `e` is the sending chain that belongs to secret `e + 1`. A session is
then determined by its place in the sequence, the number of messages received on
the current chain, and its skipped keys. -/

namespace Cmp.Crypto

open Cmp.Lib

variable {K Sec C : Type}

structure Timeline (Sec : Type) where
  secret : Nat → Sec
  /-- Messages sent on each chain. -/
  sent : Nat → UInt32

namespace Timeline

variable (S : Suite K Sec C) (ss : K) (tl : Timeline Sec)

def pub (j : Nat) : Key32 := S.toPublic (tl.secret j)

def dh (e : Nat) : K := S.diffieHellman (tl.secret (e + 1)) (tl.pub S e)

def root : Nat → K
  | 0 => ss
  | e + 1 => S.nextRoot (root e) (tl.dh S e)

def chain (e : Nat) : K := S.newChain (tl.root S ss e) (tl.dh S e)

/-- Message key `n` of chain `e`. -/
def key (e : Nat) (n : UInt32) : K := S.messageKeyAt (tl.chain S ss e) n.toNat

def theirKey : Nat → Option Key32
  | 0 => none
  | e + 1 => some (tl.pub S e)

def sendingChain : Nat → Option K
  | 0 => none
  | e + 1 => some (S.nextChain^[(tl.sent e).toNat] (tl.chain S ss e))

def sendCount : Nat → UInt32
  | 0 => 0
  | e + 1 => tl.sent e

/-- Length of the chain the sender of chain `e` used before it. -/
def previousLength : Nat → UInt32
  | 0 => 0
  | e + 1 => tl.sendCount e

def previousSendCount : Nat → UInt32
  | 0 => 0
  | e + 1 => tl.previousLength e

def receivingChain (recv : UInt32) : Nat → Option K
  | 0 => none
  | 1 => none
  | e + 2 => some (S.nextChain^[recv.toNat] (tl.chain S ss e))

/-- The session whose own secret is number `j`. -/
def session (j : Nat) (recv : UInt32) (skipped : SkippedKeysMap K) : SessionState K Sec :=
  { rootKey := tl.root S ss j
    ourRatchet := RatchetKeyPair.generate S (tl.secret j)
    theirRatchetKey := tl.theirKey S j
    sendingChainKey := tl.sendingChain S ss j
    receivingChainKey := tl.receivingChain S ss recv j
    sendCount := tl.sendCount j
    recvCount := recv
    previousSendCount := tl.previousSendCount j
    skipped := skipped }

/-- The header of message `n` of chain `e`. -/
def header (e : Nat) (n : UInt32) : RatchetHeader :=
  ⟨tl.pub S (e + 1), tl.previousLength e, n⟩

/-! ## Frame: nothing depends on the sequence beyond its index -/

variable {S ss} {tl tl' : Timeline Sec}

/-- The two histories have the same secrets up to number `j`. -/
def SameSecrets (tl tl' : Timeline Sec) (j : Nat) : Prop := ∀ i ≤ j, tl.secret i = tl'.secret i

theorem pub_congr {j : Nat} (h : SameSecrets tl tl' j) : tl.pub S j = tl'.pub S j := by
  unfold pub
  rw [h j (Nat.le_refl j)]

theorem dh_congr {e : Nat} (h : SameSecrets tl tl' (e + 1)) : tl.dh S e = tl'.dh S e := by
  unfold dh
  rw [h (e + 1) (Nat.le_refl _), pub_congr (fun i hi => h i (by omega))]

theorem root_congr {j : Nat} (h : SameSecrets tl tl' j) : tl.root S ss j = tl'.root S ss j := by
  induction j with
  | zero => rfl
  | succ e ih => rw [root, root, ih (fun i hi => h i (by omega)), dh_congr h]

theorem chain_congr {e : Nat} (h : SameSecrets tl tl' (e + 1)) :
    tl.chain S ss e = tl'.chain S ss e := by
  unfold chain
  rw [root_congr (fun i hi => h i (by omega)), dh_congr h]

theorem key_congr {e : Nat} (h : SameSecrets tl tl' (e + 1)) (n : UInt32) :
    tl.key S ss e n = tl'.key S ss e n := by
  unfold key
  rw [chain_congr h]

theorem sendCount_congr {j : Nat} (h : ∀ e < j, tl.sent e = tl'.sent e) :
    tl.sendCount j = tl'.sendCount j := by
  cases j with
  | zero => rfl
  | succ e => exact h e (Nat.lt_succ_self e)

theorem previousLength_congr {j : Nat} (h : ∀ e, e + 1 < j → tl.sent e = tl'.sent e) :
    tl.previousLength j = tl'.previousLength j := by
  cases j with
  | zero => rfl
  | succ e => exact sendCount_congr (fun i hi => h i (by omega))

/-- A session does not depend on how many messages its receiving chain carries. -/
theorem session_congr {j : Nat} (recv : UInt32) (skipped : SkippedKeysMap K)
    (hq : SameSecrets tl tl' j) (hl : ∀ e < j, e + 2 ≠ j → tl.sent e = tl'.sent e) :
    tl.session S ss j recv skipped = tl'.session S ss j recv skipped := by
  have hcount : tl.sendCount j = tl'.sendCount j := by
    cases j with
    | zero => rfl
    | succ e => exact hl e (by omega) (by omega)
  have hprev : tl.previousSendCount j = tl'.previousSendCount j := by
    match j with
    | 0 => rfl
    | 1 => rfl
    | e + 2 => exact sendCount_congr (fun i hi => hl i (by omega) (by omega))
  have htheir : tl.theirKey S j = tl'.theirKey S j := by
    cases j with
    | zero => rfl
    | succ e => exact congrArg some (pub_congr (fun i hi => hq i (by omega)))
  have hsend : tl.sendingChain S ss j = tl'.sendingChain S ss j := by
    cases j with
    | zero => rfl
    | succ e => rw [sendingChain, sendingChain, chain_congr hq, hl e (by omega) (by omega)]
  have hrecv : tl.receivingChain S ss recv j = tl'.receivingChain S ss recv j := by
    match j with
    | 0 => rfl
    | 1 => rfl
    | e + 2 => rw [receivingChain, receivingChain, chain_congr (fun i hi => hq i (by omega))]
  unfold session
  rw [root_congr hq, hq j (Nat.le_refl j), htheir, hsend, hrecv, hcount, hprev]

theorem header_congr {e : Nat} (hq : SameSecrets tl tl' (e + 1))
    (hl : ∀ i, i + 1 < e → tl.sent i = tl'.sent i) (n : UInt32) :
    tl.header S e n = tl'.header S e n := by
  unfold header
  rw [pub_congr hq, previousLength_congr hl]

/-! ## Two ways to extend the history -/

/-- One more message on chain `e`. -/
def send (tl : Timeline Sec) (e : Nat) : Timeline Sec :=
  { tl with sent := Function.update tl.sent e (tl.sent e + 1) }

/-- The secret of number `j` is drawn. -/
def draw (tl : Timeline Sec) (j : Nat) (drawn : Sec) : Timeline Sec :=
  { tl with secret := Function.update tl.secret j drawn }

theorem sameSecrets_send (tl : Timeline Sec) (e j : Nat) : SameSecrets tl (tl.send e) j :=
  fun _ _ => rfl

theorem sameSecrets_draw (tl : Timeline Sec) (drawn : Sec) {i j : Nat} (h : i < j) :
    SameSecrets tl (tl.draw j drawn) i := by
  intro a ha
  exact (Function.update_of_ne (by omega) _ _).symm

@[simp] theorem send_sent_self (tl : Timeline Sec) (e : Nat) :
    (tl.send e).sent e = tl.sent e + 1 := Function.update_self _ _ _

theorem send_sent_ne (tl : Timeline Sec) {e i : Nat} (h : i ≠ e) :
    (tl.send e).sent i = tl.sent i := Function.update_of_ne h _ _

@[simp] theorem draw_secret_self (tl : Timeline Sec) (j : Nat) (drawn : Sec) :
    (tl.draw j drawn).secret j = drawn := Function.update_self _ _ _

@[simp] theorem draw_sent (tl : Timeline Sec) (j : Nat) (drawn : Sec) :
    (tl.draw j drawn).sent = tl.sent := rfl

/-- An encryption is one more message in the history. -/
theorem session_send (tl : Timeline Sec) (e : Nat) (recv : UInt32) (skipped : SkippedKeysMap K)
    (hc : (tl.sent e).toNat + 1 < UInt32.size) :
    { tl.session S ss (e + 1) recv skipped with
        sendingChainKey :=
          some (S.nextChain (S.nextChain^[(tl.sent e).toNat] (tl.chain S ss e)))
        sendCount := tl.sent e + 1 } =
      (tl.send e).session S ss (e + 1) recv skipped := by
  have hq : SameSecrets tl (tl.send e) (e + 1) := sameSecrets_send tl e (e + 1)
  have hsend : some (S.nextChain (S.nextChain^[(tl.sent e).toNat] (tl.chain S ss e))) =
      (tl.send e).sendingChain S ss (e + 1) := by
    rw [sendingChain, send_sent_self, toNat_succ hc, Function.iterate_succ_apply', chain_congr hq]
  have hrecv : tl.receivingChain S ss recv (e + 1) =
      (tl.send e).receivingChain S ss recv (e + 1) := by
    cases e with
    | zero => rfl
    | succ i => rw [receivingChain, receivingChain, chain_congr (sameSecrets_send tl (i + 1) _)]
  have hprev : tl.previousLength e = (tl.send e).previousLength e :=
    previousLength_congr (fun i hi => (send_sent_ne tl (by omega)).symm)
  exact SessionState.ext (root_congr hq) rfl rfl hsend hrecv
    (send_sent_self tl e).symm rfl hprev rfl

/-- A DH step to the key of chain `j` moves the session two places on. -/
theorem session_dhStepped (hdh : S.DhCommutes) (tl : Timeline Sec) (j : Nat) (recv n : UInt32)
    (skipped : SkippedKeysMap K) (drawn : Sec) (hnew : tl.sent (j + 1) = 0) :
    (tl.session S ss j recv skipped).dhStepped S drawn (tl.header S j n) =
      (tl.draw (j + 2) drawn).session S ss (j + 2) 0
        ((tl.session S ss j recv skipped).drained S (tl.previousLength j)).skipped := by
  have hq : SameSecrets tl (tl.draw (j + 2) drawn) (j + 1) := sameSecrets_draw tl drawn (by omega)
  have hd : S.diffieHellman (tl.secret j) (tl.pub S (j + 1)) = (tl.draw (j + 2) drawn).dh S j := by
    rw [← dh_congr hq]
    exact hdh _ _
  have hd2 : S.diffieHellman drawn (tl.pub S (j + 1)) = (tl.draw (j + 2) drawn).dh S (j + 1) := by
    rw [pub_congr hq, dh, draw_secret_self]
  have hroot : S.nextRoot (tl.root S ss j) (S.diffieHellman (tl.secret j) (tl.pub S (j + 1))) =
      (tl.draw (j + 2) drawn).root S ss (j + 1) := by
    rw [hd, root_congr (fun i hi => hq i (by omega)), root]
  have hchain : S.newChain (tl.root S ss j) (S.diffieHellman (tl.secret j) (tl.pub S (j + 1))) =
      (tl.draw (j + 2) drawn).chain S ss j := by
    rw [hd, root_congr (fun i hi => hq i (by omega)), chain]
  have hsend : some (S.newChain (S.nextRoot (tl.root S ss j)
      (S.diffieHellman (tl.secret j) (tl.pub S (j + 1))))
        (S.diffieHellman drawn (tl.pub S (j + 1)))) =
      (tl.draw (j + 2) drawn).sendingChain S ss (j + 2) := by
    rw [hroot, hd2, sendingChain, draw_sent, hnew]
    rfl
  have hcount : ((tl.session S ss j recv skipped).drained S (tl.previousLength j)).sendCount =
      tl.sendCount j := by
    rw [drained_frame]
    rfl
  apply SessionState.ext
  · exact congrArg₂ S.nextRoot hroot hd2
  · exact congrArg (RatchetKeyPair.generate S) (draw_secret_self tl (j + 2) drawn).symm
  · exact congrArg some (pub_congr hq)
  · exact hsend
  · exact congrArg some hchain
  · exact hnew.symm
  · rfl
  · exact hcount
  · rfl

/-- Receiving message `n` of the current chain moves the session along it. -/
theorem session_receivedTo (tl : Timeline Sec) (e : Nat) (recv n : UInt32)
    (skipped : SkippedKeysMap K) (hle : recv ≤ n) (hc : n.toNat + 1 < UInt32.size) :
    (tl.session S ss (e + 2) recv skipped).receivedTo S (tl.pub S (e + 1))
        (S.nextChain^[recv.toNat] (tl.chain S ss e)) n =
      tl.session S ss (e + 2) (n + 1)
        (skipRange S (tl.pub S (e + 1)) (n.toNat - recv.toNat) recv
          (S.nextChain^[recv.toNat] (tl.chain S ss e)) skipped) := by
  have hleN := UInt32.le_iff_toNat_le.mp hle
  have hchain : S.nextChain^[n.toNat - recv.toNat + 1]
      (S.nextChain^[recv.toNat] (tl.chain S ss e)) =
      S.nextChain^[(n + 1).toNat] (tl.chain S ss e) := by
    rw [← Function.iterate_add_apply, toNat_succ hc]
    congr 1
    omega
  exact SessionState.ext rfl rfl rfl rfl (congrArg some hchain) rfl rfl rfl rfl

end Timeline

end Cmp.Crypto
