import Cmp.Crypto.Secrecy
import Cmp.Crypto.Sync

/-! The keys that two sessions use in a run. Each call that returns uses up one message key, and
what it leaves of the session no longer leads to that key. -/

namespace Cmp.Crypto

open Cmp.Lib SessionState

variable {K Sec C : Type} {S : Suite K Sec C} {rank : K → Nat} {kind : K → KeyKind}
  {ss root k c : K} {sending : Option K} {s t u : SessionState K Sec}

/-! ## One call -/

theorem skipLoop_chains (theirKey : Key32) (n : Nat) :
    ∀ (i : UInt32) (c c' : K) (s t : SessionState K Sec),
      (skipLoop S theirKey n i c).run s = .ok c' t →
        Chains S rank root s.skipped sending (some c) →
        Chains S rank root t.skipped sending (some c') := by
  induction n with
  | zero =>
    intro i c c' s t h hs
    cases h
    exact hs
  | succ n ih =>
    intro i c c' s t h hs
    simp only [skipLoop, Action.run_bind_eq_ok, Action.run_ofExcept_eq_ok, Action.run_modify] at h
    obtain ⟨ckOut, _, ⟨hck, rfl⟩, _, _, ⟨⟩, h⟩ := h
    cases kdfCk_eq_ok hck
    exact ih _ _ _ _ _ h (hs.skip (theirKey, i))

theorem skipMessageKeys_secured (current til : UInt32)
    (h : (skipMessageKeys S current til).run s = .ok () t) (hs : s.Secured S rank ss) :
    t.Secured S rank ss ∧ ∀ k, t.Keeps S k → s.Keeps S k := by
  obtain ⟨-, hheld⟩ := skipMessageKeys_supply current til h hs.chained.received
  have hframe := skipMessageKeys_frame S _ _ _ _ h
  have hkept : ∀ k, t.Keeps S k → s.Keeps S k := by
    rintro k (hk | hk)
    · exact .inl (hheld k hk)
    · rw [hframe] at hk
      exact .inr hk
  refine ⟨⟨?_, by rw [hframe]; exact hs.root, fun k hk => hs.born k (hkept k hk)⟩, hkept⟩
  rcases skipMessageKeys_cases h with rfl | ⟨theirKey, c, c', n, u, hc, hloop, rfl⟩
  · exact hs.chained
  · have hu := skipLoop_frame S _ _ _ _ _ _ _ hloop
    have hchained := hs.chained
    rw [SessionState.Chained, hc] at hchained
    have hchains := skipLoop_chains theirKey n current c c' s u hloop hchained
    rw [hu]
    exact hchains

theorem SessionState.Progress.trans (h : s.Progress S rank ss t) (h' : t.Progress S rank ss u) :
    s.Progress S rank ss u := by
  refine ⟨h'.secured, h.rank_le.trans h'.rank_le, fun k hk => ?_⟩
  rcases h'.kept k hk with hk | ⟨root, hle, hstart⟩
  · exact h.kept k hk
  · exact .inr ⟨root, h.rank_le.trans hle, hstart⟩

theorem SessionState.Progress.same_root (hsecured : t.Secured S rank ss)
    (hroot : t.rootKey = s.rootKey) (hkept : ∀ k, t.Keeps S k → s.Keeps S k) :
    s.Progress S rank ss t :=
  ⟨hsecured, by rw [hroot], fun k hk => .inl (hkept k hk)⟩

theorem skipMessageKeys_progress (current til : UInt32)
    (h : (skipMessageKeys S current til).run s = .ok () t) (hs : s.Secured S rank ss) :
    s.Progress S rank ss t := by
  obtain ⟨ht, hkept⟩ := skipMessageKeys_secured current til h hs
  exact .same_root ht (by rw [skipMessageKeys_frame S _ _ _ _ h]) hkept

theorem skipOldChain_progress (header : RatchetHeader)
    (h : (skipOldChain S header).run s = .ok () t) (hs : s.Secured S rank ss) :
    s.Progress S rank ss t := by
  rw [skipOldChain_run] at h
  split at h
  · exact skipMessageKeys_progress _ _ h hs
  · cases h
    exact .same_root hs rfl fun _ => id

section Steps

variable (hF : S.Free) (hR : S.RootsGrow rank)

include hF hR

/-- The DH step proper: the chains of the session are replaced. -/
theorem afterDh_progress (hs : s.Secured S rank ss) (drawn : Sec) (header : RatchetHeader)
    {rkOut rkOut2 : RootKeyOutput K} {dh dh2 : K} (h₁ : kdfRk S s.rootKey dh = .ok rkOut)
    (h₂ : kdfRk S rkOut.rootKey dh2 = .ok rkOut2) :
    s.Progress S rank ss (s.afterDh S drawn header rkOut rkOut2) := by
  have hlt₁ := hR _ _ _ (kdfRk_eq_ok h₁).1
  have hlt₂ := hR _ _ _ (kdfRk_eq_ok h₂).1
  have hroot : RootOf S ss rkOut.rootKey := by
    rw [kdfRk_rootKey h₁]
    exact hs.root.next _
  have hkept : ∀ k, (s.afterDh S drawn header rkOut rkOut2).Keeps S k →
      s.Keeps S k ∨ StartsAt S s.rootKey k ∨ StartsAt S rkOut.rootKey k := by
    rintro k ((⟨id, hl⟩ | ⟨_, n, ⟨⟩, rfl⟩) | ⟨_, n, ⟨⟩, rfl⟩)
    · exact .inl (.inl (.inl ⟨id, hl⟩))
    · exact .inr (.inl ⟨dh, n, by rw [(kdfRk_eq_ok h₁).2]⟩)
    · exact .inr (.inr ⟨dh2, n, by rw [(kdfRk_eq_ok h₂).2]⟩)
  refine ⟨⟨?_, ?_, fun k hk => ?_⟩, (hlt₁.trans hlt₂).le, fun k hk => ?_⟩
  · have hturned := hs.chained.turn hF hlt₁ hlt₂ dh dh2
    rw [← (kdfRk_eq_ok h₁).2, ← (kdfRk_eq_ok h₂).2] at hturned
    exact hturned
  · show RootOf S ss rkOut2.rootKey
    rw [kdfRk_rootKey h₂]
    exact hroot.next _
  · rcases hkept k hk with hk | hk | hk
    · exact hs.born k hk
    · exact ⟨_, hs.root, hk⟩
    · exact ⟨_, hroot, hk⟩
  · rcases hkept k hk with hk | hk | hk
    · exact .inl hk
    · exact .inr ⟨_, Nat.le_refl _, hk⟩
    · exact .inr ⟨_, hlt₁.le, hk⟩

theorem dhStepIfNeeded_progress (drawn : Sec) (header : RatchetHeader)
    (h : (dhStepIfNeeded S drawn header).run s = .ok () t) (hs : s.Secured S rank ss) :
    s.Progress S rank ss t := by
  rw [dhStepIfNeeded_run] at h
  split at h
  · obtain ⟨u, rkOut, rkOut2, hu, h₁, h₂, rfl⟩ := (dhStep_eq_ok S _ _ _ _).mp h
    have hskipped := skipOldChain_progress header hu hs
    exact hskipped.trans (afterDh_progress hF hR hskipped.secured drawn header h₁ h₂)
  · cases h
    exact .same_root hs rfl fun _ => id

end Steps

/-- The next key of the receiving chain, used. -/
theorem SessionState.Secured.receive (hs : s.Secured S rank ss)
    (hc : s.receivingChainKey = some c) (recvCount : UInt32) :
    s.Progress S rank ss
        { s with receivingChainKey := some (S.nextChain c), recvCount := recvCount } ∧
      SessionState.Gone S rank ss
        { s with receivingChainKey := some (S.nextChain c), recvCount := recvCount }
        (S.messageKey c) := by
  have hchained := hs.chained
  rw [SessionState.Chained, hc] at hchained
  have hkeeps : s.Keeps S (S.messageKey c) := keeps_chain (.inr hc)
  have hkept : ∀ k, SessionState.Keeps S
      { s with receivingChainKey := some (S.nextChain c), recvCount := recvCount } k →
      s.Keeps S k := by
    rintro k (hk | hk)
    · refine .inl ?_
      rw [SessionState.Holds, hc]
      exact holds_nextChain hk
    · exact .inr hk
  refine ⟨.same_root ⟨hchained.use, hs.root, fun k hk => hs.born k (hkept k hk)⟩ rfl hkept, ?_,
    hs.older hkeeps, hs.born _ hkeeps⟩
  rintro (hk | hk)
  · exact hchained.received.not_holds_used hk
  · exact hchained.apart _ hk (ahead_zero c)

/-- The next key of the sending chain, used. -/
theorem SessionState.Secured.send (hs : s.Secured S rank ss) (hc : s.sendingChainKey = some c)
    (sendCount : UInt32) :
    s.Progress S rank ss
        { s with sendingChainKey := some (S.nextChain c), sendCount := sendCount } ∧
      SessionState.Gone S rank ss
        { s with sendingChainKey := some (S.nextChain c), sendCount := sendCount }
        (S.messageKey c) := by
  have hchained := hs.chained
  rw [SessionState.Chained, hc] at hchained
  have hkeeps : s.Keeps S (S.messageKey c) := keeps_chain (.inl hc)
  have hkept : ∀ k, SessionState.Keeps S
      { s with sendingChainKey := some (S.nextChain c), sendCount := sendCount } k →
      s.Keeps S k := by
    rintro k (hk | hk)
    · exact .inl hk
    · refine .inr ?_
      rw [hc]
      exact ahead_nextChain hk
  refine ⟨.same_root ⟨hchained.send, hs.root, fun k hk => hs.born k (hkept k hk)⟩ rfl hkept, ?_,
    hs.older hkeeps, hs.born _ hkeeps⟩
  rintro ((⟨id, hl⟩ | hk) | hk)
  · exact hchained.sent.apart id _ c 0 hl rfl rfl
  · exact hchained.apart _ (ahead_zero c) hk
  · exact hchained.sent.not_holds_used (.inr hk)

/-- A key that had been put aside, used. -/
theorem SessionState.Secured.take (hs : s.Secured S rank ss) {id : Key32 × UInt32}
    (hl : s.skipped.lookup id = some k) :
    s.Progress S rank ss { s with skipped := s.skipped.erase id } ∧
      SessionState.Gone S rank ss { s with skipped := s.skipped.erase id } k := by
  have hkeeps : s.Keeps S k := .inl (.inl ⟨id, hl⟩)
  have hkept : ∀ k, SessionState.Keeps S { s with skipped := s.skipped.erase id } k →
      s.Keeps S k := fun k hk => hk.imp_left holds_erase
  refine ⟨.same_root ⟨hs.chained.take id, hs.root, fun k hk => hs.born k (hkept k hk)⟩ rfl hkept,
    ?_, hs.older hkeeps, hs.born _ hkeeps⟩
  rintro (hk | ⟨c, n, hc, heq⟩)
  · exact hs.chained.received.not_holds_taken hl hk
  · exact hs.chained.sent.apart id k c n hl hc heq

/-! ## The keys that calls use -/

/-- The message key that `encrypt` uses. -/
def SessionState.encryptKey (S : Suite K Sec C) (s : SessionState K Sec) : Option K :=
  s.sendingChainKey.bind fun chainKey => (kdfCk S chainKey).toOption.map (·.messageKey)

/-- The message key that `decrypt` uses: one put aside, or the next one of the receiving chain
after the DH step and the skip. -/
def SessionState.decryptKey (S : Suite K Sec C) (drawn : Sec) (header : RatchetHeader)
    (s : SessionState K Sec) : Option K :=
  match s.skipped.lookup header.id with
  | some messageKey => some messageKey
  | none =>
    match (dhStepIfNeeded S drawn header).run s with
    | .error _ _ => none
    | .ok _ u =>
      match (skipMessageKeys S u.recvCount header.messageNumber).run u with
      | .error _ _ => none
      | .ok _ v =>
        v.receivingChainKey.bind fun chainKey => (kdfCk S chainKey).toOption.map (·.messageKey)

/-- **An encryption uses up one key**: the ciphertext is made with it, and it is gone. -/
theorem encrypt_uses {plaintext aad : Bytes} {m : RatchetMessage C} (hs : s.Secured S rank ss)
    (h : (encrypt S plaintext aad).run s = .ok m t) :
    ∃ k, s.encryptKey S = some k ∧
      S.aeadEncrypt k plaintext (authenticatedData aad m.header) = .ok m.ciphertext ∧
      s.Progress S rank ss t ∧ t.Gone S rank ss k := by
  obtain ⟨-, c, ckOut, hc, hck, hheader, hmade, rfl⟩ := (encrypt_eq_ok S _ _ _ _ _).mp h
  refine ⟨ckOut.messageKey, ?_, by rw [hheader]; exact hmade, ?_⟩
  · rw [SessionState.encryptKey, hc, Option.bind_some, hck]
    rfl
  · cases kdfCk_eq_ok hck
    exact hs.send hc (s.sendCount + 1)

theorem decrypt_uses (hF : S.Free) (hR : S.RootsGrow rank) {drawn : Sec} {header : RatchetHeader}
    {ciphertext : C} {aad p : Bytes} (hs : s.Secured S rank ss)
    (h : (decrypt S drawn header ciphertext aad).run s = .ok p t) :
    ∃ k, s.decryptKey S drawn header = some k ∧
      S.aeadDecrypt k ciphertext (authenticatedData aad header) = .ok p ∧
      s.Progress S rank ss t ∧ t.Gone S rank ss k := by
  unfold SessionState.decryptKey
  rcases (decrypt_eq_ok S _ _ _ _ _ _ _).mp h with ⟨k, hk, hp, rfl⟩ | ⟨hnone, h⟩
  · rw [hk]
    exact ⟨k, rfl, hp, hs.take hk⟩
  · obtain ⟨u, v, c, ckOut, hu, hv, hc, hck, hp, -, rfl⟩ :=
      (tryDecryptInner_eq_ok S _ _ _ _ _ _ _).mp h
    refine ⟨ckOut.messageKey, ?_, hp, ?_⟩
    · simp only [hnone, hu, hv, hc, Option.bind_some, hck]
      rfl
    · cases kdfCk_eq_ok hck
      have hstepped := dhStepIfNeeded_progress hF hR drawn header hu hs
      have hskipped := hstepped.trans (skipMessageKeys_progress _ _ hv hstepped.secured)
      obtain ⟨hreceived, hgone⟩ := hskipped.secured.receive hc (header.messageNumber + 1)
      exact ⟨hskipped.trans hreceived, hgone⟩

/-! ## Runs -/

/-- Two sessions and the message keys each of them has used. -/
structure KeyUsage (K Sec : Type) where
  session : Party → SessionState K Sec
  used : Party → List K

namespace KeyUsage

def encrypt (S : Suite K Sec C) (w : KeyUsage K Sec) (x : Party) (plaintext aad : Bytes) :
    KeyUsage K Sec :=
  match (Crypto.encrypt S plaintext aad).run (w.session x) with
  | .ok _ t =>
    { session := Function.update w.session x t
      used := Function.update w.used x (((w.session x).encryptKey S).toList ++ w.used x) }
  | .error _ t => { w with session := Function.update w.session x t }

def decrypt (S : Suite K Sec C) (w : KeyUsage K Sec) (x : Party) (drawn : Sec)
    (header : RatchetHeader) (ciphertext : C) (aad : Bytes) : KeyUsage K Sec :=
  match (Crypto.decrypt S drawn header ciphertext aad).run (w.session x) with
  | .ok _ t =>
    { session := Function.update w.session x t
      used := Function.update w.used x
        (((w.session x).decryptKey S drawn header).toList ++ w.used x) }
  | .error _ t => { w with session := Function.update w.session x t }

end KeyUsage

/-- Calls of `encrypt` and `decrypt` at both parties, in any order and on any messages. -/
inductive UsageRun (S : Suite K Sec C) (a b : Sec) (ss : K) : KeyUsage K Sec → Prop
  | start (alice : SessionState K Sec)
      (hinit : initializeAlice S a ss (S.toPublic b) = .ok alice) :
      UsageRun S a b ss ⟨startSessions S b ss alice, fun _ => []⟩
  | encrypt {w : KeyUsage K Sec} (run : UsageRun S a b ss w) (x : Party) (plaintext aad : Bytes) :
      UsageRun S a b ss (w.encrypt S x plaintext aad)
  | decrypt {w : KeyUsage K Sec} (run : UsageRun S a b ss w) (x : Party) (drawn : Sec)
      (header : RatchetHeader) (ciphertext : C) (aad : Bytes) :
      UsageRun S a b ss (w.decrypt S x drawn header ciphertext aad)

/-- Each party has given up the keys it used. -/
def KeyUsage.Secured (S : Suite K Sec C) (rank : K → Nat) (ss : K) (w : KeyUsage K Sec) : Prop :=
  ∀ x, (w.session x).Secured S rank ss ∧ ∀ k ∈ w.used x, (w.session x).Gone S rank ss k

theorem secured_initializeBob (pair : RatchetKeyPair Sec) :
    (initializeBob ss pair).Secured S rank ss where
  chained := Chains.start ss
  root := .secret
  born := by
    rintro k (hk | ⟨_, _, ⟨⟩, _⟩)
    exact absurd hk not_holds_start

theorem secured_initializeAlice (hF : S.Free) (hR : S.RootsGrow rank) {drawn : Sec}
    {bobRatchetPublic : Key32} (h : initializeAlice S drawn ss bobRatchetPublic = .ok s) :
    s.Secured S rank ss := by
  obtain ⟨rkOut, hrk, rfl⟩ := initializeAlice_eq_ok h
  have hlt := hR _ _ _ (kdfRk_eq_ok hrk).1
  refine ⟨⟨Supply.start rkOut.rootKey, ?_, fun _ _ ⟨_, _, hnone, _⟩ => by cases hnone⟩, ?_, ?_⟩
  · have hstart : Supply S rank ss ∅ none := Supply.start ss
    have hturned := hstart.turn hF hlt (S.diffieHellman drawn bobRatchetPublic)
    rw [← (kdfRk_eq_ok hrk).2] at hturned
    exact hturned
  · show RootOf S ss rkOut.rootKey
    rw [kdfRk_rootKey hrk]
    exact .next _ .secret
  · rintro k (hk | ⟨_, n, ⟨⟩, rfl⟩)
    · exact absurd hk not_holds_start
    · exact ⟨ss, .secret, _, n, by rw [(kdfRk_eq_ok hrk).2]⟩

/-- One party moves on, and uses up a key. -/
theorem KeyUsage.Secured.update (hF : S.Free) {w : KeyUsage K Sec} (h : w.Secured S rank ss)
    (x : Party) (hp : (w.session x).Progress S rank ss t) (hk : t.Gone S rank ss k) :
    KeyUsage.Secured S rank ss
      ⟨Function.update w.session x t, Function.update w.used x (k :: w.used x)⟩ := by
  intro y
  by_cases hy : y = x
  · subst hy
    simp only [Function.update_self]
    refine ⟨hp.secured, fun k' hk' => ?_⟩
    rcases List.mem_cons.mp hk' with rfl | hk'
    · exact hk
    · exact ((h y).2 k' hk').advance hF hp
  · simp only [Function.update_of_ne hy]
    exact h y

theorem UsageRun.secured (hF : S.Free) (hR : S.RootsGrow rank) {a b : Sec} {w : KeyUsage K Sec}
    (run : UsageRun S a b ss w) : w.Secured S rank ss := by
  induction run with
  | start alice hinit =>
    rintro (_ | _)
    · exact ⟨secured_initializeAlice hF hR hinit, fun _ hk => absurd hk List.not_mem_nil⟩
    · exact ⟨secured_initializeBob _, fun _ hk => absurd hk List.not_mem_nil⟩
  | @encrypt w _ x plaintext aad ih =>
    unfold KeyUsage.encrypt
    split
    · next m t hrun =>
      obtain ⟨k, hkey, -, hprogress, hgone⟩ := encrypt_uses (ih x).1 hrun
      rw [hkey]
      exact ih.update hF x hprogress hgone
    · next e t hrun =>
      simp only [encrypt_error S _ _ _ _ _ hrun, Function.update_eq_self]
      exact ih
  | @decrypt w _ x drawn header ciphertext aad ih =>
    unfold KeyUsage.decrypt
    split
    · next p t hrun =>
      obtain ⟨k, hkey, -, hprogress, hgone⟩ := decrypt_uses hF hR (ih x).1 hrun
      rw [hkey]
      exact ih.update hF x hprogress hgone
    · next e t hrun =>
      simp only [decrypt_error S _ _ _ _ _ _ _ hrun, Function.update_eq_self]
      exact ih

/-- **Forward secrecy.** In every run of two sessions, no message key that a session has used can
be derived from the fields of that session, then or later. -/
theorem used_keys_not_derivable (hF : S.Free) (hR : S.RootsGrow rank) (hK : S.Kinded kind)
    (hss : kind ss = .secret) {a b : Sec} {w : KeyUsage K Sec} (run : UsageRun S a b ss w)
    (x : Party) : ∀ k ∈ w.used x, ¬ Derivable S (w.session x) k := by
  intro k hk
  obtain ⟨hsecured, hgone⟩ := run.secured hF hR x
  exact (hgone k hk).not_derivable hF hK hR hss hsecured

/-! ## Terms -/

def Term.keyKind : Term → KeyKind
  | .shared _ => .secret
  | .dh _ _ => .agreed
  | .rootKey _ _ => .root
  | .chainKey _ _ => .chain
  | .mac _ data => if data = 0x01 then .message else .chain
  | .x3dh _ _ _ => .secret
  | .x3dhOneTime _ _ _ _ => .secret

theorem symbolic_kinded : symbolic.Kinded Term.keyKind where
  nextRoot _ _ := rfl
  newChain _ _ := rfl
  nextChain _ := rfl
  messageKey _ := rfl
  diffieHellman a b := by
    show (Term.agree a b).keyKind = .agreed
    unfold Term.agree
    split <;> rfl
  nextRoot_inj h := by cases h; rfl

/-- Alice sends a message and Bob reads it: both have used the same key, and both have lost it. -/
theorem used_keys_not_derivable_first :
    ∃ (w : KeyUsage Term Key32) (k : Term),
      UsageRun symbolic (key32 1) (key32 2) (.shared 0) w ∧
      k ∈ w.used .alice ∧ k ∈ w.used .bob ∧
      ¬ Derivable symbolic (w.session .alice) k ∧ ¬ Derivable symbolic (w.session .bob) k := by
  have sent : UsageRun symbolic (key32 1) (key32 2) (.shared 0) _ :=
    .encrypt (.start _ rfl) .alice [104] []
  have run := sent.decrypt .bob (key32 3) ⟨key32 1, 0, 0⟩
    (.box (.mac (.chainKey (.shared 0) (Term.agree (key32 1) (key32 2))) 0x01) [104]
      (authenticatedData [] ⟨key32 1, 0, 0⟩)) []
  have secrecy := used_keys_not_derivable symbolic_free symbolic_rootsGrow symbolic_kinded rfl run
  have halice : Term.mac (.chainKey (.shared 0) (Term.agree (key32 1) (key32 2))) 0x01 ∈ _ :=
    List.mem_singleton.mpr rfl
  have hbob : Term.mac (.chainKey (.shared 0) (Term.agree (key32 2) (key32 1))) 0x01 ∈ _ :=
    List.mem_singleton.mpr rfl
  rw [agree_comm] at hbob
  exact ⟨_, _, run, halice, hbob, secrecy .alice _ halice, secrecy .bob _ hbob⟩

end Cmp.Crypto
