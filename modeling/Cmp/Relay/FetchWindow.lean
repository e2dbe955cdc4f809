import Cmp.Relay.Acceptance

/-! The limits on fetches of prekeys. A call counts the fetches in the window that ends with
it, after it has dropped the older ones for everybody. With a clock that does not go back no
later window misses what was dropped, so that the limits hold in every window, wherever it
ends. -/

namespace Cmp.Relay

open Cmp.Crypto Cmp.Protocol Cmp.Lib

variable {C D : Type}

/-- A fetch that `who` selects, at `cutoff` or later. -/
def countsFrom (who : FetchEventRow → Bool) (cutoff : Nat) (row : FetchEventRow) : Bool :=
  who row && decide (cutoff ≤ row.createdAt)

/-- A fetch that `who` selects, in the closed interval from `start`. -/
def countsWithin (who : FetchEventRow → Bool) (start windowSecs : Nat) (row : FetchEventRow) :
    Bool :=
  who row && decide (start ≤ row.createdAt ∧ row.createdAt ≤ start + windowSecs)

def isBy (requesterId : UserId) (row : FetchEventRow) : Bool :=
  decide (row.requesterId = requesterId)

def isFor (targetId : UserId) (row : FetchEventRow) : Bool := decide (row.targetId = targetId)

/-- A prekey is handed out only below both limits. -/
theorem fetchForRequester_below {requesterId targetId : UserId} {now choice : Nat}
    {limits : FetchLimits} {db db' : Db C D} {keyId : UInt32} {publicKey : Bytes}
    (h : fetchForRequester requesterId targetId now limits choice db =
      .ok (.fetched keyId publicKey, db')) :
    db.prekeyFetchEvents.countP (countsFrom (isBy requesterId) (now - limits.windowSecs)) <
        limits.perRequester ∧
      db.prekeyFetchEvents.countP (countsFrom (isFor targetId) (now - limits.windowSecs)) <
        limits.perTarget := by
  have hcount : ∀ p : FetchEventRow → Prop, ∀ _ : DecidablePred p,
      (db.prekeyFetchEvents.filter fun row =>
        decide (now - limits.windowSecs ≤ row.createdAt)).countP
          (fun row => decide (p row ∧ now - limits.windowSecs ≤ row.createdAt)) =
        db.prekeyFetchEvents.countP
          (countsFrom (fun row => decide (p row)) (now - limits.windowSecs)) := by
    intro p _
    rw [List.countP_filter]
    refine List.countP_congr fun row _ => ?_
    simp only [countsFrom, Bool.and_eq_true, decide_eq_true_eq]
    tauto
  unfold fetchForRequester at h
  dsimp only at h
  rw [hcount, hcount] at h
  split at h
  · cases h
  next hrequester =>
  split at h
  · cases h
  next htarget => exact ⟨not_le.mp hrequester, not_le.mp htarget⟩

/-- The fetch that a transaction has been granted. -/
def grantedFetch (t : Transaction C) (answer : Option Answer) : Option FetchEventRow :=
  match t, answer with
  | .fetchForRequester requesterId targetId now _ _, some (.fetched (.fetched _ _)) =>
    some ⟨requesterId, targetId, now⟩
  | _, _ => none

theorem grantedFetch_eq_some {t : Transaction C} {answer : Option Answer} {row : FetchEventRow}
    (h : grantedFetch t answer = some row) : ∃ limits choice keyId publicKey,
      t = .fetchForRequester row.requesterId row.targetId row.createdAt limits choice ∧
        answer = some (.fetched (.fetched keyId publicKey)) := by
  unfold grantedFetch at h
  split at h
  · next limits choice keyId publicKey =>
    cases h
    exact ⟨limits, choice, keyId, publicKey, rfl, rfl⟩
  · cases h

variable [DecidableEq D] {digest : EncryptedEnvelope C → D}

theorem Transaction.answer?_fetched {requesterId targetId : UserId} {now choice : Nat}
    {limits : FetchLimits} {db : Db C D} {result : FetchResult}
    (h : (Transaction.fetchForRequester requesterId targetId now limits choice).answer? digest db =
      some (.fetched result)) :
    ∃ db', Relay.fetchForRequester requesterId targetId now limits choice db =
      .ok (result, db') := by
  unfold Transaction.answer? at h
  simp only [Transaction.run] at h
  cases hfetch : Relay.fetchForRequester requesterId targetId now limits choice db with
  | error =>
    rw [hfetch] at h
    cases h
  | ok fetched =>
    rw [hfetch] at h
    cases h
    exact ⟨fetched.2, rfl⟩

/-- What is in the window stays, and a granted fetch is added to it. -/
theorem Effect.recorded {db db' : Db C D} {t : Transaction C} {answer : Option Answer}
    (h : Effect digest db t answer db') (who : FetchEventRow → Bool) {cutoff : Nat}
    (hcutoff : ∀ requesterId targetId now limits choice,
      t = .fetchForRequester requesterId targetId now limits choice →
      now - limits.windowSecs ≤ cutoff) :
    db.prekeyFetchEvents.countP (countsFrom who cutoff) +
        (grantedFetch t answer).toList.countP (countsFrom who cutoff) ≤
      db'.prekeyFetchEvents.countP (countsFrom who cutoff) := by
  have hsame : ∀ db' : Db C D, db'.prekeyFetchEvents = db.prekeyFetchEvents →
      grantedFetch t answer = none →
      db.prekeyFetchEvents.countP (countsFrom who cutoff) +
          (grantedFetch t answer).toList.countP (countsFrom who cutoff) ≤
        db'.prekeyFetchEvents.countP (countsFrom who cutoff) := by
    intro db' hevents hnone
    rw [hevents, hnone]
    exact le_refl _
  cases h with
  | failed t => exact hsame db rfl (by unfold grantedFetch; split <;> first | rfl | contradiction)
  | registered _ _ _ _ h | uploaded _ _ _ _ _ _ _ h | rotated _ _ _ _ _ _ h =>
    cases h <;> exact hsame _ rfl rfl
  | fetched requesterId targetId now limits choice result db' h =>
    -- what the call drops is before its own window
    have hswept : (swept targetId now limits db).prekeyFetchEvents.countP (countsFrom who cutoff) =
        db.prekeyFetchEvents.countP (countsFrom who cutoff) := by
      have hle := hcutoff _ _ _ _ _ rfl
      unfold swept
      dsimp only
      rw [List.countP_filter]
      refine List.countP_congr fun row _ => ?_
      simp only [countsFrom, Bool.and_eq_true, decide_eq_true_eq]
      refine and_iff_left_of_imp fun hrow => le_trans hle hrow.2
    cases h with
    | refused result hresult =>
      refine hsame _ rfl ?_
      cases result with
      | fetched keyId publicKey => exact absurd rfl (hresult keyId publicKey)
      | _ => rfl
    | empty => exact hswept.ge
    | fetched prekey _ _ reserved =>
      unfold fetchedFrom
      dsimp only
      rw [List.countP_append, hswept]
      exact le_refl _
  | enqueued _ _ _ _ h => cases h <;> exact hsame _ rfl rfl
  | receiptQueued _ _ _ _ _ _ _ h =>
    rcases enqueueReceipt_cases h with ⟨-, rfl⟩ | ⟨-, queue, -, rfl⟩ <;> exact hsame _ rfl rfl
  | _ => exact hsame _ rfl rfl

/-! ## Sequences of calls -/

/-- The fetches that the first transactions of a sequence have been granted. -/
def grantedFetches (digest : EncryptedEnvelope C → D) (ts : Nat → Transaction C) (db : Db C D) :
    Nat → List FetchEventRow
  | 0 => []
  | n + 1 =>
    grantedFetches digest ts db n ++ (grantedFetch (ts n) (db.answer? digest ts n)).toList

/-- All fetches have these limits, and their clock does not go back. -/
structure FetchesUnder (limits : FetchLimits) (ts : Nat → Transaction C) : Prop where
  limits : ∀ n requesterId targetId now limits' choice,
    ts n = .fetchForRequester requesterId targetId now limits' choice → limits' = limits
  clock : ∀ i j requesterId targetId now limits choice requesterId' targetId' now' limits' choice',
    i ≤ j → ts i = .fetchForRequester requesterId targetId now limits choice →
    ts j = .fetchForRequester requesterId' targetId' now' limits' choice' → now ≤ now'

section

variable (digest) {limits : FetchLimits} {ts : Nat → Transaction C} (h : FetchesUnder limits ts)
  (db : Db C D)

/-- The table has all that was granted since the last cutoff. -/
theorem grantedFetches_recorded (who : FetchEventRow → Bool) {cutoff : Nat} (n : Nat)
    (hcutoff : ∀ i < n, ∀ requesterId targetId now limits choice,
      ts i = .fetchForRequester requesterId targetId now limits choice →
      now - limits.windowSecs ≤ cutoff) :
    (grantedFetches digest ts db n).countP (countsFrom who cutoff) ≤
      (db.after digest ts n).prekeyFetchEvents.countP (countsFrom who cutoff) := by
  induction n with
  | zero => exact Nat.zero_le _
  | succ n ih =>
    have hbefore := ih fun i hi => hcutoff i (Nat.lt_succ_of_lt hi)
    have hstep := (db.after_effect digest ts n).recorded who (hcutoff n (Nat.lt_succ_self n))
    rw [grantedFetches, List.countP_append]
    omega

include h

/-- A limit that every granted fetch keeps with the window that ends at it is kept in every
window. -/
theorem grantedFetches_le (who : FetchEventRow → Bool) {limit : Nat}
    (hlimit : ∀ n row, grantedFetch (ts n) (db.answer? digest ts n) = some row → who row = true →
      (db.after digest ts n).prekeyFetchEvents.countP
        (countsFrom who (row.createdAt - limits.windowSecs)) < limit) (start n : Nat) :
    (grantedFetches digest ts db n).countP (countsWithin who start limits.windowSecs) ≤ limit := by
  induction n with
  | zero => exact Nat.zero_le _
  | succ n ih =>
    rw [grantedFetches, List.countP_append]
    cases hgranted : grantedFetch (ts n) (db.answer? digest ts n) with
    | none => exact ih
    | some row =>
      rw [Option.toList_some, List.countP_singleton]
      split
      · next hrow =>
        simp only [countsWithin, Bool.and_eq_true, decide_eq_true_eq] at hrow
        obtain ⟨hwho, -, hend⟩ := hrow
        -- the window that ends at this fetch has all the earlier ones of the interval
        have hwindow : (grantedFetches digest ts db n).countP
              (countsWithin who start limits.windowSecs) ≤
            (grantedFetches digest ts db n).countP
              (countsFrom who (row.createdAt - limits.windowSecs)) := by
          refine List.countP_mono_left fun other _ hother => ?_
          simp only [countsWithin, countsFrom, Bool.and_eq_true, decide_eq_true_eq] at hother ⊢
          exact ⟨hother.1, by omega⟩
        have hrecorded : (grantedFetches digest ts db n).countP
              (countsFrom who (row.createdAt - limits.windowSecs)) ≤
            (db.after digest ts n).prekeyFetchEvents.countP
              (countsFrom who (row.createdAt - limits.windowSecs)) := by
          obtain ⟨own, choice, keyId, publicKey, hcall, -⟩ := grantedFetch_eq_some hgranted
          refine grantedFetches_recorded digest db who n ?_
          intro i hi requesterId targetId now earlier choice' hearlier
          have hnow := h.clock i n _ _ _ _ _ _ _ _ _ _ (le_of_lt hi) hearlier hcall
          rw [h.limits i _ _ _ _ _ hearlier]
          omega
        have hbelow := hlimit n row hgranted hwho
        omega
      · exact ih

/-- Within a window, no requester is given more than `per_requester` fetches and no target
more than `per_target`; a fetch that is refused changes nothing. -/
theorem fetches_limited :
    (∀ requesterId start n, (grantedFetches digest ts db n).countP
      (countsWithin (isBy requesterId) start limits.windowSecs) ≤ limits.perRequester) ∧
    (∀ targetId start n, (grantedFetches digest ts db n).countP
      (countsWithin (isFor targetId) start limits.windowSecs) ≤ limits.perTarget) ∧
    ∀ n, db.answer? digest ts n = some (.fetched .rateLimited) ∨
        db.answer? digest ts n = some (.fetched .targetDepleted) →
      db.after digest ts (n + 1) = db.after digest ts n := by
  have hbelow : ∀ n row, grantedFetch (ts n) (db.answer? digest ts n) = some row →
      (db.after digest ts n).prekeyFetchEvents.countP
          (countsFrom (isBy row.requesterId) (row.createdAt - limits.windowSecs)) <
        limits.perRequester ∧
      (db.after digest ts n).prekeyFetchEvents.countP
          (countsFrom (isFor row.targetId) (row.createdAt - limits.windowSecs)) <
        limits.perTarget := by
    intro n row hgranted
    obtain ⟨own, choice, keyId, publicKey, hcall, hanswer⟩ := grantedFetch_eq_some hgranted
    obtain rfl := h.limits n _ _ _ _ _ hcall
    unfold Db.answer? at hanswer
    rw [hcall] at hanswer
    obtain ⟨db', hfetch⟩ := Transaction.answer?_fetched hanswer
    exact fetchForRequester_below hfetch
  refine ⟨?_, ?_, ?_⟩
  · intro requesterId start n
    refine grantedFetches_le digest h db (isBy requesterId) (fun n row hgranted hwho => ?_) start n
    obtain rfl : row.requesterId = requesterId := of_decide_eq_true hwho
    exact (hbelow n row hgranted).1
  · intro targetId start n
    refine grantedFetches_le digest h db (isFor targetId) (fun n row hgranted hwho => ?_) start n
    obtain rfl : row.targetId = targetId := of_decide_eq_true hwho
    exact (hbelow n row hgranted).2
  · intro n hanswer
    have heffect := db.after_effect digest ts n
    generalize db.after digest ts (n + 1) = db' at heffect ⊢
    rcases hanswer with hanswer | hanswer
    all_goals
      rw [hanswer] at heffect
      generalize ts n = t at heffect
      cases heffect with
      | fetched _ _ _ _ _ _ _ hfetched =>
        cases hfetched with
        | refused => rfl

end

/-- Bob registers, and Alice fetches every five seconds; one fetch in ten is allowed. -/
def everyFive : Nat → Transaction Bytes
  | 0 => .registerAtomic ⟨bob, [], 1, [], [], [(0, [1]), (1, [2]), (2, [3])]⟩ fun _ => 50
  | n + 1 => .fetchForRequester alice bob (100 + 5 * n) ⟨10, 1, 1⟩ 0

theorem everyFive_fetches : FetchesUnder ⟨10, 1, 1⟩ everyFive where
  limits n _ _ _ _ _ h := by
    cases n with
    | zero => cases h
    | succ n => cases h; rfl
  clock i j _ _ _ _ _ _ _ _ _ _ hle hi hj := by
    cases i with
    | zero => cases hi
    | succ i =>
      cases j with
      | zero => cases hj
      | succ j =>
        cases hi
        cases hj
        omega

theorem fetches_limited_alice :
    grantedFetches (fun _ => ()) everyFive Db.fresh 5 = [⟨alice, bob, 100⟩, ⟨alice, bob, 115⟩] ∧
      (grantedFetches (fun _ => ()) everyFive Db.fresh 5).countP
        (countsWithin (isBy alice) 101 10) ≤ 1 :=
  ⟨by decide, (fetches_limited (fun _ => ()) everyFive_fetches Db.fresh).1 alice 101 5⟩

end Cmp.Relay
