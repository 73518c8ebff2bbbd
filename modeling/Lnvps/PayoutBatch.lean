import Lnvps.Referral

/-! # A batch of on-chain payouts -/

namespace Lnvps

open Table List Option ReferralDb

section Fee

variable {amounts : List Nat} {totalFee : Nat}

theorem le_foldl_max (amounts : List Nat) (m : Nat) :
  m ≤ amounts.foldl max m ∧ ∀ a ∈ amounts, a ≤ amounts.foldl max m := by
 rw [foldl_max]
 exact ⟨le_max_left _ _, fun a ha => le_max_of_le_right (le_max?_getD_of_mem ha)⟩

theorem foldl_max_mem (amounts : List Nat) (m : Nat) : amounts.foldl max m = m ∨ amounts.foldl max m ∈ amounts := by
 rw [foldl_max]
 cases hmax : amounts.max? with
 | none => exact .inl (max_self m)
 | some a =>
  rw [getD_some]
  rcases max_choice m a with h | h
  · exact .inl h
  · rw [h]
    exact .inr (max?_mem hmax)

def largestIdx (amounts : List Nat) : Nat := amounts.length - 1 - amounts.reverse.idxOf (amounts.foldl max 0)

theorem getElem?_largestIdx (h : 0 < amounts.sum) : amounts[largestIdx amounts]? = some (amounts.foldl max 0) := by
 have hmem : amounts.foldl max 0 ∈ amounts := by
  rcases foldl_max_mem amounts 0 with hzero | hmem
  · have hall : ∀ a ∈ amounts, a = 0 := by
     intro a ha
     have hle := (le_foldl_max amounts 0).2 a ha
     omega
    rw [sum_eq_zero hall] at h
    exact absurd h (lt_irrefl 0)
  · exact hmem
 have hidx : amounts.reverse.idxOf (amounts.foldl max 0) < amounts.reverse.length :=
  idxOf_lt_length_of_mem (mem_reverse.mpr hmem)
 have hget := getElem_idxOf hidx
 rw [length_reverse] at hidx
 rw [getElem_reverse] at hget
 unfold largestIdx
 rw [getElem?_eq_getElem (by omega), hget]

theorem splitFeeProportional_eq (h : 0 < amounts.sum) (hfee : totalFee ≠ 0) :
  splitFeeProportional amounts totalFee = (amounts.map fun a => a * totalFee / amounts.sum).modify
   (largestIdx amounts) (· + (totalFee - (amounts.map fun a => a * totalFee / amounts.sum).sum)) := by
 unfold splitFeeProportional
 rw [if_neg (by omega)]
 rfl

theorem length_splitFeeProportional (amounts : List Nat) (totalFee : Nat) :
  (splitFeeProportional amounts totalFee).length = amounts.length := by
 unfold splitFeeProportional
 split <;> simp

theorem splitFeeProportional_getElem? (totalFee : Nat) (h : 0 < amounts.sum) {i a : Nat} (ha : amounts[i]? = some a) :
  ∃ rest, (splitFeeProportional amounts totalFee)[i]? = some (a * totalFee / amounts.sum + rest) ∧
   (i ≠ largestIdx amounts → rest = 0) := by
 by_cases hfee : totalFee = 0
 · refine ⟨0, ?_, fun _ => rfl⟩
   rw [splitFeeProportional, if_pos (.inr hfee), getElem?_map, ha, hfee, Nat.mul_zero, Nat.zero_div]
   rfl
 rw [splitFeeProportional_eq h hfee]
 by_cases hidx : i = largestIdx amounts
 · refine ⟨totalFee - (amounts.map fun a => a * totalFee / amounts.sum).sum, ?_, fun hne => absurd hidx hne⟩
   simp only [getElem?_modify, if_pos hidx.symm, getElem?_map, ha]
   rfl
 · refine ⟨0, ?_, fun _ => rfl⟩
   simp only [getElem?_modify, if_neg (Ne.symm hidx), getElem?_map, ha]
   rfl

end Fee

/-- There is one share for each amount, together they are the fee, each is at least its proportion rounded down, and
all but that of one largest amount are exactly this. -/
theorem fee_split (amounts : List Nat) (totalFee : Nat) (h : 0 < amounts.sum) :
  (splitFeeProportional amounts totalFee).length = amounts.length ∧
   (splitFeeProportional amounts totalFee).sum = totalFee ∧
   ∃ (idx largest : Nat), amounts[idx]? = some largest ∧ (∀ a ∈ amounts, a ≤ largest) ∧
    ∀ (i a : Nat), amounts[i]? = some a → ∃ share, (splitFeeProportional amounts totalFee)[i]? = some share ∧
     a * totalFee / amounts.sum ≤ share ∧ (i ≠ idx → share = a * totalFee / amounts.sum) := by
 refine ⟨length_splitFeeProportional amounts totalFee, splitFeeProportional_sum h.ne', largestIdx amounts,
  amounts.foldl max 0, getElem?_largestIdx h, (le_foldl_max amounts 0).2, fun i a ha => ?_⟩
 obtain ⟨rest, hshare, hrest⟩ := splitFeeProportional_getElem? totalFee h ha
 refine ⟨_, hshare, Nat.le_add_right _ _, fun hne => ?_⟩
 rw [hrest hne, Nat.add_zero]

/-- A fee of 10 over a zero and two largest amounts: the last of them bears the odd unit. -/
theorem fee_split_tie : splitFeeProportional [7, 0, 7, 1] 10 = [4, 0, 6, 0] ∧
  (splitFeeProportional [7, 0, 7, 1] 10).sum = 10 :=
 ⟨by decide, (fee_split [7, 0, 7, 1] 10 (by decide)).2.1⟩

structure BatchAnswers where
 feeRate : Option Nat
 insertFails : (k : Nat) → Bool
 broadcast : Option Nat
 updateFails : (k : Nat) → Bool

inductive BatchError
 | estimate
 | insert
 | sendCoins

section SendBatch

variable (cfg : PayoutConfig) (a : BatchAnswers)

def reserveAll : (k : Nat) → List EligiblePayout → List ReservedPayout → ReferralDb →
  ReferralDb × Option (List ReservedPayout)
 | _, [], reserved, t => (t, some reserved)
 | k, e :: eligible, reserved, t =>
  if a.insertFails k then (t, none)
  else
   let (t', payoutId) := t.insertReferralPayout { reservation e.referral e.payMsat with mode := .onChain }
   reserveAll (k + 1) eligible (reserved ++ [⟨payoutId, e.referral, e.payMsat⟩]) t'

def recordAll : (k : Nat) → List ReferralPayout → ReferralDb → ReferralDb
 | _, [], t => t
 | k, payout :: payouts, t => recordAll (k + 1) payouts (if a.updateFails k then t else t.updateReferralPayout payout)

def releaseAll (ids : List Nat) (t : ReferralDb) : ReferralDb := ids.foldl ReferralDb.deleteReferralPayout t

def sendBatch (t : ReferralDb) (eligible : List EligiblePayout) : ReferralDb × Except BatchError Unit :=
 match a.feeRate with
 | none => (t, .error .estimate)
 | some satPerVbyte =>
  if satPerVbyte > cfg.maxOnchainFeePerVbyte then (t, .ok ())
  else
   match reserveAll a 0 eligible [] t with
   | (t', none) => (t', .error .insert)
   | (t', some reserved) =>
    match a.broadcast with
    | some totalFee => (recordAll a 0 (batchRows reserved totalFee) t', .ok ())
    | none => (releaseAll (reserved.map (·.payoutId)) t', .error .sendCoins)

def payableOnchainMsat (t : ReferralDb) (referral : Referral) (minOnchainMsat : Nat) : Option Nat :=
 payableReferralMsat (t.earnedMsat cfg referral.code) (t.existingMsat referral.id)
  (effectiveMinMsat referral minOnchainMsat)

end SendBatch

def runPhases (cfg : PayoutConfig) (referrals : List Referral) : List Answer → ReferralDb → Phase → ReferralDb × Phase
 | [], t, phase => (t, phase)
 | answer :: answers, t, phase =>
  let (t', _, phase') := advance cfg t answer referrals phase
  runPhases cfg referrals answers t' phase'

section Phases

variable (cfg : PayoutConfig) (a : BatchAnswers) (referrals : List Referral) (t : ReferralDb)

theorem runPhases_append (as bs : List Answer) (phase : Phase) : runPhases cfg referrals (as ++ bs) t phase =
  runPhases cfg referrals bs (runPhases cfg referrals as t phase).1 (runPhases cfg referrals as t phase).2 := by
 induction as generalizing t phase with
 | nil => rfl
 | cons answer as ih => exact ih _ _

theorem runPhases_reserve (k : Nat) (eligible : List EligiblePayout) (reserved : List ReservedPayout) :
  ∃ answers, runPhases cfg referrals answers t (.reserveBatch eligible reserved) =
   ((reserveAll a k eligible reserved t).1,
    match (reserveAll a k eligible reserved t).2 with
    | none => .done
    | some reserved' => .send reserved') := by
 induction eligible generalizing k reserved t with
 | nil => exact ⟨[{}], rfl⟩
 | cons e eligible ih =>
  by_cases hfail : a.insertFails k = true
  · refine ⟨[{ dbFails := true }], ?_⟩
    simp [runPhases, advance, reserveAll, hfail]
  obtain ⟨answers, hrun⟩ := ih (t.insertReferralPayout
   { reservation e.referral e.payMsat with mode := .onChain }).1 (k + 1)
   (reserved ++ [⟨t.nextId, e.referral, e.payMsat⟩])
  refine ⟨{} :: answers, ?_⟩
  simp only [reserveAll, hfail]
  exact hrun

theorem runPhases_record (k : Nat) (payouts : List ReferralPayout) : ∃ answers,
  runPhases cfg referrals answers t (.recordBatch payouts) = (recordAll a k payouts t, .done) := by
 induction payouts generalizing k t with
 | nil => exact ⟨[{}], rfl⟩
 | cons payout payouts ih =>
  obtain ⟨answers, hrun⟩ := ih (if a.updateFails k then t else t.updateReferralPayout payout) (k + 1)
  exact ⟨{ dbFails := a.updateFails k } :: answers, hrun⟩

theorem runPhases_release (ids : List Nat) : ∃ answers,
  runPhases cfg referrals answers t (.releaseBatch ids) = (releaseAll ids t, .done) := by
 induction ids generalizing t with
 | nil => exact ⟨[{}], rfl⟩
 | cons id ids ih =>
  obtain ⟨answers, hrun⟩ := ih (t.deleteReferralPayout id)
  exact ⟨{} :: answers, hrun⟩

end Phases

def reservedRows : (nextId : Nat) → List EligiblePayout → List ReferralPayout
 | _, [] => []
 | nextId, e :: eligible =>
  { reservation e.referral e.payMsat with id := nextId, mode := .onChain } :: reservedRows (nextId + 1) eligible

theorem reservedRows_ids (nextId : Nat) (eligible : List EligiblePayout) :
  (reservedRows nextId eligible).map (·.id) = range' nextId eligible.length := by
 induction eligible generalizing nextId with
 | nil => rfl
 | cons e eligible ih =>
  rw [reservedRows, map_cons, ih, length_cons, range'_succ]

theorem reservedRows_unpaid (nextId : Nat) (eligible : List EligiblePayout) :
  ∀ p ∈ reservedRows nextId eligible, p.isPaid = false := by
 induction eligible generalizing nextId with
 | nil => exact fun _ hp => absurd hp not_mem_nil
 | cons e eligible ih => exact forall_mem_cons.mpr ⟨rfl, ih (nextId + 1)⟩

def ReferralDb.reserving (t : ReferralDb) (eligible : List EligiblePayout) : ReferralDb := { t with
 payouts := t.payouts ++ reservedRows t.nextId eligible, nextId := t.nextId + eligible.length }

section Failure

variable {cfg : PayoutConfig} {a : BatchAnswers} {t t' : ReferralDb} {eligible : List EligiblePayout}

theorem reserving_cons (e : EligiblePayout) : (t.insertReferralPayout
  { reservation e.referral e.payMsat with mode := .onChain }).1.reserving eligible = t.reserving (e :: eligible) := by
 simp only [reserving, insertReferralPayout, reservedRows, append_assoc,
  cons_append, nil_append, length_cons]
 rw [Nat.add_assoc, Nat.add_comm 1]

theorem reserveAll_none {k : Nat} {reserved : List ReservedPayout}
  (h : reserveAll a k eligible reserved t = (t', none)) :
  ∃ j < eligible.length, t' = t.reserving (eligible.take j) ∧ (j = 0 ↔ a.insertFails k) := by
 induction eligible generalizing k reserved t with
 | nil => cases h
 | cons e eligible ih =>
  by_cases hfail : a.insertFails k = true
  · rw [reserveAll, if_pos hfail] at h
    cases h
    exact ⟨0, Nat.succ_pos _, by simp [reserving, reservedRows], by simp [hfail]⟩
  · rw [reserveAll, if_neg hfail] at h
    obtain ⟨j, hj, ht', -⟩ := ih h
    exact ⟨j + 1, Nat.succ_lt_succ hj, ht'.trans (reserving_cons e), by simp [hfail]⟩

theorem reserveAll_some {k : Nat} {reserved reserved' : List ReservedPayout}
  (h : reserveAll a k eligible reserved t = (t', some reserved')) : t' = t.reserving eligible ∧
   reserved'.map (·.payoutId) = reserved.map (·.payoutId) ++ range' t.nextId eligible.length := by
 induction eligible generalizing k reserved t with
 | nil =>
  cases h
  simp [reserving, reservedRows]
 | cons e eligible ih =>
  by_cases hfail : a.insertFails k = true
  · rw [reserveAll, if_pos hfail] at h
    cases h
  rw [reserveAll, if_neg hfail] at h
  obtain ⟨ht', hids⟩ := ih h
  refine ⟨ht'.trans (reserving_cons e), ?_⟩
  rw [hids, length_cons, range'_succ, map_append, append_assoc]
  rfl

theorem releaseAll_eq (ids : List Nat) (t : ReferralDb) :
  releaseAll ids t = { t with payouts := t.payouts.filter fun p => p.id ∉ ids } := by
 induction ids generalizing t with
 | nil => simp [releaseAll]
 | cons id ids ih =>
  rw [releaseAll, foldl_cons]
  refine (ih (t.deleteReferralPayout id)).trans ?_
  simp only [deleteReferralPayout, List.filter_filter, List.mem_cons, not_or, Bool.decide_and]
  congr 2
  funext p
  exact Bool.and_comm _ _

theorem releaseAll_reserving (eligible : List EligiblePayout) (hfresh : ∀ p ∈ t.payouts, p.id < t.nextId) :
  (releaseAll (range' t.nextId eligible.length) (t.reserving eligible)).payouts = t.payouts := by
 rw [releaseAll_eq]
 simp only [reserving, filter_append]
 have hold : t.payouts.filter (fun p => p.id ∉ range' t.nextId eligible.length) = t.payouts := by
  refine filter_eq_self.mpr fun p hp => ?_
  have hlt := hfresh p hp
  simp only [mem_range'_1, decide_eq_true_eq]
  omega
 have hnew : (reservedRows t.nextId eligible).filter (fun p => p.id ∉ range' t.nextId eligible.length) = [] := by
  refine filter_eq_nil_iff.mpr fun p hp => ?_
  have hid := mem_map_of_mem (f := (·.id)) hp
  rw [reservedRows_ids] at hid
  simp [hid]
 rw [hold, hnew, append_nil]

theorem sendBatch_error {e : BatchError} (hfresh : ∀ p ∈ t.payouts, p.id < t.nextId)
  (h : sendBatch cfg a t eligible = (t', .error e)) : ∃ j ≤ eligible.length,
   t'.db = t.db ∧ t'.referrals = t.referrals ∧ t'.payouts = t.payouts ++ reservedRows t.nextId (eligible.take j) ∧
    (eligible.take j = [] ↔ (e = .insert → a.insertFails 0)) := by
 unfold sendBatch at h
 cases hrate : a.feeRate with
 | none =>
  rw [hrate] at h
  cases h
  exact ⟨0, Nat.zero_le _, rfl, rfl, by simp [reservedRows], by simp⟩
 | some rate =>
  rw [hrate] at h
  by_cases hhigh : rate > cfg.maxOnchainFeePerVbyte
  · simp [hhigh] at h
  simp only [hhigh, if_false] at h
  rcases hall : reserveAll a 0 eligible [] t with ⟨t₁, _ | reserved⟩
  · rw [hall] at h
    cases h
    obtain ⟨j, hj, ht₁, hzero⟩ := reserveAll_none hall
    subst ht₁
    refine ⟨j, hj.le, rfl, rfl, rfl, ?_⟩
    have hne : eligible ≠ [] := ne_nil_of_length_pos (Nat.zero_lt_of_lt hj)
    simp [hne, hzero]
  · rw [hall] at h
    obtain ⟨ht₁, hids⟩ := reserveAll_some hall
    subst ht₁
    cases hsend : a.broadcast with
    | some totalFee => simp [hsend] at h
    | none =>
     simp only [hsend, Prod.mk.injEq] at h
     obtain ⟨ht', he⟩ := h
     cases he
     rw [hids, map_nil, nil_append] at ht'
     have hpayouts := releaseAll_reserving eligible hfresh
     rw [ht'] at hpayouts
     rw [releaseAll_eq] at ht'
     refine ⟨0, Nat.zero_le _, by rw [← ht']; rfl, by rw [← ht']; rfl, ?_, by simp⟩
     rw [hpayouts, take_zero, reservedRows, append_nil]

end Failure

/-- Payouts get fresh ids. A call that fails leaves no unpaid row of its own, and so all balances as they were, exactly
if it is not an insert after the first one that failed. -/
theorem failed_batch_iff (cfg : PayoutConfig) (a : BatchAnswers) (t t' : ReferralDb) (eligible : List EligiblePayout)
  (e : BatchError) (hfresh : ∀ p ∈ t.payouts, p.id < t.nextId)
  (h : sendBatch cfg a t eligible = (t', .error e)) :
  ((∀ p ∈ t'.payouts, t.nextId ≤ p.id → p.isPaid) ∧
   ∀ referral minOnchainMsat, payableOnchainMsat cfg t' referral minOnchainMsat =
    payableOnchainMsat cfg t referral minOnchainMsat) ↔ (e = .insert → a.insertFails 0) := by
 obtain ⟨j, hj, hdb, hreferrals, hpayouts, hnone⟩ := sendBatch_error hfresh h
 rw [← hnone]
 constructor
 · intro ⟨hpaid, _⟩
   by_contra hne
   obtain ⟨row, hrow⟩ := exists_mem_of_length_pos (l := reservedRows t.nextId (eligible.take j)) (by
    rw [← length_map (f := (·.id)), reservedRows_ids, length_range']
    exact length_pos_iff.mpr hne)
   have hid := mem_map_of_mem (f := (·.id)) hrow
   rw [reservedRows_ids, mem_range'_1] at hid
   have hrowpaid := hpaid row (by rw [hpayouts]; exact mem_append_right _ hrow) hid.1
   rw [reservedRows_unpaid _ _ row hrow] at hrowpaid
   exact absurd hrowpaid Bool.false_ne_true
 · intro hnil
   rw [hnil, reservedRows, append_nil] at hpayouts
   refine ⟨fun p hp hle => absurd (hfresh p (hpayouts ▸ hp)) (Nat.not_lt.mpr hle), fun referral minOnchainMsat => ?_⟩
   obtain ⟨db, referrals, payouts, nextId⟩ := t
   obtain ⟨db', referrals', payouts', nextId'⟩ := t'
   cases hdb
   cases hreferrals
   cases hpayouts
   rfl

def twoReferrers : ReferralDb where
 db := {
  subscriptions := [{ id := 1 }, { id := 2 }]
  lineItems := [{ id := 1, subscriptionId := 1, subscriptionType := .vps },
   { id := 2, subscriptionId := 2, subscriptionType := .vps }]
  payments := [{ id := 1, subscriptionId := 1, amount := 100000, isPaid := true },
   { id := 2, subscriptionId := 2, amount := 200000, isPaid := true }]
  vms := [{ id := 1, hostId := 1, subscriptionLineItemId := 1, refCode := some "alice" },
   { id := 2, hostId := 1, subscriptionLineItemId := 2, refCode := some "bob" }]
  hosts := [{ id := 1 }]
  companies := [{ id := 0, referralRate := 10 }] }
 referrals := [{ id := 1, code := "alice", mode := .onChain }, { id := 2, code := "bob", mode := .onChain }]

def twoCommissions : List EligiblePayout :=
 [⟨{ id := 1, code := "alice", mode := .onChain }, 10000⟩, ⟨{ id := 2, code := "bob", mode := .onChain }, 20000⟩]

def tenthOnchain : PayoutConfig where
 minOnchainPayoutMsat := some 0
 maxOnchainFeePerVbyte := 5
 commission amount rate := (amount * rate / 100).floor.toNat

def walletDown : BatchAnswers where
 feeRate := some 2
 insertFails _ := false
 broadcast := none
 updateFails _ := false

/-- The wallet refuses the batch, and both balances are payable again. -/
theorem failed_batch_iff_wallet_down :
  (sendBatch tenthOnchain walletDown twoReferrers twoCommissions).1.nextId = 3 ∧
   ∀ referral minOnchainMsat,
    payableOnchainMsat tenthOnchain (sendBatch tenthOnchain walletDown twoReferrers twoCommissions).1 referral
     minOnchainMsat = payableOnchainMsat tenthOnchain twoReferrers referral minOnchainMsat :=
 ⟨rfl, ((failed_batch_iff tenthOnchain walletDown twoReferrers
  (sendBatch tenthOnchain walletDown twoReferrers twoCommissions).1 twoCommissions .sendCoins
  (fun _ hp => absurd hp not_mem_nil) rfl).mpr nofun).2⟩

/-- The second insert fails: the call returns an error, the first reservation stays unpaid, and the ten satoshi of the
first referrer are not payable any more. -/
theorem reservation_left_behind :
  ∃ a t', sendBatch tenthOnchain a twoReferrers twoCommissions = (t', .error .insert) ∧
   (∃ p ∈ t'.payouts, twoReferrers.nextId ≤ p.id ∧ p.isPaid = false) ∧
   payableOnchainMsat tenthOnchain twoReferrers { id := 1, code := "alice", mode := .onChain } 0 = some 10000 ∧
   payableOnchainMsat tenthOnchain t' { id := 1, code := "alice", mode := .onChain } 0 = none := by
 refine ⟨{ walletDown with insertFails := fun k => k = 1 }, _, rfl, ⟨_, mem_singleton_self _, ?_, rfl⟩, ?_, ?_⟩
 · exact le_refl 1
 · decide +kernel
 · decide +kernel

end Lnvps
