import Lnvps.ByAmount
import Lnvps.Exchange

/-! # Proration -/

namespace Lnvps

open Table Outcome

namespace PricingEngine

def prorated (cost interval seconds : Nat) : Nat :=
 if interval = 0 then if cost = 0 ∨ seconds = 0 then 0 else 2 ^ 64 - 1
 else min ⌊f64 (f64 seconds * f64 (f64 cost / f64 interval))⌋₊ (2 ^ 64 - 1)

structure RemainingTimeInfo where
 secondsRemaining : Nat
 renewalCost : Currency × Nat
 renewalPeriodSeconds : Nat
 costPerSecond : Option ℚ
 proratedCost : Currency × Nat

def getRemainingTimeInfoFromDate (text : IpText) (u : CustomDb) (vmId : Nat) (fromDate : Int) :
    Except PricingError RemainingTimeInfo := do
  let vm ← ofOption .passedOn (u.db.getVm vmId)
  ensure (!vm.deleted) (.check "Can't calculate for deleted VM")
  let vmExpires ← ofOption (.check "VM subscription has no expiry date") (vmSubscriptionExpires u.db vm)
  ensure (fromDate < vmExpires) (.check "Can't calculate for expired VM from the specified date")
  let (currency, currentCost, currentTimeValue) ← ofOption .passedOn (currentCost text u vm)
  let secondsRemaining := secondsBetween fromDate vmExpires
  .ok {
    secondsRemaining
    renewalCost := (currency, currentCost)
    renewalPeriodSeconds := currentTimeValue
    costPerSecond := if currentTimeValue = 0 then none else some (f64 (f64 currentCost / f64 currentTimeValue))
    proratedCost := (currency, prorated currentCost currentTimeValue secondsRemaining) }

def calculateVmRefundAmountFromDate (text : IpText) (mk : Market) (u : CustomDb) (vmId : Nat) (method : PaymentMethod)
    (fromDate : Int) : Except PricingError (Currency × Nat × ℚ) := do
  let remainingInfo ← getRemainingTimeInfoFromDate text u vmId fromDate
  ofOption .passedOn (getAmountAndRate mk remainingInfo.proratedCost.1 remainingInfo.proratedCost.2 method)

section Prorated

variable {cost interval seconds seconds' : Nat}

theorem prorated_zero (cost interval : Nat) : prorated cost interval 0 = 0 := by
 unfold prorated
 split
 · simp
 · simp [f64_zero]

theorem prorated_mono (h : seconds ≤ seconds') : prorated cost interval seconds ≤ prorated cost interval seconds' := by
 unfold prorated
 split
 · split <;> split <;> omega
 have hcast : (seconds : ℚ) ≤ seconds' := by exact_mod_cast h
 have hprice : 0 ≤ f64 (f64 cost / f64 interval) :=
  f64_nonneg (div_nonneg (f64_nonneg (Nat.cast_nonneg _)) (f64_nonneg (Nat.cast_nonneg _)))
 have hseconds : 0 ≤ f64 seconds := f64_nonneg (Nat.cast_nonneg _)
 have hmul : f64 seconds * f64 (f64 cost / f64 interval) ≤ f64 seconds' * f64 (f64 cost / f64 interval) :=
  mul_le_mul_of_nonneg_right (f64_mono (Nat.cast_nonneg _) hcast) hprice
 have hfloor := Nat.floor_mono (f64_mono (mul_nonneg hseconds hprice) hmul)
 omega

theorem f64_product_near (hcost : cost < 2 ^ 51) (hinterval : interval < 2 ^ 53) (hseconds : seconds < 2 ^ 53)
    (hpos : interval ≠ 0) :
    f64 (f64 seconds * f64 (f64 cost / f64 interval)) ≤ seconds * cost / interval * (1 + 1 / 2 ^ 53) ^ 2 ∧
      seconds * cost / interval * (1 - 1 / 2 ^ 53) ^ 2 ≤ f64 (f64 seconds * f64 (f64 cost / f64 interval)) := by
  rw [f64_natCast hinterval, f64_natCast hseconds, f64_natCast (lt_trans hcost (by norm_num))]
  have hquot : 0 ≤ (cost : ℚ) / interval := by positivity
  have hmul : 0 ≤ (seconds : ℚ) * f64 (cost / interval) := mul_nonneg (Nat.cast_nonneg _) (f64_nonneg hquot)
  constructor
  · calc f64 (seconds * f64 (cost / interval)) ≤ seconds * f64 (cost / interval) * (1 + 1 / 2 ^ 53) := f64_le hmul
      _ ≤ seconds * (cost / interval * (1 + 1 / 2 ^ 53)) * (1 + 1 / 2 ^ 53) := by
        gcongr
        exact f64_le hquot
      _ = seconds * cost / interval * (1 + 1 / 2 ^ 53) ^ 2 := by ring
  · calc (seconds : ℚ) * cost / interval * (1 - 1 / 2 ^ 53) ^ 2 =
          seconds * (cost / interval * (1 - 1 / 2 ^ 53)) * (1 - 1 / 2 ^ 53) := by ring
      _ ≤ seconds * f64 (cost / interval) * (1 - 1 / 2 ^ 53) := by
        gcongr
        exact le_f64 hquot
      _ ≤ f64 (seconds * f64 (cost / interval)) := le_f64 hmul

theorem prorated_le_of_le (hcost : cost < 2 ^ 51) (hinterval : interval < 2 ^ 53) (h : seconds ≤ interval) :
  prorated cost interval seconds ≤ cost := by
 refine (prorated_mono h).trans ?_
 unfold prorated
 split
 · rename_i hzero
   simp [hzero]
 rename_i hpos
 have hnear := (f64_product_near hcost hinterval hinterval hpos).1
 have hcancel : (interval : ℚ) * cost / interval = cost := by
  have hne : (interval : ℚ) ≠ 0 := by exact_mod_cast hpos
  field_simp
 have hlt : (cost : ℚ) < 2 ^ 51 := by exact_mod_cast hcost
 have hprice : f64 (f64 interval * f64 (f64 cost / f64 interval)) < cost + 1 := by
  rw [hcancel] at hnear
  refine lt_of_le_of_lt hnear ?_
  nlinarith
 refine (Nat.min_le_left _ _).trans (Nat.lt_succ_iff.mp ((Nat.floor_lt' (by omega)).mpr ?_))
 exact_mod_cast hprice

theorem prorated_le_iff_lt (hcost : cost < 2 ^ 51) (hpos : interval ≠ 0) :
  prorated cost interval seconds ≤ cost ↔ f64 (f64 seconds * f64 (f64 cost / f64 interval)) < cost + 1 := by
 rw [prorated, if_neg hpos]
 have hfloor : ⌊f64 (f64 seconds * f64 (f64 cost / f64 interval))⌋₊ < cost + 1 ↔
   f64 (f64 seconds * f64 (f64 cost / f64 interval)) < (cost + 1 : Nat) := Nat.floor_lt' (by omega)
 push_cast at hfloor
 rw [← hfloor]
 omega

theorem prorated_le_iff {days nominalDays : Nat} (hcost : cost < 2 ^ 51) (hnominal : nominalDays < 2 ^ 17)
  (hdays : days ≤ 2 * nominalDays) :
  prorated cost (86400 * nominalDays) (86400 * days) ≤ cost ↔ cost * days < (cost + 1) * nominalDays ∨
   cost * days = (cost + 1) * nominalDays ∧
    f64 ((86400 * days : Nat) * f64 (cost / (86400 * nominalDays : Nat))) < cost + 1 := by
 rcases Nat.eq_zero_or_pos nominalDays with rfl | hpos
 · obtain rfl : days = 0 := by omega
   have hone : (0 : ℚ) < cost + 1 := by positivity
   simp [prorated_zero, f64_zero, hone]
 rw [prorated_le_iff_lt hcost (by omega)]
 obtain ⟨hhi, hlo⟩ := f64_product_near hcost (by omega : 86400 * nominalDays < 2 ^ 53)
  (by omega : 86400 * days < 2 ^ 53) (by omega)
 have hvalue : ((86400 * days : Nat) : ℚ) * cost / (86400 * nominalDays : Nat) = (cost * days : Nat) / nominalDays := by
  have hne : (nominalDays : ℚ) ≠ 0 := by exact_mod_cast hpos.ne'
  push_cast
  field_simp
 have hbelow : (0 : ℚ) < nominalDays := by exact_mod_cast hpos
 have hprice : ((cost : ℚ) + 1) * nominalDays = ((cost + 1) * nominalDays : Nat) := by push_cast; ring
 rw [hvalue] at hhi hlo
 rcases lt_trichotomy (cost * days) ((cost + 1) * nominalDays) with hlt | heq | hgt
 · simp only [hlt, true_or, iff_true]
   rcases le_or_gt days nominalDays with hle | hlong
   · rw [← prorated_le_iff_lt hcost (by omega)]
     exact prorated_le_of_le hcost (by omega) (by omega)
   have hsmall : cost * days < 2 ^ 35 := by nlinarith
   have hcast : ((cost * days : Nat) : ℚ) + 1 ≤ ((cost + 1) * nominalDays : Nat) := by exact_mod_cast hlt
   have hcast' : ((cost * days : Nat) : ℚ) < 2 ^ 35 := by exact_mod_cast hsmall
   refine lt_of_le_of_lt hhi ?_
   rw [div_mul_eq_mul_div, div_lt_iff₀ hbelow, hprice]
   linarith
 · simp only [heq, lt_irrefl, false_or, true_and]
   rw [f64_natCast (by omega : 86400 * days < 2 ^ 53), f64_natCast (by omega : 86400 * nominalDays < 2 ^ 53),
    f64_natCast (lt_trans hcost (by norm_num))]
 · simp only [not_lt.mpr hgt.le, hgt.ne', false_and, or_self, iff_false, not_lt]
   refine le_trans ?_ hlo
   rw [div_mul_eq_mul_div, le_div_iff₀ hbelow, hprice]
   have hlong : nominalDays < days := by nlinarith
   have hmargin : (cost * days : Nat) * (2 / 2 ^ 53) ≤ ((cost * days : Nat) - ((cost + 1) * nominalDays : Nat) : ℚ) := by
    rcases Nat.lt_or_ge cost (2 * nominalDays) with hsmall | hlarge
    · have hbound : cost * days < 2 ^ 36 := by nlinarith
      have hcast : (((cost + 1) * nominalDays : Nat) : ℚ) + 1 ≤ (cost * days : Nat) := by exact_mod_cast hgt
      have hcast' : ((cost * days : Nat) : ℚ) < 2 ^ 36 := by exact_mod_cast hbound
      linarith
    have hgap : cost * days ≥ (cost + 1) * nominalDays + (cost - nominalDays) := by
     have hmul : cost * (nominalDays + 1) ≤ cost * days := Nat.mul_le_mul_left _ hlong
     rw [Nat.mul_succ] at hmul
     rw [Nat.succ_mul]
     omega
    have hbound : cost * days ≤ cost * 2 ^ 18 := Nat.mul_le_mul_left _ (by omega)
    have hcast : (((cost + 1) * nominalDays : Nat) : ℚ) + (cost - nominalDays : Nat) ≤ (cost * days : Nat) := by
     exact_mod_cast hgap
    have hhalf : (cost : ℚ) ≤ 2 * (cost - nominalDays : Nat) := by exact_mod_cast (by omega)
    have hcast' : ((cost * days : Nat) : ℚ) ≤ cost * 2 ^ 18 := by exact_mod_cast hbound
    have hcost0 : (0 : ℚ) ≤ cost := Nat.cast_nonneg _
    linarith
   have hnonneg : (0 : ℚ) ≤ (cost * days : Nat) := Nat.cast_nonneg _
   linarith

end Prorated

def purchasedUntil (plan : VmCostPlan) (s : Int) : Int := s + nextTemplateExpire s s plan * second

def RenewedAt (u : CustomDb) (vmId : Nat) (plan : VmCostPlan) (s : Int) : Prop :=
 ∃ vm templateId template, u.db.getVm vmId = some vm ∧ vm.deleted = false ∧ vm.templateId = some templateId ∧
  u.db.getVmTemplate templateId = some template ∧ u.db.getCostPlan template.costPlanId = some plan ∧
  vmSubscriptionExpires u.db vm = some (purchasedUntil plan s)

structure WithinPrice (text : IpText) (mk : Market) (u : CustomDb) (vmId : Nat) (method : PaymentMethod)
    (plan : VmCostPlan) (s : Int) : Prop where
  cost : ∀ q info, s ≤ q → getRemainingTimeInfoFromDate text u vmId q = .ok info → info.proratedCost.2 ≤ plan.amount
  refund : ∀ q currency amount rate, s ≤ q →
    calculateVmRefundAmountFromDate text mk u vmId method q = .ok (currency, amount, rate) →
    ∃ price, getAmountAndRate mk plan.currency plan.amount method = some (currency, price, rate) ∧ amount ≤ price
  costAtEnd : ∀ q info, purchasedUntil plan s - second < q → getRemainingTimeInfoFromDate text u vmId q = .ok info →
    info.proratedCost.2 = 0
  refundAtEnd : ∀ q currency amount rate, purchasedUntil plan s - second < q →
    calculateVmRefundAmountFromDate text mk u vmId method q = .ok (currency, amount, rate) → amount = 0
  costFalls : ∀ q q' info info', q ≤ q' → getRemainingTimeInfoFromDate text u vmId q = .ok info →
    getRemainingTimeInfoFromDate text u vmId q' = .ok info' → info'.proratedCost.2 ≤ info.proratedCost.2
  refundFalls : ∀ q q' currency amount rate currency' amount' rate', q ≤ q' →
    calculateVmRefundAmountFromDate text mk u vmId method q = .ok (currency, amount, rate) →
    calculateVmRefundAmountFromDate text mk u vmId method q' = .ok (currency', amount', rate') → amount' ≤ amount

section Renewed

variable {text : IpText} {mk : Market} {getRate : Ticker → Option ℚ} {u : CustomDb} {vmId : Nat}
 {method : PaymentMethod} {plan : VmCostPlan} {s q : Int}

abbrev nominalSeconds (plan : VmCostPlan) : Nat := costPlanIntervalToSeconds plan.intervalType plan.intervalAmount

def purchasedDays (plan : VmCostPlan) (s : Int) : Nat := (plan.span.nextDay (s / day) - s / day).toNat

def nominalDays (plan : VmCostPlan) : Nat :=
 (match plan.intervalType with
  | .day => 1
  | .month => 30
  | .year => 365) * plan.intervalAmount

theorem nominalSeconds_eq (plan : VmCostPlan) : nominalSeconds plan = 86400 * nominalDays plan := by
 unfold nominalSeconds costPlanIntervalToSeconds nominalDays
 cases plan.intervalType <;> ring

theorem nextTemplateExpire_eq (plan : VmCostPlan) (s : Int) :
  nextTemplateExpire s s plan = 86400 * purchasedDays plan s := by
 have hle := plan.span.le_nextDay (s / day)
 unfold nextTemplateExpire secondsBetween purchasedDays Calendar.Span.next
 rw [max_self]
 dsimp only
 rw [show s + day * (plan.span.nextDay (s / day) - s / day) - s =
  86400 * (plan.span.nextDay (s / day) - s / day) * second by unfold day; ring, Int.mul_tdiv_cancel _ (by decide)]
 omega

theorem purchasedDays_le (h : nominalDays plan < 2 ^ 17) (s : Int) : purchasedDays plan s ≤ 2 * nominalDays plan := by
 unfold nominalDays at h ⊢
 unfold purchasedDays VmCostPlan.span
 cases hty : plan.intervalType with
 | day =>
  simp only [hty, Calendar.Span.nextDay] at h ⊢
  omega
 | month =>
  simp only [hty, Calendar.Span.nextDay] at h ⊢
  have := (Calendar.addMonthsDay_bounds (s / day) (plan.intervalAmount % 2 ^ 32)).2
  omega
 | year =>
  simp only [hty, Calendar.Span.nextDay] at h ⊢
  have := (Calendar.addMonthsDay_bounds (s / day) (12 * plan.intervalAmount)).2
  rw [Nat.mod_eq_of_lt (show 12 * plan.intervalAmount < 2 ^ 32 by omega)]
  omega

theorem getRemainingTimeInfoFromDate_eq (h : RenewedAt u vmId plan s) :
    getRemainingTimeInfoFromDate text u vmId q =
      if q < purchasedUntil plan s then .ok {
        secondsRemaining := secondsBetween q (purchasedUntil plan s)
        renewalCost := (plan.currency, plan.amount)
        renewalPeriodSeconds := nominalSeconds plan
        costPerSecond := if nominalSeconds plan = 0 then none
          else some (f64 (f64 plan.amount / f64 (nominalSeconds plan)))
        proratedCost := (plan.currency,
          prorated plan.amount (nominalSeconds plan) (secondsBetween q (purchasedUntil plan s))) }
      else .error (.check "Can't calculate for expired VM from the specified date") := by
  obtain ⟨vm, templateId, template, hvm, hdeleted, htemplate, hrow, hplan, hexpires⟩ := h
  have hcost : currentCost text u vm = some (plan.currency, plan.amount, nominalSeconds plan) := by
    simp [currentCost, htemplate, hrow, hplan]
  unfold getRemainingTimeInfoFromDate
  simp only [hvm, hdeleted, hexpires, hcost, ofOption, ensure, Bool.not_false, if_true, bind, Except.bind]
  by_cases hq : q < purchasedUntil plan s
  · simp [hq]
  · simp [hq]

theorem secondsBetween_anti {q q' e : Int} (h : q ≤ q') : secondsBetween q' e ≤ secondsBetween q e := by
 unfold secondsBetween
 exact Int.toNat_le_toNat (Int.tdiv_le_tdiv (by decide) (by omega))

theorem secondsBetween_purchasedUntil (plan : VmCostPlan) (s : Int) :
  secondsBetween s (purchasedUntil plan s) = nextTemplateExpire s s plan := by
 unfold secondsBetween purchasedUntil
 rw [show s + (nextTemplateExpire s s plan : Int) * second - s = nextTemplateExpire s s plan * second by ring,
  Int.mul_tdiv_cancel _ (by decide), Int.toNat_natCast]

theorem proratedCost_of_ok (h : RenewedAt u vmId plan s) {info : RemainingTimeInfo}
  (hinfo : getRemainingTimeInfoFromDate text u vmId q = .ok info) : info.proratedCost = (plan.currency,
   prorated plan.amount (nominalSeconds plan) (secondsBetween q (purchasedUntil plan s))) := by
 rw [getRemainingTimeInfoFromDate_eq h] at hinfo
 split at hinfo
 · rw [← Except.ok.inj hinfo]
 · cases hinfo

theorem refund_of_ok (h : RenewedAt u vmId plan s) {refund : Currency × Nat × ℚ}
    (hrefund : calculateVmRefundAmountFromDate text mk u vmId method q = .ok refund) :
    getAmountAndRate mk plan.currency
      (prorated plan.amount (nominalSeconds plan) (secondsBetween q (purchasedUntil plan s))) method = some refund := by
  obtain ⟨info, hinfo, hrefund⟩ := bind_eq_ok.mp hrefund
  rw [ofOption_eq_ok, proratedCost_of_ok h hinfo] at hrefund
  exact hrefund

theorem secondsBetween_last {q e : Int} (hq : e - second < q) : secondsBetween q e = 0 := by
 unfold secondsBetween
 rw [Int.toNat_eq_zero]
 rcases le_total 0 (e - q) with hpos | hneg
 · rw [Int.tdiv_eq_zero_of_lt hpos (by omega)]
 · exact (Int.tdiv_le_tdiv (by decide) hneg).trans_eq (Int.zero_tdiv _)

def expiredError {α : Type} : Except PricingError α :=
  .error (.check "Can't calculate for expired VM from the specified date")

theorem withinPrice_iff (h : RenewedAt u vmId plan s) :
  WithinPrice text (mk.withTickers getRate) u vmId method plan s ↔
   prorated plan.amount (nominalSeconds plan) (nextTemplateExpire s s plan) ≤ plan.amount := by
 refine ⟨fun hwithin => ?_, fun hstart => ?_⟩
 · by_cases hlong : s < purchasedUntil plan s
   · obtain ⟨info, hinfo⟩ : ∃ info, getRemainingTimeInfoFromDate text u vmId s = .ok info := by
      rw [getRemainingTimeInfoFromDate_eq h, if_pos hlong]
      exact ⟨_, rfl⟩
     have hcost := hwithin.cost s info le_rfl hinfo
     rw [proratedCost_of_ok h hinfo, secondsBetween_purchasedUntil] at hcost
     exact hcost
   · have hzero := secondsBetween_last (q := s) (e := purchasedUntil plan s) (by unfold second; omega)
     rw [secondsBetween_purchasedUntil] at hzero
     rw [hzero, prorated_zero]
     exact Nat.zero_le _
 · have hfrom : ∀ q, s ≤ q → prorated plan.amount (nominalSeconds plan)
     (secondsBetween q (purchasedUntil plan s)) ≤ plan.amount := by
    intro q hq
    refine (prorated_mono (secondsBetween_anti hq)).trans ?_
    rw [secondsBetween_purchasedUntil]
    exact hstart
   constructor
   · intro q info hq hinfo
     rw [proratedCost_of_ok h hinfo]
     exact hfrom q hq
   · intro q currency amount rate hq hrefund
     exact getAmountAndRate_mono (hfrom q hq) (refund_of_ok h hrefund)
   · intro q info hq hinfo
     rw [proratedCost_of_ok h hinfo, secondsBetween_last hq, prorated_zero]
   · intro q currency amount rate hq hrefund
     have hamount := refund_of_ok h hrefund
     rw [secondsBetween_last hq, prorated_zero] at hamount
     exact getAmountAndRate_zero hamount
   · intro q q' info info' hq hinfo hinfo'
     rw [proratedCost_of_ok h hinfo, proratedCost_of_ok h hinfo']
     exact prorated_mono (secondsBetween_anti hq)
   · intro q q' currency amount rate currency' amount' rate' hq hrefund hrefund'
     obtain ⟨y, hy, hle⟩ :=
      getAmountAndRate_mono (prorated_mono (secondsBetween_anti hq)) (refund_of_ok h hrefund')
     rw [refund_of_ok h hrefund] at hy
     cases hy
     exact hle

end Renewed

theorem proration_iff (text : IpText) (mk : Market) (getRate : Ticker → Option ℚ) (u : CustomDb) (vmId : Nat)
    (method : PaymentMethod) (plan : VmCostPlan) (s : Int) (h : RenewedAt u vmId plan s)
    (hamount : plan.amount < 2 ^ 51) (hdays : nominalDays plan < 2 ^ 17) :
    (∀ q, q < purchasedUntil plan s → ∃ info, getRemainingTimeInfoFromDate text u vmId q = .ok info) ∧
      (∀ q, purchasedUntil plan s ≤ q → getRemainingTimeInfoFromDate text u vmId q = expiredError ∧
        calculateVmRefundAmountFromDate text (mk.withTickers getRate) u vmId method q = expiredError) ∧
      (WithinPrice text (mk.withTickers getRate) u vmId method plan s ↔
        plan.amount * purchasedDays plan s < (plan.amount + 1) * nominalDays plan ∨
          plan.amount * purchasedDays plan s = (plan.amount + 1) * nominalDays plan ∧
            f64 ((86400 * purchasedDays plan s : Nat) * f64 (plan.amount / (86400 * nominalDays plan : Nat))) <
              plan.amount + 1) := by
  refine ⟨fun q hq => ?_, fun q hq => ?_, ?_⟩
  · rw [getRemainingTimeInfoFromDate_eq h, if_pos hq]
    exact ⟨_, rfl⟩
  · have herror : getRemainingTimeInfoFromDate text u vmId q = expiredError := by
      rw [getRemainingTimeInfoFromDate_eq h, if_neg (not_lt.mpr hq)]
      rfl
    refine ⟨herror, ?_⟩
    rw [calculateVmRefundAmountFromDate, herror]
    rfl
  · rw [withinPrice_iff h, nominalSeconds_eq, nextTemplateExpire_eq]
    exact prorated_le_iff hamount hdays (purchasedDays_le hdays s)

def untilFebruary (ty : IntervalType) : CustomDb := { db := paidUntilFebruary ty }

/-- Renewed on 31 January for a day. -/
theorem proration_iff_day : WithinPrice Provisioning.plainText (flatMarket.withTickers fun _ => some 100000)
  (untilFebruary .day) 1 .lightning { id := 1, amount := 500, intervalType := .day } (20119 * day) := by
 have hrenewed : RenewedAt (untilFebruary .day) 1 { id := 1, amount := 500, intervalType := .day } (20119 * day) :=
  ⟨_, _, _, rfl, rfl, rfl, rfl, rfl, by decide⟩
 exact (proration_iff Provisioning.plainText flatMarket (fun _ => some 100000) (untilFebruary .day) 1 .lightning
  { id := 1, amount := 500, intervalType := .day } (20119 * day) hrenewed (by norm_num) (by decide)).2.2.mpr
  (.inl (by decide))

/-- Renewed on 1 January for a month: the 31 days that remain are worth 516 cents of the 500 that were paid. And on 1
February, when the month ends, there is an error. -/
theorem january_worth_more : ∃ info,
  RenewedAt (untilFebruary .month) 1 { id := 1, amount := 500, intervalType := .month } (20089 * day) ∧
   getRemainingTimeInfoFromDate Provisioning.plainText (untilFebruary .month) 1 (20089 * day) = .ok info ∧
   info.renewalCost.2 = 500 ∧ info.proratedCost.2 = 516 ∧
   getRemainingTimeInfoFromDate Provisioning.plainText (untilFebruary .month) 1 (20120 * day) = expiredError := by
 refine ⟨_, ⟨_, _, _, rfl, rfl, rfl, rfl, rfl, by decide⟩, rfl, rfl, by decide +kernel, rfl⟩

end PricingEngine

end Lnvps
