import Lnvps.Ledger
import Lnvps.Lib.Rounding

/-! # The pricing engine -/

namespace Lnvps

open Table List Option Db

structure Market where
 toBtc : Currency → Nat → Option (Nat × Rat)
 convertCurrency : Currency → Nat → Currency → Option Nat
 determineTax : (userId amount companyId : Nat) → Option Nat
 customVmPrice : (vmId templateId : Nat) → Option (Currency × Nat)

def roundMsatToSat (msat : Nat) : Nat := (msat + 999) / 1000 * 1000

def getAmountAndRate (mk : Market) (currency : Currency) (amount : Nat) (method : PaymentMethod) :
  Option (Currency × Nat × Rat) :=
 match method with
 | .lightning | .onChain =>
  if currency = .btc then some (.btc, roundMsatToSat amount, 1)
  else do
   let (msat, rate) ← mk.toBtc currency amount
   some (.btc, roundMsatToSat msat, rate)
 | .revolut => if currency = .btc then none else some (currency, amount, 1)
 | .paypal | .stripe => none

def f64 (x : ℚ) : ℚ := Rounding.nearest 53 x

def processingFeeParams (rnd : ℚ → ℚ) (mk : Market) (db : Db) (companyId : Nat) (method : PaymentMethod)
  (currency : Currency) : ℚ × Nat :=
 if method = .lightning then (0, 0)
 else
  match db.getPaymentMethodConfigForCompany companyId method with
  | none => (0, 0)
  | some config =>
   match config.enabled, config.processingFeeRate, config.processingFeeBase with
   | true, some rate, some base =>
    let baseCurrency := config.processingFeeCurrency.getD currency
    let baseRaw := if baseCurrency = currency then base
     else (mk.convertCurrency baseCurrency base currency).getD base
    (rnd (rate / 100), baseRaw)
   | _, _, _ => (0, 0)

def ceilU64 (rnd : ℚ → ℚ) (x y : ℚ) : Nat :=
 if y = 0 then if x = 0 then 0 else 2 ^ 64 - 1
 else min ⌈rnd (x / y)⌉₊ (2 ^ 64 - 1)

def calculateProcessingFee (rnd : ℚ → ℚ) (mk : Market) (db : Db) (companyId : Nat) (method : PaymentMethod)
    (currency : Currency) (amount : Nat) : Nat :=
  let (rateFraction, baseRaw) := processingFeeParams rnd mk db companyId method currency
  if rateFraction ≤ 0 ∧ baseRaw = 0 then 0
  else
    let percentageFee := ceilU64 rnd (rnd (rnd amount * rateFraction)) (rnd (1 - rateFraction))
    let baseFee := if 0 < rateFraction then ceilU64 rnd (rnd baseRaw) (rnd (1 - rateFraction)) else baseRaw
    (percentageFee + baseFee) % 2 ^ 64

def enforceMinAmount (mk : Market) (db : Db) (companyId : Nat) (method : PaymentMethod) (currency : Currency)
  (gross : Nat) : Bool :=
 method = .lightning ||
  match db.getPaymentMethodConfigForCompany companyId method with
  | none => true
  | some config =>
   match config.minAmount, config.minAmountCurrency with
   | some minRaw, some minCurrency => minRaw = 0 ||
     (if minCurrency = currency then some minRaw else mk.convertCurrency minCurrency minRaw currency).any
      (· ≤ gross)
   | _, _ => true

def vmSubscriptionExpires (db : Db) (vm : Vm) : Option Int := do
 let sub ← db.getSubscriptionByLineItemId vm.subscriptionLineItemId
 sub.expires

def VmCostPlan.span (plan : VmCostPlan) : Calendar.Span :=
 match plan.intervalType with
 | .day => .days plan.intervalAmount
 | .month => .months (plan.intervalAmount % 2 ^ 32)
 | .year => .months (12 * plan.intervalAmount % 2 ^ 32)

def secondsBetween (t₁ t₂ : Int) : Nat := ((t₂ - t₁).tdiv second).toNat

def nextTemplateExpire (now baseExpiry : Int) (plan : VmCostPlan) : Nat :=
 let base := max baseExpiry now
 secondsBetween base (plan.span.next day base)

def priceInterval (mk : Market) (db : Db) (vm : Vm) (method : PaymentMethod) (companyId : Nat) (currency : Currency)
    (price : Nat) (base : Int) (timeValue : Nat) : Option NewPaymentInfo := do
  let (currency, amount, rate) ← getAmountAndRate mk currency price method
  let tax ← mk.determineTax vm.userId amount companyId
  some {
    amount, currency, rate, timeValue, tax
    newExpiry := base + timeValue * second
    processingFee := calculateProcessingFee f64 mk db companyId method currency (amount + tax) }

def getTemplateVmCost (mk : Market) (db : Db) (now : Int) (vm : Vm) (method : PaymentMethod) (companyId : Nat) :
  Option NewPaymentInfo := do
 let templateId ← vm.templateId
 let template ← db.getVmTemplate templateId
 let plan ← db.getCostPlan template.costPlanId
 let vmExpires := (vmSubscriptionExpires db vm).getD now
 priceInterval mk db vm method companyId plan.currency plan.amount (max vmExpires now)
  (nextTemplateExpire now vmExpires plan)

def getCustomVmCost (mk : Market) (db : Db) (now : Int) (vm : Vm) (method : PaymentMethod) (companyId : Nat) :
  Option NewPaymentInfo := do
 let templateId ← vm.customTemplateId
 let (currency, price) ← mk.customVmPrice vm.id templateId
 let base := max ((vmSubscriptionExpires db vm).getD now) now
 priceInterval mk db vm method companyId currency price base
  (secondsBetween base ((Calendar.Span.months 1).next day base))

def getVmBaseCost (mk : Market) (db : Db) (now : Int) (vm : Vm) (method : PaymentMethod) (companyId : Nat) :
  Option NewPaymentInfo :=
 if vm.templateId.isSome then getTemplateVmCost mk db now vm method companyId
 else getCustomVmCost mk db now vm method companyId

def scaleCost (mk : Market) (db : Db) (vm : Vm) (method : PaymentMethod) (companyId intervals : Nat) (base : Int)
    (cost : NewPaymentInfo) : Option NewPaymentInfo := do
  let amount := cost.amount * intervals
  let timeValue := cost.timeValue * intervals
  let tax ← mk.determineTax vm.userId amount companyId
  some { cost with
    amount, timeValue, tax
    newExpiry := base + timeValue * second
    processingFee := calculateProcessingFee f64 mk db companyId method cost.currency (amount + tax) }

def getVmCostForIntervals (mk : Market) (db : Db) (now : Int) (vmId : Nat) (method : PaymentMethod)
  (intervals : Nat) : Option CostResult := do
 let intervals := max intervals 1
 let vm ← db.getVm vmId
 let companyId ← db.getVmCompanyId vmId
 let baseCost ← getVmBaseCost mk db now vm method companyId
 let requestedTime := baseCost.timeValue * intervals
 match (db.listPendingVmSubscriptionPayments now vm.id).find? fun p =>
   p.paymentMethod = method ∧ p.paymentType = .renewal ∧ p.timeValue = some requestedTime with
 | some px => some (.existing px)
 | none =>
  if intervals = 1 then some (.new baseCost)
  else do
   let base := max ((vmSubscriptionExpires db vm).getD now) now
   let cost ← scaleCost mk db vm method companyId intervals base baseCost
   some (.new cost)

def vmSpan (db : Db) (vm : Vm) : Option Calendar.Span :=
 if vm.templateId.isSome then do
  let templateId ← vm.templateId
  let template ← db.getVmTemplate templateId
  let plan ← db.getCostPlan template.costPlanId
  some plan.span
 else vm.customTemplateId.map fun _ => .months 1

def quoteBase (now : Int) (expires : Option Int) : Int := max (expires.getD now) now

variable (span : Calendar.Span)

def quotedSeconds (now : Int) (expires : Option Int) : Nat :=
 secondsBetween (quoteBase now expires) (span.next day (quoteBase now expires))

section Quotes

variable {mk : Market} {db : Db} {now : Int} {vm : Vm} {method : PaymentMethod} {companyId vmId k : Nat}
 {info : NewPaymentInfo}

private theorem priceInterval_time {currency : Currency} {price timeValue : Nat} {base : Int}
  (h : priceInterval mk db vm method companyId currency price base timeValue = some info) :
  info.timeValue = timeValue ∧ info.newExpiry = base + timeValue * second := by
 obtain ⟨⟨c, a, r⟩, -, h⟩ := bind_eq_some_iff.mp h
 obtain ⟨tax, -, h⟩ := bind_eq_some_iff.mp h
 cases h
 exact ⟨rfl, rfl⟩

theorem getVmBaseCost_time (h : getVmBaseCost mk db now vm method companyId = some info) :
  ∃ span, vmSpan db vm = some span ∧ info.timeValue = quotedSeconds span now (vmSubscriptionExpires db vm) ∧
   info.newExpiry = quoteBase now (vmSubscriptionExpires db vm) + info.timeValue * second := by
 unfold getVmBaseCost at h
 unfold vmSpan
 split at h
 · obtain ⟨tid, htid, h⟩ := bind_eq_some_iff.mp h
   obtain ⟨template, htmpl, h⟩ := bind_eq_some_iff.mp h
   obtain ⟨plan, hplan, h⟩ := bind_eq_some_iff.mp h
   obtain ⟨h1, h2⟩ := priceInterval_time h
   refine ⟨plan.span, by simp [htid, htmpl, hplan], ?_, by rw [h1]; exact h2⟩
   rw [h1, nextTemplateExpire, quotedSeconds, quoteBase]
 · rename_i hno
   obtain ⟨tid, htid, h⟩ := bind_eq_some_iff.mp h
   obtain ⟨⟨c, price⟩, -, h⟩ := bind_eq_some_iff.mp h
   obtain ⟨h1, h2⟩ := priceInterval_time h
   exact ⟨.months 1, by rw [if_neg hno, htid]; rfl, h1, by rw [h1]; exact h2⟩

theorem getVmCostForIntervals_time (h : getVmCostForIntervals mk db now vmId method k = some (.new info)) :
  ∃ vm span, db.getVm vmId = some vm ∧ vmSpan db vm = some span ∧
   info.timeValue = quotedSeconds span now (vmSubscriptionExpires db vm) * max k 1 ∧
   info.newExpiry = quoteBase now (vmSubscriptionExpires db vm) + info.timeValue * second := by
 obtain ⟨vm, hvm, h⟩ := bind_eq_some_iff.mp h
 obtain ⟨cid, -, h⟩ := bind_eq_some_iff.mp h
 obtain ⟨cost, hcost, h⟩ := bind_eq_some_iff.mp h
 obtain ⟨span, hspan, htime, hexp⟩ := getVmBaseCost_time hcost
 refine ⟨vm, span, hvm, hspan, ?_⟩
 dsimp only at h
 split at h
 · cases h
 split at h
 · rename_i hone
   obtain rfl := CostResult.new.inj (Option.some.inj h)
   rw [hone, Nat.mul_one]
   exact ⟨htime, hexp⟩
 obtain ⟨scaled, hs, h⟩ := bind_eq_some_iff.mp h
 obtain rfl := CostResult.new.inj (Option.some.inj h)
 obtain ⟨tax, -, hs⟩ := bind_eq_some_iff.mp hs
 cases hs
 rw [← htime]
 exact ⟨rfl, rfl⟩

end Quotes

theorem quoteBase_div_second (now : Int) (expires : Option Int) :
  quoteBase now expires / second = extensionBase now expires / second := by
 have h1 := sqlNow_le now
 have h2 : sqlNow now / second = now / second := by
  unfold sqlNow
  rw [Int.mul_ediv_cancel _ (by decide)]
 unfold quoteBase extensionBase
 rcases expires with _ | e
 · simp [h2]
 simp only [getD_some]
 rcases le_total e now with he | he
 · have hle : max e (sqlNow now) ≤ now := max_le he h1
   have hlo : sqlNow now ≤ max e (sqlNow now) := le_max_right _ _
   rw [max_eq_right he]
   refine le_antisymm ?_ (Int.ediv_le_ediv (by decide) hle)
   rw [← h2]
   exact Int.ediv_le_ediv (by decide) hlo
 · rw [max_eq_left he, max_eq_left (h1.trans he)]

theorem div_day_of_div_second {t₁ t₂ : Int} (h : t₁ / second = t₂ / second) : t₁ / day = t₂ / day := by
 unfold day second at *
 omega

theorem quotedSeconds_eq (now : Int) (expires : Option Int) :
  (quotedSeconds span now expires : Int) * second =
   day * (span.nextDay (extensionBase now expires / day) - extensionBase now expires / day) := by
 have hday := div_day_of_div_second (quoteBase_div_second now expires)
 have hle := Int.sub_nonneg_of_le (span.le_nextDay (extensionBase now expires / day))
 unfold quotedSeconds secondsBetween Calendar.Span.next
 rw [hday]
 generalize span.nextDay (extensionBase now expires / day) - extensionBase now expires / day = x at *
 have hsplit : quoteBase now expires + day * x - quoteBase now expires = second * (86400 * x) := by
  unfold day
  ring
 rw [hsplit, Int.mul_tdiv_cancel_left _ (by decide), Int.toNat_of_nonneg (by omega)]
 unfold day
 ring

theorem extensionBase_add_quoted (now : Int) (expires : Option Int) :
  extensionBase now expires + quotedSeconds span now expires * second =
   span.next day (extensionBase now expires) := by
 rw [quotedSeconds_eq, Calendar.Span.next]

def renewOnce (mk : Market) (db : Db) (now : Int) (vmId : Nat) (method : PaymentMethod) (newId : Nat) : Option Db := do
 let vm ← db.getVm vmId
 let sub ← db.getSubscriptionByLineItemId vm.subscriptionLineItemId
 match ← getVmCostForIntervals mk db now vmId method 1 with
 | .existing _ => none
 | .new info =>
  let payment : SubscriptionPayment := {
   id := newId
   subscriptionId := sub.id
   userId := vm.userId
   created := now
   expires := now + 600 * second
   amount := info.amount
   currency := info.currency
   paymentMethod := method
   rate := info.rate
   timeValue := some info.timeValue
   tax := info.tax
   processingFee := info.processingFee }
  let db' ← db.insertSubscriptionPayment payment
  db'.subscriptionPaymentPaid now payment

def renewTimes (mk : Market) (now : Int) (vmId : Nat) (method : PaymentMethod) : Db → List Nat → Option Db
 | db, [] => some db
 | db, newId :: ids => do
  let db' ← renewOnce mk db now vmId method newId
  renewTimes mk now vmId method db' ids

section Renewals

variable {mk : Market} {db db' : Db} {now : Int} {vm : Vm} {method : PaymentMethod} {vmId newId : Nat}
 {span : Calendar.Span}

def Billed (db : Db) (vmId : Nat) (span : Calendar.Span) (sid : Nat) (expires : Option Int) : Prop :=
 ∃ vm sub, db.getVm vmId = some vm ∧ vmSpan db vm = some span ∧
  db.getSubscriptionByLineItemId vm.subscriptionLineItemId = some sub ∧ sub.id = sid ∧ sub.expires = expires

variable {expires : Option Int} {sid : Nat}

theorem Billed.settle {payment : SubscriptionPayment} {timeValue : Nat}
  (hb : Billed db vmId span payment.subscriptionId expires)
  (hrow : ∃ r ∈ db.payments, r.id = payment.id ∧ r.isPaid = false) (htime : payment.timeValue = some timeValue)
  (h : db.subscriptionPaymentPaid now payment = some db') :
  Billed db' vmId span payment.subscriptionId (some (extensionBase now expires + timeValue * second)) := by
 obtain ⟨vm, sub, hvm, hspan, hget, hid, rfl⟩ := hb
 obtain ⟨r, hr, hrid, hunpaid⟩ := hrow
 rcases subscriptionPaymentPaid_cases h with ⟨-, hall⟩ | ⟨-, -, -, -, f, hf, rfl⟩
 · rw [hall r hr hrid] at hunpaid
   cases hunpaid
 obtain rfl : f = (· + timeValue * second) := by
  simp only [creditedTime, htime, Option.some.injEq] at hf
  exact hf.symm
 obtain ⟨deleted, hvm'⟩ := getVm_undeleteVms (db.markPaid now payment) payment.subscriptionId hvm
 obtain ⟨li, hli, hsub⟩ := bind_eq_some_iff.mp hget
 refine ⟨_, { sub with
  expires := some (extensionBase now sub.expires + timeValue * second), isActive := true, isSetup := true },
  hvm', hspan, ?_, hid, rfl⟩
 refine bind_eq_some_iff.mpr ⟨li, hli, ?_⟩
 rw [getSubscription_extendSubscription, show ((db.markPaid now payment).undeleteVms
  payment.subscriptionId).getSubscription li.subscriptionId = some sub from hsub, map_some, if_pos hid]

theorem renewOnce_spec (hb : Billed db vmId span sid expires)
  (h : renewOnce mk db now vmId method newId = some db') :
  Billed db' vmId span sid (some (span.next day (extensionBase now expires))) := by
 obtain ⟨vm, sub, hvm, hspan, hsub, hid, hexp⟩ := hb
 obtain ⟨vm₁, hvm₁, h⟩ := bind_eq_some_iff.mp h
 cases hvm.symm.trans hvm₁
 obtain ⟨sub₁, hsub₁, h⟩ := bind_eq_some_iff.mp h
 cases hsub.symm.trans hsub₁
 obtain ⟨cost, hcost, h⟩ := bind_eq_some_iff.mp h
 split at h
 · cases h
 rename_i info
 obtain ⟨vm₂, span₂, hvm₂, hspan₂, htime, -⟩ := getVmCostForIntervals_time hcost
 cases hvm.symm.trans hvm₂
 cases hspan.symm.trans hspan₂
 obtain ⟨db₁, hins, h⟩ := bind_eq_some_iff.mp h
 obtain ⟨-, -, hdb₁⟩ := insertSubscriptionPayment_eq_some hins
 have hexp' : vmSubscriptionExpires db vm = expires := by
  unfold vmSubscriptionExpires
  rw [hsub]
  exact hexp
 rw [hexp', Nat.max_self, Nat.mul_one] at htime
 rw [← extensionBase_add_quoted, ← htime, ← hid]
 have hb₁ : Billed db₁ vmId span sub.id expires := by
  rw [hdb₁]
  exact ⟨vm, sub, hvm, hspan, hsub, rfl, hexp⟩
 exact hb₁.settle ⟨_, by rw [hdb₁]; exact mem_append_right _ (mem_singleton_self _), rfl, rfl⟩ rfl h

theorem renewTimes_spec {ids : List Nat} (hb : Billed db vmId span sid expires)
  (h : renewTimes mk now vmId method db ids = some db') (hne : ids ≠ []) :
  Billed db' vmId span sid (some ((span.next day)^[ids.length] (extensionBase now expires))) := by
 induction ids generalizing db expires with
 | nil => exact absurd rfl hne
 | cons newId ids ih =>
  obtain ⟨db₁, honce, h⟩ := bind_eq_some_iff.mp h
  have hb₁ := renewOnce_spec hb honce
  rcases ids with _ | ⟨id', ids⟩
  · cases h
    exact hb₁
  have hstep := ih hb₁ h (by simp)
  have hbase : extensionBase now (some (span.next day (extensionBase now expires))) =
    span.next day (extensionBase now expires) := by
   have h1 := Calendar.Span.le_next day_pos span (extensionBase now expires)
   have h2 : sqlNow now ≤ extensionBase now expires := le_max_right _ _
   exact max_eq_left (h2.trans h1)
  rw [hbase] at hstep
  exact hstep

theorem Billed.expires_eq (hb : Billed db vmId span sid expires) :
  ((db.getVm vmId).bind fun vm => vmSubscriptionExpires db vm) = expires := by
 obtain ⟨vm, sub, hvm, -, hsub, -, hexp⟩ := hb
 rw [hvm, bind_some, vmSubscriptionExpires, hsub]
 exact hexp

/-- The expiry quoted for `k` intervals is, to the second, the one that `k` renewals for one interval reach, if and only
if `k` spans of the VM from the base on are `k` times as long as the first. -/
theorem multi_interval_expiry_iff {k sid : Nat} {info : NewPaymentInfo} {expires : Option Int} {ids : List Nat}
  (hk : 1 ≤ k) (hb : Billed db vmId span sid expires)
  (hquote : getVmCostForIntervals mk db now vmId method k = some (.new info))
  (hids : ids.length = k) (hseq : renewTimes mk now vmId method db ids = some db') :
  ∃ e, Billed db' vmId span sid (some e) ∧
   (info.newExpiry / second = e / second ↔ span.Even (Db.extensionBase now expires / day) k) := by
 obtain ⟨vm, sub, hvm, hspan, hsub, hid, hexp⟩ := hb
 obtain ⟨vm₁, span₁, hvm₁, hspan₁, htime, hnew⟩ := getVmCostForIntervals_time hquote
 cases hvm.symm.trans hvm₁
 cases hspan.symm.trans hspan₁
 have hexp' : vmSubscriptionExpires db vm = expires := by
  unfold vmSubscriptionExpires
  rw [hsub]
  exact hexp
 rw [hexp', Nat.max_eq_left hk] at htime
 rw [hexp'] at hnew
 have hlast := renewTimes_spec ⟨vm, sub, hvm, hspan, hsub, hid, hexp⟩ hseq (by rintro rfl; simp at hids; omega)
 rw [hids] at hlast
 refine ⟨_, hlast, ?_⟩
 have hbase := quoteBase_div_second now expires
 have hquoted := quotedSeconds_eq span now expires
 rw [Calendar.Span.even_iff, Calendar.Span.iterate_next day_pos, hnew, htime]
 generalize Db.extensionBase now expires = b at *
 generalize span.nextDay (b / day) - b / day = x at *
 generalize span.nextDay^[k] (b / day) - b / day = y
 have hq : (quotedSeconds span now expires : Int) = 86400 * x := by
  unfold day second at hquoted
  omega
 have h1 : (quoteBase now expires + ((quotedSeconds span now expires * k : Nat) : Int) * second) / second =
   b / second + 86400 * (k * x) := by
  rw [Int.add_mul_ediv_right _ _ (by decide), hbase]
  push_cast
  rw [hq]
  ring
 have h2 : (b + day * y) / second = b / second + 86400 * y := by
  rw [show b + day * y = b + 86400 * y * second by unfold day; ring, Int.add_mul_ediv_right _ _ (by decide)]
 rw [h1, h2]
 constructor <;> intro h <;> omega

end Renewals

def flatMarket : Market where
 toBtc _ amount := some (1000 * amount, 1)
 convertCurrency _ amount _ := some amount
 determineTax _ _ _ := some 0
 customVmPrice _ _ := none

def paidUntilFebruary (ty : IntervalType) : Db where
 subscriptions := [{ id := 1, expires := some (20120 * day), isActive := true, isSetup := true }]
 lineItems := [{ id := 1, subscriptionId := 1, subscriptionType := .vps }]
 vms := [{ id := 1, hostId := 1, templateId := some 1, subscriptionLineItemId := 1 }]
 hosts := [{ id := 1 }]
 companies := [{ id := 0 }]
 templates := [{ id := 1, costPlanId := 1 }]
 costPlans := [{ id := 1, amount := 500, intervalType := ty }]

theorem paidUntilFebruary_billed (ty : IntervalType) :
  Billed (paidUntilFebruary ty) 1 (VmCostPlan.span { id := 1, amount := 500, intervalType := ty }) 1
   (some (20120 * day)) :=
 ⟨_, _, rfl, rfl, rfl, rfl, rfl⟩

/-- On 15 January a renewal for three days is quoted with the expiry that three renewals for a day reach. -/
theorem multi_interval_expiry_three_days : ∃ info db' e,
  getVmCostForIntervals flatMarket (paidUntilFebruary .day) (20103 * day) 1 .lightning 3 = some (.new info) ∧
   renewTimes flatMarket (20103 * day) 1 .lightning (paidUntilFebruary .day) [1, 2, 3] = some db' ∧
   Billed db' 1 (.days 1) 1 (some e) ∧ info.newExpiry / second = e / second := by
 have hquote : getVmCostForIntervals flatMarket (paidUntilFebruary .day) (20103 * day) 1 .lightning 3 =
   some (.new { amount := 1500000, timeValue := 259200, newExpiry := 20123 * day }) := by decide
 obtain ⟨db', hseq⟩ := isSome_iff_exists.mp
  (show (renewTimes flatMarket (20103 * day) 1 .lightning (paidUntilFebruary .day) [1, 2, 3]).isSome from by decide)
 obtain ⟨e, hb, hiff⟩ := multi_interval_expiry_iff (by decide) (paidUntilFebruary_billed .day) hquote rfl hseq
 exact ⟨_, db', e, hquote, hseq, hb, hiff.mpr (by decide)⟩

/-- On 15 January a renewal for two months is quoted as twice the 28 days of February; two renewals for a month end on
1 April. -/
theorem two_months_expire_early :
  ¬ ∀ (mk : Market) (db db' : Db) (now : Int) (vmId : Nat) (method : PaymentMethod) (span : Calendar.Span)
   (k sid : Nat) (info : NewPaymentInfo) (expires : Option Int) (ids : List Nat), 1 ≤ k →
    Billed db vmId span sid expires → getVmCostForIntervals mk db now vmId method k = some (.new info) →
     ids.length = k → renewTimes mk now vmId method db ids = some db' →
      ∃ e, Billed db' vmId span sid (some e) ∧ info.newExpiry / second = e / second := by
 intro h
 have hquote : getVmCostForIntervals flatMarket (paidUntilFebruary .month) (20103 * day) 1 .lightning 2 =
   some (.new { amount := 1000000, timeValue := 4838400, newExpiry := 20176 * day }) := by decide
 have hlast : (renewTimes flatMarket (20103 * day) 1 .lightning (paidUntilFebruary .month) [1, 2]).any (fun db' =>
   ((db'.getVm 1).bind fun vm => vmSubscriptionExpires db' vm) = some (20179 * day)) = true := by decide
 rcases hseq : renewTimes flatMarket (20103 * day) 1 .lightning (paidUntilFebruary .month) [1, 2] with _ | db'
 · rw [hseq] at hlast
   cases hlast
 rw [hseq, any_some, decide_eq_true_eq] at hlast
 obtain ⟨e, hb, he⟩ := h _ _ _ _ _ _ _ _ _ _ _ _ (by decide) (paidUntilFebruary_billed .month) hquote rfl hseq
 rw [hb.expires_eq, Option.some.injEq] at hlast
 rw [hlast] at he
 exact absurd he (by decide)

end Lnvps
