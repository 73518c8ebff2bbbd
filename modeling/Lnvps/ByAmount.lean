import Lnvps.Lib.GrossUp
import Lnvps.TopUp
import Lnvps.Upgrade

/-! # Paying by amount -/

namespace Lnvps

open GrossUp

namespace ByAmount

open Table Outcome

def getSubscriptionCostByAmount (rnd : ℚ → ℚ) (mk : Market) (rates : TaxRates) (db : Db) (now : Int)
  (subscriptionId : Nat) (currency : Currency) (gross : Nat) (method : PaymentMethod) :
  Except PricingError CostResult := do
 let subscription ← ofOption .passedOn (db.getSubscription subscriptionId)
 let lineItems := db.listSubscriptionLineItems subscriptionId
 ensure (!lineItems.isEmpty) (.check "Subscription has no line items")
 let intervalCost := (lineItems.map (·.amount)).sum
 ensure (0 < intervalCost) (.check "Subscription has zero interval cost")
 let (converted, price, rate) ← ofOption .passedOn (getAmountAndRate mk subscription.currency intervalCost method)
 ensure (converted = currency) (.check "Invalid currency")
 ensure (0 < price) (.check "Converted interval cost is zero")
 let taxRate ← ofOption .passedOn (rates subscription.userId subscription.companyId)
 let intervalSeconds :=
  PricingEngine.costPlanIntervalToSeconds subscription.intervalType subscription.intervalAmount
 costByAmount rnd (processingFeeParams rnd mk db subscription.companyId method converted) taxRate converted rate price
  intervalSeconds (quoteBase now subscription.expires) gross

variable (db : Db)

def FeeRatesBelowOne : Prop :=
 ∀ c ∈ db.paymentMethods, ∀ rate ∈ c.processingFeeRate, 0 ≤ rate ∧ rate < 100

def NonnegRates (rates : TaxRates) : Prop := ∀ userId companyId, ∀ rate ∈ rates userId companyId, 0 ≤ rate

section Exact

variable {mk : Market} {db : Db} {companyId : Nat} {method : PaymentMethod} {currency : Currency}

theorem processingFeeParams_bounds (h : FeeRatesBelowOne db) :
  0 ≤ (processingFeeParams id mk db companyId method currency).1 ∧
   (processingFeeParams id mk db companyId method currency).1 < 1 := by
 unfold processingFeeParams
 split
 · norm_num
 split
 · norm_num
 rename_i config hconfig
 split
 · rename_i rate base _ hrate _
   obtain ⟨hlo, hhi⟩ := h config (List.mem_of_find?_eq_some hconfig) rate hrate
   constructor
   · change 0 ≤ rate / 100
     positivity
   · change rate / 100 < 1
     linarith
 · norm_num

theorem taxed_id (amount : Nat) (rate : ℚ) : taxed id amount rate = ⌊(amount : ℚ) * (rate / 100)⌋₊ := rfl

theorem netFromGross_id (feeParams : ℚ × Nat) {rate : ℚ} (hrate : 0 ≤ rate) (gross : Nat) :
  netFromGross id feeParams rate gross = net feeParams.1 feeParams.2 (rate / 100) gross := by
 unfold netFromGross net left
 simp only [id_eq, max_eq_left hrate]
 rcases le_total 0 (((gross : ℚ) * (1 - feeParams.1) - feeParams.2) / (1 + rate / 100)) with h | h
 · rw [max_eq_left h]
 · rw [max_eq_right h, Nat.floor_zero, Nat.floor_of_nonpos h]

theorem calculateProcessingFee_cases {r : ℚ} {b : Nat}
    (hparams : processingFeeParams id mk db companyId method currency = (r, b)) (hr : 0 ≤ r) (hr1 : r < 1) (a : Nat) :
    fee r b a < 2 ^ 64 ∧ calculateProcessingFee id mk db companyId method currency a = fee r b a ∨
      2 ^ 64 ≤ fee r b a ∧ (calculateProcessingFee id mk db companyId method currency a + 2 ≤ fee r b a ∨
        calculateProcessingFee id mk db companyId method currency a + 1 ≤ ⌈(a : ℚ) * r / (1 - r)⌉₊ ∨
          calculateProcessingFee id mk db companyId method currency a + 1 ≤ ⌈(b : ℚ) / (1 - r)⌉₊) := by
  have hne : 1 - r ≠ 0 := (sub_pos.mpr hr1).ne'
  unfold calculateProcessingFee fee ceilU64
  simp only [hparams, id_eq, if_neg hne]
  rcases hr.eq_or_lt with rfl | hpos
  · rcases Nat.eq_zero_or_pos b with rfl | hb
    · simp
    · rw [if_neg (by omega)]
      simp
      omega
  · rw [if_neg (fun h => absurd h.1 (not_le.mpr hpos)), if_pos hpos]
    omega

end Exact

structure Components (feeParams : ℚ × Nat) (gross : Nat) (info : NewPaymentInfo) : Prop where
 le : info.amount + info.tax ≤ gross
 sum : info.amount + info.tax + info.processingFee = gross
 covered : ⌊(gross : ℚ) * feeParams.1 + feeParams.2⌋ - 1 ≤ (info.processingFee : ℤ)

section Components

variable {rnd : ℚ → ℚ} {feeParams : ℚ × Nat} {taxRate : ℚ} {currency : Currency} {rate : ℚ}
 {price timeValue gross : Nat} {base : Int} {result : CostResult}

theorem costByAmount_components (hr : 0 ≤ feeParams.1) (htax : 0 ≤ taxRate)
  (h : costByAmount id feeParams taxRate currency rate price timeValue base gross = .ok result) :
  ∃ info, result = .new info ∧ info.currency = currency ∧ Components feeParams gross info := by
 obtain ⟨info, rfl, hpos, hnet, -, htaxed, hfee, hcurrency⟩ := costByAmount_eq_ok h
 have ht : 0 ≤ taxRate / 100 := by positivity
 rw [netFromGross_id feeParams htax] at hnet
 rw [taxed_id] at htaxed
 have hleft : (info.amount : ℚ) + info.tax ≤ left feeParams.1 feeParams.2 gross := by
  have hmul := net_mul_le ht (hnet ▸ hpos)
  rw [← hnet] at hmul
  have hfloor : (info.tax : ℚ) ≤ info.amount * (taxRate / 100) := by
   rw [htaxed]
   exact Nat.floor_le (by positivity)
  linarith
 have hkept := sub_left feeParams.1 (feeParams.2 : ℚ) gross
 have hshare : 0 ≤ (gross : ℚ) * feeParams.1 := by positivity
 have hflat : (0 : ℚ) ≤ feeParams.2 := Nat.cast_nonneg _
 have hle : info.amount + info.tax ≤ gross := by
  have hcast : (info.amount : ℚ) + info.tax ≤ gross := by linarith
  exact_mod_cast hcast
 refine ⟨info, rfl, hcurrency, hle, by omega, ?_⟩
 have hrest : (gross : ℚ) * feeParams.1 + feeParams.2 ≤ info.processingFee := by
  rw [hfee, Nat.cast_sub hle]
  push_cast
  linarith
 have hfloor := Int.floor_le ((gross : ℚ) * feeParams.1 + feeParams.2)
 have hint : ⌊(gross : ℚ) * feeParams.1 + feeParams.2⌋ ≤ (info.processingFee : ℤ) := by
  have hcast := hfloor.trans hrest
  exact_mod_cast hcast
 omega

end Components

def PricedBy (rnd : ℚ → ℚ) (feeParams : ℚ × Nat) (taxRate : ℚ) (currency : Currency) (price timeValue : Nat)
  (quote : Nat → Except PricingError CostResult) : Prop :=
 ∃ rate base, ∀ gross, quote gross = costByAmount rnd feeParams taxRate currency rate price timeValue base gross

section Quotes

variable {rnd : ℚ → ℚ} {mk : Market} {rates : TaxRates} {db : Db} {now : Int} {currency : Currency}
 {method : PaymentMethod} {gross : Nat} {result : CostResult}

theorem getCostByAmount_pricedBy {vmId : Nat}
  (h : getCostByAmount mk rates rnd db now vmId currency gross method = .ok result) :
  ∃ vm companyId cost taxRate, db.getVm vmId = some vm ∧ db.getVmCompanyId vmId = some companyId ∧
   getVmBaseCost (mk.withTaxes rates) db now vm method companyId = some cost ∧
   rates vm.userId companyId = some taxRate ∧
   PricedBy rnd (processingFeeParams rnd mk db companyId method currency) taxRate currency cost.amount cost.timeValue
    (fun gross => getCostByAmount mk rates rnd db now vmId currency gross method) := by
 obtain ⟨vm, hvm, h⟩ := bind_eq_ok.mp h
 obtain ⟨companyId, hcompany, h⟩ := bind_eq_ok.mp h
 obtain ⟨cost, hcost, h⟩ := bind_eq_ok.mp h
 obtain ⟨_, hcurrency, h⟩ := bind_eq_ok.mp h
 obtain ⟨taxRate, hrate, -⟩ := bind_eq_ok.mp h
 rw [ofOption_eq_ok] at hvm hcompany hcost hrate
 obtain rfl := of_decide_eq_true (ensure_eq_ok.mp hcurrency)
 refine ⟨vm, companyId, cost, taxRate, hvm, hcompany, hcost, hrate, cost.rate,
  quoteBase now (vmSubscriptionExpires db vm), fun gross => ?_⟩
 simp only [getCostByAmount, hvm, hcompany, hcost, hrate, ofOption, ensure, decide_true, if_true, bind, Except.bind]
 rfl

theorem getSubscriptionCostByAmount_pricedBy {subscriptionId : Nat}
  (h : getSubscriptionCostByAmount rnd mk rates db now subscriptionId currency gross method = .ok result) :
  ∃ subscription price rate taxRate, db.getSubscription subscriptionId = some subscription ∧
   getAmountAndRate mk subscription.currency ((db.listSubscriptionLineItems subscriptionId).map (·.amount)).sum
    method = some (currency, price, rate) ∧
   rates subscription.userId subscription.companyId = some taxRate ∧
   PricedBy rnd (processingFeeParams rnd mk db subscription.companyId method currency) taxRate currency price
    (PricingEngine.costPlanIntervalToSeconds subscription.intervalType subscription.intervalAmount)
    (fun gross => getSubscriptionCostByAmount rnd mk rates db now subscriptionId currency gross method) := by
 obtain ⟨subscription, hsub, h⟩ := bind_eq_ok.mp h
 obtain ⟨_, hitems, h⟩ := bind_eq_ok.mp h
 obtain ⟨_, hcost, h⟩ := bind_eq_ok.mp h
 obtain ⟨⟨converted, price, rate⟩, hconverted, h⟩ := bind_eq_ok.mp h
 obtain ⟨_, hcurrency, h⟩ := bind_eq_ok.mp h
 obtain ⟨_, hprice, h⟩ := bind_eq_ok.mp h
 obtain ⟨taxRate, hrate, -⟩ := bind_eq_ok.mp h
 rw [ofOption_eq_ok] at hsub hconverted hrate
 rw [ensure_eq_ok] at hitems hcost hprice
 obtain rfl := of_decide_eq_true (ensure_eq_ok.mp hcurrency)
 refine ⟨subscription, price, rate, taxRate, hsub, hconverted, hrate, rate, quoteBase now subscription.expires,
  fun gross => ?_⟩
 simp only [getSubscriptionCostByAmount, hsub, hitems, hcost, hconverted, hprice, hrate, ofOption, ensure,
  decide_true, if_true, bind, Except.bind]

end Quotes

/-- Whenever one of the functions accepts an amount, net, tax and fee add up to it without saturation, and the fee is,
up to one unit, at least what the provider takes. -/
theorem components_sum_to_gross (mk : Market) (rates : TaxRates) (db : Db) (now : Int) (currency : Currency)
  (gross : Nat) (method : PaymentMethod) (hfees : FeeRatesBelowOne db) (hrates : NonnegRates rates) :
  (∀ vmId result, getCostByAmount mk rates id db now vmId currency gross method = .ok result →
   ∃ companyId info, db.getVmCompanyId vmId = some companyId ∧ result = .new info ∧ info.currency = currency ∧
    Components (processingFeeParams id mk db companyId method currency) gross info) ∧
  ∀ subscriptionId result,
   getSubscriptionCostByAmount id mk rates db now subscriptionId currency gross method = .ok result →
   ∃ subscription info, db.getSubscription subscriptionId = some subscription ∧ result = .new info ∧
    info.currency = currency ∧
    Components (processingFeeParams id mk db subscription.companyId method currency) gross info := by
 constructor
 · intro vmId result h
   obtain ⟨vm, companyId, cost, taxRate, -, hcompany, -, hrate, rate, base, hquote⟩ := getCostByAmount_pricedBy h
   obtain ⟨info, hinfo⟩ := costByAmount_components (processingFeeParams_bounds hfees).1 (hrates _ _ _ hrate)
    ((hquote gross).symm.trans h)
   exact ⟨companyId, info, hcompany, hinfo⟩
 · intro subscriptionId result h
   obtain ⟨subscription, price, rate, taxRate, hsub, -, hrate, _, base, hquote⟩ :=
    getSubscriptionCostByAmount_pricedBy h
   obtain ⟨info, hinfo⟩ := costByAmount_components (processingFeeParams_bounds hfees).1 (hrates _ _ _ hrate)
    ((hquote gross).symm.trans h)
   exact ⟨subscription, info, hsub, hinfo⟩

def withFees : Db := { db with
 paymentMethods := [{
  companyId := 0
  paymentMethod := .onChain
  processingFeeRate := some (3 / 2)
  processingFeeBase := some 100 }] }

theorem withFees_belowOne : FeeRatesBelowOne (withFees db) := by
 intro c hc rate hrate
 obtain rfl := List.mem_singleton.mp hc
 cases hrate
 norm_num

theorem standardRate_nonneg : NonnegRates standardRate :=
 fun userId companyId rate h => (standardRate_bounds userId companyId rate h).1

/-- 500 satoshi, paid on-chain. -/
theorem components_sum_to_gross_onchain : ∃ info,
  getCostByAmount flatMarket standardRate id (withFees (paidUntilFebruary .month)) (20103 * day) 1 .btc 500000
   .onChain = .ok (.new info) ∧ info.amount = 400325 ∧ info.processingFee = 7601 ∧
   info.amount + info.tax + info.processingFee = 500000 := by
 have hparts : (getCostByAmount flatMarket standardRate id (withFees (paidUntilFebruary .month)) (20103 * day) 1 .btc
   500000 .onChain).map (fun r => match r with
    | .new info => (info.amount, info.processingFee)
    | .existing _ => (0, 0)) = .ok (400325, 7601) := by decide +kernel
 obtain ⟨result, hresult⟩ := map_ok_iff.mp ⟨_, hparts⟩
 obtain ⟨_, info, -, rfl, -, hcomponents⟩ := (components_sum_to_gross flatMarket standardRate
  (withFees (paidUntilFebruary .month)) (20103 * day) .btc 500000 .onChain (withFees_belowOne _)
  standardRate_nonneg).1 1 result hresult
 rw [hresult] at hparts
 obtain ⟨hamount, hfee⟩ := Prod.mk.inj (Except.ok.inj hparts)
 exact ⟨info, hresult, hamount, hfee, hcomponents.sum⟩

section Fee

variable (mk : Market) (db : Db) (companyId : Nat) (method : PaymentMethod) (currency : Currency) (r : ℚ) (b : Nat)

/-- The provider leaves the amount, and less than two units more, if and only if the exact fee fits 64 bits. -/
theorem processing_fee_grosses_up (hparams : processingFeeParams id mk db companyId method currency = (r, b))
    (hr0 : 0 ≤ r) (hr : r < 1) (a : Nat) :
    (a ≤ ((a : ℚ) + calculateProcessingFee id mk db companyId method currency a) * (1 - r) - b ∧
      ((a : ℚ) + calculateProcessingFee id mk db companyId method currency a) * (1 - r) - b < a + 2) ↔
      ⌈(a : ℚ) * r / (1 - r)⌉₊ + ⌈(b : ℚ) / (1 - r)⌉₊ < 2 ^ 64 := by
  rcases calculateProcessingFee_cases hparams hr0 hr a with ⟨hfits, hfee⟩ | ⟨hlarge, hshort⟩
  · refine iff_of_true ?_ hfits
    rw [hfee]
    exact ⟨le_left_add_fee hr, left_add_fee_lt hr hr0 (Nat.cast_nonneg b) (Nat.cast_nonneg a)⟩
  · refine iff_of_false (fun h => ?_) (not_lt.mpr hlarge)
    exact absurd (left_add_lt hr hr0 (Nat.cast_nonneg b) (Nat.cast_nonneg a) hshort) (not_lt.mpr h.1)

end Fee

theorem processingFeeParams_withFees :
  processingFeeParams id flatMarket (withFees db) 0 .onChain .btc = (3 / 200, 100) := by
 unfold processingFeeParams
 rw [if_neg (by decide)]
 change ((3 / 2 / 100 : ℚ), 100) = _
 norm_num

theorem processing_fee_grosses_up_onchain :
    (615000 : ℚ) ≤ (615000 + calculateProcessingFee id flatMarket (withFees {}) 0 .onChain .btc 615000) *
        (1 - 3 / 200) - 100 ∧
      (615000 + calculateProcessingFee id flatMarket (withFees {}) 0 .onChain .btc 615000) * (1 - 3 / 200) - 100 <
        (615002 : ℚ) := by
  have h := (processing_fee_grosses_up flatMarket (withFees {}) 0 .onChain .btc (3 / 200) 100
    (processingFeeParams_withFees {}) (by norm_num) (by norm_num) 615000).mpr (by decide +kernel)
  norm_num at h ⊢
  exact h

def highFees (rate : ℚ) (base : Nat) : Db where
 paymentMethods := [{
  companyId := 0
  paymentMethod := .onChain
  processingFeeRate := some rate
  processingFeeBase := some base }]

/-- Of 2 * 10^17 at a rate of 99 %, less than this is left, since the fee saturates. -/
theorem fee_saturates : processingFeeParams id flatMarket (highFees 99 0) 0 .onChain .btc = (99 / 100, 0) ∧
    ((2 * 10 ^ 17 : Nat) + calculateProcessingFee id flatMarket (highFees 99 0) 0 .onChain .btc (2 * 10 ^ 17) : ℚ) *
      (1 - 99 / 100) - 0 < (2 * 10 ^ 17 : Nat) := by
  decide +kernel

def creditedTime : Except PricingError CostResult → Option Nat
 | .ok (.new info) => some info.timeValue
 | _ => none

section Time

variable {feeParams : ℚ × Nat} {taxRate : ℚ} {currency : Currency} {rate : ℚ} {price timeValue a b : Nat} {base : Int}

theorem scaledTime_id (timeValue net : Nat) {price : Nat} (hprice : price ≠ 0) :
  scaledTime id timeValue net price = min ⌊(timeValue : ℚ) * (net / price)⌋₊ (2 ^ 64 - 1) := by
 simp only [scaledTime, if_neg hprice, id_eq]

theorem scaledTime_mono {net net' : Nat} (h : net ≤ net') :
  scaledTime id timeValue net price ≤ scaledTime id timeValue net' price := by
 by_cases hprice : price = 0
 · simp [scaledTime, hprice]
 have hcast : (net : ℚ) ≤ net' := by exact_mod_cast h
 have hfloor : ⌊(timeValue : ℚ) * (net / price)⌋₊ ≤ ⌊(timeValue : ℚ) * (net' / price)⌋₊ := by gcongr
 rw [scaledTime_id _ _ hprice, scaledTime_id _ _ hprice]
 omega

theorem scaledTime_add_le_iff {n m net : Nat} (hnet : n + m ≤ net) (hn : 0 < scaledTime id timeValue n price)
  (hm : 0 < scaledTime id timeValue m price) :
  scaledTime id timeValue n price + scaledTime id timeValue m price ≤ scaledTime id timeValue net price ↔
   price ≠ 0 ∧ ⌊(timeValue : ℚ) * (n / price)⌋₊ + ⌊(timeValue : ℚ) * (m / price)⌋₊ < 2 ^ 64 := by
 by_cases hprice : price = 0
 · have htime : timeValue ≠ 0 := by
    rintro rfl
    simp [scaledTime, hprice] at hn
   simp [scaledTime, hprice, htime]
 have hadd : ⌊(timeValue : ℚ) * (n / price)⌋₊ + ⌊(timeValue : ℚ) * (m / price)⌋₊ ≤
   ⌊(timeValue : ℚ) * (net / price)⌋₊ := by
  refine (floor_add_floor_le (by positivity) (by positivity)).trans ?_
  rw [← mul_add, ← add_div]
  have hcast : (n : ℚ) + m ≤ net := by exact_mod_cast hnet
  gcongr
 rw [scaledTime_id _ _ hprice] at hn hm
 rw [scaledTime_id _ _ hprice, scaledTime_id _ _ hprice, scaledTime_id _ _ hprice]
 omega

theorem creditedTime_costByAmount {t : Nat} :
  creditedTime (costByAmount id feeParams taxRate currency rate price timeValue base a) = some t ↔
   0 < netFromGross id feeParams taxRate a ∧ 0 < t ∧
    t = scaledTime id timeValue (netFromGross id feeParams taxRate a) price := by
 simp only [costByAmount]
 by_cases hnet : 0 < netFromGross id feeParams taxRate a
 · by_cases htime : 0 < scaledTime id timeValue (netFromGross id feeParams taxRate a) price
   · simp only [ensure, hnet, htime, decide_true, if_true, bind, Except.bind, creditedTime, Option.some.injEq,
      true_and]
     constructor
     · rintro rfl
       exact ⟨htime, rfl⟩
     · rintro ⟨-, rfl⟩
       rfl
   · simp only [ensure, hnet, htime, decide_true, decide_false, if_true, bind, Except.bind, creditedTime, true_and]
     constructor
     · intro h
       cases h
     · rintro ⟨hpos, rfl⟩
       exact absurd hpos htime
 · simp [ensure, hnet, bind, Except.bind, creditedTime]

end Time

def worth (feeParams : ℚ × Nat) (taxRate : ℚ) (price timeValue gross : Nat) : Nat :=
 ⌊(timeValue : ℚ) * (net feeParams.1 feeParams.2 (taxRate / 100) gross / price)⌋₊

structure Splitting (feeParams : ℚ × Nat) (taxRate : ℚ) (price timeValue : Nat)
  (quote : Nat → Except PricingError CostResult) : Prop where
 mono : ∀ a b ta tb, a ≤ b → creditedTime (quote a) = some ta → creditedTime (quote b) = some tb → ta ≤ tb
 splits : ∀ a b ta tb, creditedTime (quote a) = some ta → creditedTime (quote b) = some tb →
  ∃ tab, creditedTime (quote (a + b)) = some tab ∧ (ta + tb ≤ tab ↔ price ≠ 0 ∧
   worth feeParams taxRate price timeValue a + worth feeParams taxRate price timeValue b < 2 ^ 64)

section Splitting

variable {feeParams : ℚ × Nat} {taxRate : ℚ} {currency : Currency} {price timeValue : Nat}
 {quote : Nat → Except PricingError CostResult}

theorem PricedBy.splitting (hquote : PricedBy id feeParams taxRate currency price timeValue quote) (htax : 0 ≤ taxRate)
  (hr : feeParams.1 < 1) : Splitting feeParams taxRate price timeValue quote := by
 obtain ⟨rate, base, hquote⟩ := hquote
 have ht : 0 ≤ taxRate / 100 := by positivity
 constructor
 · intro a b ta tb hab ha hb
   rw [hquote, creditedTime_costByAmount] at ha hb
   rw [ha.2.2, hb.2.2, netFromGross_id _ htax, netFromGross_id _ htax]
   exact scaledTime_mono (net_mono ht hr (by exact_mod_cast hab))
 intro a b ta tb ha hb
 rw [hquote, creditedTime_costByAmount, netFromGross_id _ htax] at ha hb
 obtain ⟨hneta, hta, rfl⟩ := ha
 obtain ⟨hnetb, htb, rfl⟩ := hb
 have hnet := net_add_net_le ht (Nat.cast_nonneg feeParams.2) hneta hnetb
 refine ⟨_, ?_, scaledTime_add_le_iff hnet hta htb⟩
 rw [hquote, creditedTime_costByAmount, netFromGross_id _ htax, Nat.cast_add]
 exact ⟨by omega, lt_of_lt_of_le hta (scaledTime_mono ((Nat.le_add_right _ _).trans hnet)), rfl⟩

theorem Splitting.of_accepted
  (h : ∀ a result, quote a = .ok result → Splitting feeParams taxRate price timeValue quote) :
  Splitting feeParams taxRate price timeValue quote := by
 by_cases haccepted : ∃ a result, quote a = .ok result
 · obtain ⟨a, result, ha⟩ := haccepted
   exact h a result ha
 have hnone : ∀ a t, creditedTime (quote a) ≠ some t := by
  intro a t ht
  cases hq : quote a with
  | error e =>
   rw [hq] at ht
   cases ht
  | ok result => exact haccepted ⟨a, result, hq⟩
 exact ⟨fun a b ta tb _ ha => absurd ha (hnone a ta), fun a b ta tb ha => absurd ha (hnone a ta)⟩

end Splitting

def onChainTopUp (gross : Nat) : Except PricingError CostResult :=
 getCostByAmount flatMarket standardRate id (withFees (paidUntilFebruary .month)) (20103 * day) 1 .btc gross .onChain

def freePlan : Db := { paidUntilFebruary .month with costPlans := [{ id := 1, amount := 0 }] }

def centAYear : Db where
 subscriptions := [{ id := 1, intervalType := .year }]
 lineItems := [{ id := 1, subscriptionId := 1, subscriptionType := .dnsHosting, amount := 1 }]
 companies := [{ id := 0 }]

end ByAmount

end Lnvps
