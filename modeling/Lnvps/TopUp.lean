import Lnvps.Prepay

/-! # LNURL top-ups -/

namespace Lnvps

open Table Outcome Option Rounding

abbrev TaxRates := (userId companyId : Nat) → Option ℚ

inductive PricingError
 | passedOn
 | check (message : String)
 deriving DecidableEq

namespace ByAmount

variable (rnd : ℚ → ℚ)

def taxed (amount : Nat) (rate : ℚ) : Nat := ⌊rnd (rnd amount * rnd (rate / 100))⌋₊

def netFromGross (feeParams : ℚ × Nat) (taxPct : ℚ) (gross : Nat) : Nat :=
 let t := rnd (max taxPct 0 / 100)
 let net := rnd (rnd (rnd (rnd gross * rnd (1 - feeParams.1)) - rnd feeParams.2) / rnd (1 + t))
 ⌊max net 0⌋₊

def scaledTime (timeValue net price : Nat) : Nat :=
 if price = 0 then if timeValue = 0 then 0 else 2 ^ 64 - 1
 else min ⌊rnd (rnd timeValue * rnd (rnd net / rnd price))⌋₊ (2 ^ 64 - 1)

def costByAmount (feeParams : ℚ × Nat) (taxRate : ℚ) (currency : Currency) (rate : ℚ) (price timeValue : Nat)
  (base : Int) (gross : Nat) : Except PricingError CostResult := do
 let net := netFromGross rnd feeParams taxRate gross
 ensure (0 < net) (.check "Paid amount too small after tax/fees")
 let newTime := scaledTime rnd timeValue net price
 ensure (0 < newTime) (.check "Extend time is less than 1 second")
 let tax := taxed rnd net taxRate
 .ok (.new {
  amount := net
  currency
  timeValue := newTime
  newExpiry := base + Int.bmod newTime (2 ^ 64) * second
  rate
  tax
  processingFee := gross - (net + tax) })

end ByAmount

open ByAmount

variable (mk : Market) (rates : TaxRates)

def Market.withTaxes : Market :=
 { mk with determineTax := fun userId amount companyId => (rates userId companyId).map (taxed f64 amount) }

def ByAmount.getCostByAmount (rnd : ℚ → ℚ) (db : Db) (now : Int) (vmId : Nat) (currency : Currency) (gross : Nat)
  (method : PaymentMethod) : Except PricingError CostResult := do
 let vm ← ofOption .passedOn (db.getVm vmId)
 let companyId ← ofOption .passedOn (db.getVmCompanyId vmId)
 let cost ← ofOption .passedOn (getVmBaseCost (mk.withTaxes rates) db now vm method companyId)
 ensure (cost.currency = currency) (.check "Invalid currency")
 let taxRate ← ofOption .passedOn (rates vm.userId companyId)
 costByAmount rnd (processingFeeParams rnd (mk.withTaxes rates) db companyId method cost.currency) taxRate
  cost.currency cost.rate cost.amount cost.timeValue (quoteBase now (vmSubscriptionExpires db vm)) gross

def lightningTopUps : AmountPricing where
 getCostByAmount db now vmId gross := (getCostByAmount mk rates f64 db now vmId .btc gross .lightning).toOption
 getSubscriptionCostByAmount _ _ _ _ := none

def maxSendable : Nat := 1000000000

def minSendable : Nat := 100000

def v1RenewVmLnurlp (prov : Providers) (db : Db) (now : Int) (id amount : Nat) :
  Except String RenewResult := do
 let vm ← ofOption "VM not found" (db.getVm id)
 ensure (!vm.deleted) "VM not found"
 ensure (1000 ≤ amount) "Amount must be greater than 1000"
 match renewAmount (lightningTopUps mk rates) prov db now id amount .lightning with
 | .ok result => .ok result
 | .error _ => .error "Error generating invoice"

section

variable {x : ℚ}

theorem f64_le (hx : 0 ≤ x) : f64 x ≤ x * (1 + 1 / 2 ^ 53) := by
 have h := (abs_le.mp (abs_nearest_sub_le 53 x)).2
 rw [abs_of_nonneg hx] at h
 unfold f64
 linarith

theorem le_f64 (hx : 0 ≤ x) : x * (1 - 1 / 2 ^ 53) ≤ f64 x := by
 have h := (abs_le.mp (abs_nearest_sub_le 53 x)).1
 rw [abs_of_nonneg hx] at h
 unfold f64
 linarith

theorem f64_natCast {n : Nat} (hn : n < 2 ^ 53) : f64 n = n := nearest_natCast hn

end

variable {rate : ℚ}

theorem netFromGross_lightning {gross : Nat} (hrate : 0 ≤ rate) (hgross : gross < 2 ^ 53) :
  netFromGross f64 (0, 0) rate gross = ⌊f64 (gross / f64 (1 + f64 (rate / 100)))⌋₊ := by
 have hone : f64 1 = 1 := by
  have h := f64_natCast (n := 1) (by norm_num)
  rwa [Nat.cast_one] at h
 have hzero : f64 ((0 : Nat) : ℚ) = 0 := by
  rw [f64_natCast (by norm_num), Nat.cast_zero]
 have ht : 0 ≤ f64 (rate / 100) := nearest_nonneg (by positivity)
 have hnonneg : 0 ≤ f64 (gross / f64 (1 + f64 (rate / 100))) :=
  nearest_nonneg (div_nonneg (Nat.cast_nonneg _) (nearest_nonneg (by linarith)))
 unfold netFromGross
 simp only [hzero, sub_zero, hone, mul_one, f64_natCast hgross, max_eq_left hrate, max_eq_left hnonneg]

theorem net_near {t : ℚ} (ht : 0 ≤ t) (gross net : Nat) (hnet : net = ⌊f64 (gross / f64 (1 + t))⌋₊) :
    (net + net * t) * (1 - 1 / 2 ^ 53) ≤ gross * (1 + 1 / 2 ^ 53) ∧
      gross * (1 - 1 / 2 ^ 53) ≤ (net + net * t + (1 + t)) * (1 + 1 / 2 ^ 53) := by
  have hdlo : (1 + t) * (1 - 1 / 2 ^ 53) ≤ f64 (1 + t) := le_f64 (by linarith)
  have hdhi : f64 (1 + t) ≤ (1 + t) * (1 + 1 / 2 ^ 53) := f64_le (by linarith)
  have hd0 : 0 < f64 (1 + t) := by linarith
  generalize f64 (1 + t) = d at *
  have hquot : 0 ≤ (gross : ℚ) / d := by positivity
  have hxlo := mul_le_mul_of_nonneg_right (le_f64 hquot) hd0.le
  have hxhi := mul_le_mul_of_nonneg_right (f64_le hquot) hd0.le
  rw [mul_right_comm, div_mul_cancel₀ _ hd0.ne'] at hxlo hxhi
  have hnetlo : (net : ℚ) ≤ f64 (gross / d) := by
    rw [hnet]
    exact Nat.floor_le (nearest_nonneg hquot)
  have hnethi : f64 (gross / d) < net + 1 := by
    rw [hnet]
    exact Nat.lt_floor_add_one _
  constructor
  · calc (net + net * t) * (1 - 1 / 2 ^ 53) = net * ((1 + t) * (1 - 1 / 2 ^ 53)) := by ring
      _ ≤ net * d := by gcongr
      _ ≤ f64 (gross / d) * d := by gcongr
      _ ≤ gross * (1 + 1 / 2 ^ 53) := hxhi
  calc gross * (1 - 1 / 2 ^ 53) ≤ f64 (gross / d) * d := hxlo
    _ ≤ (net + 1) * d := by gcongr
    _ ≤ (net + 1) * ((1 + t) * (1 + 1 / 2 ^ 53)) := by gcongr
    _ = (net + net * t + (1 + t)) * (1 + 1 / 2 ^ 53) := by ring

theorem taxed_near (hrate : 0 ≤ rate) {net : Nat} (hnet : net < 2 ^ 53) :
  (taxed f64 net rate : ℚ) ≤ net * f64 (rate / 100) * (1 + 1 / 2 ^ 53) ∧
   net * f64 (rate / 100) * (1 - 1 / 2 ^ 53) < taxed f64 net rate + 1 := by
 have ht : 0 ≤ f64 (rate / 100) := nearest_nonneg (by positivity)
 have hexact : 0 ≤ net * f64 (rate / 100) := by positivity
 unfold taxed
 rw [f64_natCast hnet]
 constructor
 · exact (Nat.floor_le (nearest_nonneg hexact)).trans (f64_le hexact)
 · exact lt_of_le_of_lt (le_f64 hexact) (Nat.lt_floor_add_one _)

theorem net_add_tax_near {gross : Nat} (hrate : 0 ≤ rate) (hrate' : rate ≤ 900) (hgross : gross ≤ maxSendable) :
  netFromGross f64 (0, 0) rate gross + taxed f64 (netFromGross f64 (0, 0) rate gross) rate ≤ gross ∧
   gross < netFromGross f64 (0, 0) rate gross + taxed f64 (netFromGross f64 (0, 0) rate gross) rate + 13 := by
 have hlt : gross < 2 ^ 53 := lt_of_le_of_lt hgross (by unfold maxSendable; norm_num)
 have hmax : (gross : ℚ) ≤ 1000000000 := by exact_mod_cast hgross
 have ht0 : 0 ≤ f64 (rate / 100) := nearest_nonneg (by positivity)
 have ht9 : f64 (rate / 100) ≤ 10 := (f64_le (by positivity)).trans (by linarith)
 obtain ⟨hhi, hlo⟩ := net_near ht0 gross _ (netFromGross_lightning hrate hlt)
 generalize netFromGross f64 (0, 0) rate gross = net at *
 have hexact : 0 ≤ (net : ℚ) * f64 (rate / 100) := by positivity
 have hnetlt : net < 2 ^ 53 := by
  have hcast : (net : ℚ) < 2 ^ 53 := by linarith
  exact_mod_cast hcast
 obtain ⟨htaxhi, htaxlo⟩ := taxed_near hrate hnetlt
 generalize taxed f64 net rate = tax at *
 generalize f64 (rate / 100) = t at *
 constructor
 · have hcast : (net + tax : ℚ) < gross + 1 := by linarith
   exact Nat.lt_succ_iff.mp (by exact_mod_cast hcast)
 · have hcast : (gross : ℚ) < net + tax + 13 := by linarith
   exact_mod_cast hcast

section

variable {mk : Market} {rates : TaxRates} {prov : Providers} {db : Db} {now : Int} {id gross : Nat}

theorem ByAmount.costByAmount_eq_ok {rnd : ℚ → ℚ} {feeParams : ℚ × Nat} {taxRate rate : ℚ} {currency : Currency}
  {price timeValue gross : Nat} {base : Int} {result : CostResult}
  (h : costByAmount rnd feeParams taxRate currency rate price timeValue base gross = .ok result) :
  ∃ info, result = .new info ∧ 0 < info.amount ∧ info.amount = netFromGross rnd feeParams taxRate gross ∧
   info.timeValue = scaledTime rnd timeValue info.amount price ∧ info.tax = taxed rnd info.amount taxRate ∧
   info.processingFee = gross - (info.amount + info.tax) ∧ info.currency = currency := by
 obtain ⟨_, hnet, h⟩ := bind_eq_ok.mp h
 obtain ⟨_, -, h⟩ := bind_eq_ok.mp h
 cases h
 exact ⟨_, rfl, of_decide_eq_true (ensure_eq_ok.mp hnet), rfl, rfl, rfl, rfl, rfl⟩

theorem getCostByAmount_lightning {price : CostResult}
  (h : getCostByAmount mk rates f64 db now id .btc gross .lightning = .ok price) :
  ∃ info userId companyId rate, price = .new info ∧ rates userId companyId = some rate ∧
   info.amount = netFromGross f64 (0, 0) rate gross ∧ info.tax = taxed f64 info.amount rate ∧
   info.processingFee = gross - (info.amount + info.tax) := by
 obtain ⟨vm, -, h⟩ := bind_eq_ok.mp h
 obtain ⟨companyId, -, h⟩ := bind_eq_ok.mp h
 obtain ⟨cost, -, h⟩ := bind_eq_ok.mp h
 obtain ⟨_, -, h⟩ := bind_eq_ok.mp h
 obtain ⟨rate, hrate, h⟩ := bind_eq_ok.mp h
 obtain ⟨info, hinfo, -, hamount, -, htax, hfee, -⟩ := costByAmount_eq_ok h
 exact ⟨info, vm.userId, companyId, rate, hinfo, ofOption_eq_ok.mp hrate, hamount, htax, hfee⟩

theorem v1RenewVmLnurlp_created {result : RenewResult}
  (h : v1RenewVmLnurlp mk rates prov db now id gross = .ok result) :
  ∃ db' request payment info, result = .created db' request payment ∧
   getCostByAmount mk rates f64 db now id .btc gross .lightning = .ok (.new info) ∧
   request.amount = roundMsatToSat (info.amount + info.tax) ∧
   payment.gross = info.amount + info.tax + info.processingFee := by
 obtain ⟨vm, -, h⟩ := bind_eq_ok.mp h
 obtain ⟨_, -, h⟩ := bind_eq_ok.mp h
 obtain ⟨_, -, h⟩ := bind_eq_ok.mp h
 split at h
 · rename_i r hrenew
   cases h
   obtain ⟨price, hprice, hrenew⟩ := bind_eq_ok.mp hrenew
   rw [ofOption_eq_ok] at hprice
   replace hprice := toOption_eq_some.mp hprice
   obtain ⟨info, -, -, -, rfl, -⟩ := getCostByAmount_lightning hprice
   obtain ⟨_, -, hrenew⟩ := bind_eq_ok.mp hrenew
   obtain ⟨_, -, hrenew⟩ := bind_eq_ok.mp hrenew
   obtain ⟨⟨request, payment⟩, hcreate, hstore⟩ := bind_eq_ok.mp hrenew
   obtain ⟨db', -, hstore⟩ := bind_eq_ok.mp hstore
   cases hstore
   obtain ⟨-, -, -, hgross, ⟨hm, -⟩ | ⟨-, hrequest⟩⟩ := createPayment_spec hcreate
   · cases hm
   · exact ⟨db', request, payment, info, rfl, hprice, hrequest, hgross⟩
 · cases h

theorem roundMsatToSat_eq_of_near {x q : Nat} (hle : x ≤ q) (hlt : q < x + 13) : roundMsatToSat x = q ↔ 1000 ∣ q := by
 unfold roundMsatToSat
 omega

end

/-- The invoice of an accepted request has the amount that was asked for, and the components of the stored payment add
up to it, if and only if the amount is a whole number of satoshi. -/
theorem lnurl_invoice_iff (mk : Market) (rates : TaxRates) (prov : Providers) (db : Db) (now : Int) (id q : Nat)
  (hrates : ∀ userId companyId rate, rates userId companyId = some rate → 0 ≤ rate ∧ rate ≤ 900)
  (hq : minSendable ≤ q ∧ q ≤ maxSendable) (result : RenewResult)
  (h : v1RenewVmLnurlp mk rates prov db now id q = .ok result) :
  ∃ db' request payment, result = .created db' request payment ∧
   (request.amount = q ∧ payment.amount + payment.tax + payment.processingFee = q ↔ 1000 ∣ q) := by
 obtain ⟨db', request, payment, info, rfl, hprice, hrequest, hgross⟩ := v1RenewVmLnurlp_created h
 obtain ⟨_, userId, companyId, rate, hinfo, hrate, hamount, htax, hfee⟩ := getCostByAmount_lightning hprice
 obtain rfl := CostResult.new.inj hinfo
 obtain ⟨hrate0, hrate9⟩ := hrates userId companyId rate hrate
 obtain ⟨hle, hlt⟩ := net_add_tax_near hrate0 hrate9 hq.2
 rw [← hamount, ← htax] at hle hlt
 have hsum : payment.amount + payment.tax + payment.processingFee = q := by
  have hcomponents : payment.gross = payment.amount + payment.tax + payment.processingFee := rfl
  omega
 refine ⟨db', request, payment, rfl, ?_⟩
 rw [hrequest, roundMsatToSat_eq_of_near hle hlt]
 exact and_iff_left hsum

def standardRate : TaxRates := fun _ _ => some 23

theorem standardRate_bounds (userId companyId : Nat) (rate : ℚ) (h : standardRate userId companyId = some rate) :
  0 ≤ rate ∧ rate ≤ 900 := by
 cases h
 norm_num

def acceptedWith (P : ProviderRequest → SubscriptionPayment → Bool) : Except String RenewResult → Bool
 | .ok (.created _ request payment) => P request payment
 | _ => false

theorem exists_of_acceptedWith {P : ProviderRequest → SubscriptionPayment → Bool} {r : Except String RenewResult}
  (h : acceptedWith P r = true) :
  ∃ db request payment, r = .ok (.created db request payment) ∧ P request payment = true := by
 unfold acceptedWith at h
 split at h
 · exact ⟨_, _, _, rfl, h⟩
 · cases h

/-- 500 satoshi. -/
theorem lnurl_invoice_iff_whole : ∃ db' request payment,
  v1RenewVmLnurlp flatMarket standardRate testProviders (paidUntilFebruary .month) (20103 * day) 1 500000 =
   .ok (.created db' request payment) ∧ request.amount = 500000 := by
 obtain ⟨db', request, payment, h, -⟩ := exists_of_acceptedWith
  (show acceptedWith (fun _ _ => true) (v1RenewVmLnurlp flatMarket standardRate testProviders
   (paidUntilFebruary .month) (20103 * day) 1 500000) = true from by decide +kernel)
 obtain ⟨_, _, _, hresult, hiff⟩ := lnurl_invoice_iff flatMarket standardRate testProviders (paidUntilFebruary .month)
  (20103 * day) 1 500000 standardRate_bounds (by decide) _ h
 obtain ⟨rfl, rfl, rfl⟩ := RenewResult.created.inj hresult
 exact ⟨db', request, payment, h, (hiff.mpr (by decide)).1⟩

/-- An amount with millisatoshi: the invoice is for the next satoshi. -/
theorem lnurl_invoice_rounded_up : ∃ db' request payment,
  v1RenewVmLnurlp flatMarket standardRate testProviders (paidUntilFebruary .month) (20103 * day) 1 100500 =
   .ok (.created db' request payment) ∧ minSendable ≤ 100500 ∧ 100500 ≤ maxSendable ∧ request.amount = 101000 := by
 obtain ⟨db', request, payment, h, hamount⟩ := exists_of_acceptedWith
  (show acceptedWith (fun request _ => request.amount = 101000) (v1RenewVmLnurlp flatMarket standardRate testProviders
   (paidUntilFebruary .month) (20103 * day) 1 100500) = true from by decide +kernel)
 exact ⟨db', request, payment, h, by decide, by decide, of_decide_eq_true hamount⟩

end Lnvps
