import Lnvps.Renewal

/-! # The currency of a renewal -/

namespace Lnvps

open Table Outcome Except List

variable (mk : Market) (db : Db)

def vmListCurrency (vm : Vm) : Option Currency :=
 if vm.templateId.isSome then do
  let templateId ← vm.templateId
  let template ← db.getVmTemplate templateId
  let plan ← db.getCostPlan template.costPlanId
  some plan.currency
 else do
  let templateId ← vm.customTemplateId
  let (currency, _) ← mk.customVmPrice vm.id templateId
  some currency

def vpsCurrencies (items : List SubscriptionLineItem) : List Currency :=
 (items.filter fun item => item.subscriptionType = .vps).filterMap fun item => do
  let row ← db.getVmByLineItem item.id
  let vm ← db.getVm row.id
  vmListCurrency mk db vm

variable (sub : Subscription)

def chargedBySubscription (item : SubscriptionLineItem) : Bool :=
 (item.subscriptionType ≠ .vps && 0 < item.amount) || (!sub.isSetup && 0 < item.setupAmount)

def listCurrencies : List Currency :=
 let items := db.listSubscriptionLineItems sub.id
 vpsCurrencies mk db items ++ if items.any (chargedBySubscription sub) then [sub.currency] else []

def nonVmBase (t : Totals) : Nat :=
 t.nonVmIntervalCost + if sub.isSetup then 0 else t.setupFee

def computedCurrencies (now : Int) (sub : Subscription) (method : PaymentMethod)
  (intervals : Nat) : List Currency :=
 match addLineItems mk db now sub method (max intervals 1) (db.listSubscriptionLineItems sub.id) {} with
 | .ok (.inr t) => t.vmPaymentInfos.map (·.currency) ++
   if nonVmBase sub t > 0 then
    ((getAmountAndRate mk sub.currency (nonVmBase sub t) method).map (·.1)).toList
   else []
 | _ => []

def methodCurrency (method : PaymentMethod) (listed : Currency) : Currency :=
 if method = .lightning ∨ method = .onChain then .btc else listed

section Converted

variable {mk : Market} {db : Db} {now : Int} {sub : Subscription} {method : PaymentMethod} {vm : Vm}
 {companyId vmId k : Nat} {info : NewPaymentInfo}

theorem getAmountAndRate_currency {listed currency : Currency} {price amount : Nat} {rate : Rat}
  (h : getAmountAndRate mk listed price method = some (currency, amount, rate)) :
  currency = methodCurrency method listed := by
 have hbtc : getAmountAndRate mk listed price .lightning = some (currency, amount, rate) → currency = .btc := by
  intro h
  simp only [getAmountAndRate] at h
  split at h
  · exact (Prod.mk.inj (Option.some.inj h)).1.symm
  · obtain ⟨converted, -, h⟩ := Option.bind_eq_some_iff.mp h
    exact (Prod.mk.inj (Option.some.inj h)).1.symm
 cases method with
 | lightning => exact hbtc h
 | onChain => exact hbtc h
 | revolut =>
  simp only [getAmountAndRate] at h
  split at h
  · cases h
  · exact (Prod.mk.inj (Option.some.inj h)).1.symm
 | paypal => cases h
 | stripe => cases h

theorem priceInterval_currency {listed : Currency} {price timeValue : Nat} {base : Int}
  (h : priceInterval mk db vm method companyId listed price base timeValue = some info) :
  info.currency = methodCurrency method listed := by
 obtain ⟨⟨currency, amount, rate⟩, hconv, h⟩ := Option.bind_eq_some_iff.mp h
 obtain ⟨tax, -, h⟩ := Option.bind_eq_some_iff.mp h
 cases h
 exact getAmountAndRate_currency hconv

theorem getVmBaseCost_currency (h : getVmBaseCost mk db now vm method companyId = some info) :
  ∃ listed, vmListCurrency mk db vm = some listed ∧ info.currency = methodCurrency method listed := by
 unfold getVmBaseCost at h
 unfold vmListCurrency
 split at h
 · obtain ⟨templateId, hid, h⟩ := Option.bind_eq_some_iff.mp h
   obtain ⟨template, htemplate, h⟩ := Option.bind_eq_some_iff.mp h
   obtain ⟨plan, hplan, h⟩ := Option.bind_eq_some_iff.mp h
   exact ⟨plan.currency, by simp [hid, htemplate, hplan], priceInterval_currency h⟩
 rename_i hstandard
 obtain ⟨templateId, hid, h⟩ := Option.bind_eq_some_iff.mp h
 obtain ⟨⟨currency, price⟩, hprice, h⟩ := Option.bind_eq_some_iff.mp h
 exact ⟨currency, by simp [hstandard, hid, hprice], priceInterval_currency h⟩

theorem getVmCostForIntervals_currency (h : getVmCostForIntervals mk db now vmId method k = some (.new info)) :
  ∃ vm listed, db.getVm vmId = some vm ∧ vmListCurrency mk db vm = some listed ∧
   info.currency = methodCurrency method listed := by
 obtain ⟨vm, hvm, h⟩ := Option.bind_eq_some_iff.mp h
 obtain ⟨companyId, -, h⟩ := Option.bind_eq_some_iff.mp h
 obtain ⟨cost, hcost, h⟩ := Option.bind_eq_some_iff.mp h
 obtain ⟨listed, hlisted, hcurrency⟩ := getVmBaseCost_currency hcost
 refine ⟨vm, listed, hvm, hlisted, ?_⟩
 rw [← hcurrency]
 dsimp only at h
 split at h
 · cases h
 split at h
 · rw [← CostResult.new.inj (Option.some.inj h)]
 · obtain ⟨scaled, hscaled, h⟩ := Option.bind_eq_some_iff.mp h
   obtain ⟨tax, -, hscaled⟩ := Option.bind_eq_some_iff.mp hscaled
   rw [← CostResult.new.inj (Option.some.inj h), ← Option.some.inj hscaled]

theorem addLineItems_currencies {items : List SubscriptionLineItem} {t t' : Totals}
  (h : addLineItems mk db now sub method k items t = .ok (.inr t')) :
  t'.vmPaymentInfos.map (·.currency) =
   t.vmPaymentInfos.map (·.currency) ++ (vpsCurrencies mk db items).map (methodCurrency method) := by
 induction items generalizing t with
 | nil =>
  obtain rfl := Sum.inr.inj (ok.inj h)
  simp [vpsCurrencies]
 | cons item items ih =>
  rw [addLineItems] at h
  by_cases htype : item.subscriptionType = .vps
  · rw [if_pos htype] at h
    obtain ⟨row, hrow, h⟩ := bind_eq_ok.mp h
    obtain ⟨host, -, h⟩ := bind_eq_ok.mp h
    obtain ⟨-, -, h⟩ := bind_eq_ok.mp h
    obtain ⟨cost, hcost, h⟩ := bind_eq_ok.mp h
    rcases cost with existing | info
    · cases h
    obtain ⟨vm, listed, hvm, hlisted, hcurrency⟩ := getVmCostForIntervals_currency (ofOption_eq_ok.mp hcost)
    have hrest := ih h
    have hhead : vpsCurrencies mk db (item :: items) = listed :: vpsCurrencies mk db items := by
     have hrow := ofOption_eq_ok.mp hrow
     simp [vpsCurrencies, htype, hrow, hvm, hlisted]
    rw [hrest, hhead]
    simp [hcurrency]
  · rw [if_neg htype] at h
    have hrest := ih h
    have hhead : vpsCurrencies mk db (item :: items) = vpsCurrencies mk db items := by simp [vpsCurrencies, htype]
    rw [hrest, hhead]

theorem addLineItems_nonVmBase (hk : 0 < k) {items : List SubscriptionLineItem} {t t' : Totals}
  (h : addLineItems mk db now sub method k items t = .ok (.inr t')) :
  0 < nonVmBase sub t' ↔ 0 < nonVmBase sub t ∨ items.any (chargedBySubscription sub) = true := by
 induction items generalizing t with
 | nil =>
  obtain rfl := Sum.inr.inj (ok.inj h)
  simp
 | cons item items ih =>
  rw [addLineItems] at h
  by_cases htype : item.subscriptionType = .vps
  · rw [if_pos htype] at h
    obtain ⟨row, -, h⟩ := bind_eq_ok.mp h
    obtain ⟨host, -, h⟩ := bind_eq_ok.mp h
    obtain ⟨-, -, h⟩ := bind_eq_ok.mp h
    obtain ⟨cost, -, h⟩ := bind_eq_ok.mp h
    rcases cost with existing | info
    · cases h
    rw [ih h, any_cons, Bool.or_eq_true, ← or_assoc]
    refine or_congr_left ?_
    cases hsetup : sub.isSetup
    · simp only [nonVmBase, chargedBySubscription, htype, hsetup]
      simp
      omega
    · simp [nonVmBase, chargedBySubscription, htype, hsetup]
  · rw [if_neg htype] at h
    rw [ih h, any_cons, Bool.or_eq_true, ← or_assoc]
    refine or_congr_left ?_
    have hamount : 0 < item.amount * k ↔ 0 < item.amount := by simp [hk]
    cases hsetup : sub.isSetup <;> simp [nonVmBase, chargedBySubscription, htype, hsetup] <;> omega

theorem renewQuote_currency {maxDays intervals : Nat} {q : Quote}
  (h : renewQuote mk db maxDays now sub method intervals = .ok (.inr q)) :
  computedCurrencies mk db now sub method intervals = (listCurrencies mk db sub).map (methodCurrency method) ∧
   q.currency = ((vpsCurrencies mk db (db.listSubscriptionLineItems sub.id)).head?.map (methodCurrency method)).getD
    sub.currency := by
 obtain ⟨-, -, h⟩ := bind_eq_ok.mp h
 obtain ⟨res, hloop, h⟩ := bind_eq_ok.mp h
 rcases res with existing | t
 · cases h
 obtain ⟨⟨nonVmAmount, nonVmRate, nonVmTax, nonVmFee⟩, hnonVm, h⟩ := bind_eq_ok.mp h
 obtain ⟨-, -, h⟩ := bind_eq_ok.mp h
 obtain ⟨-, -, h⟩ := bind_eq_ok.mp h
 obtain rfl := Sum.inr.inj (ok.inj h)
 have hvms : t.vmPaymentInfos.map (·.currency) =
   (vpsCurrencies mk db (db.listSubscriptionLineItems sub.id)).map (methodCurrency method) :=
  addLineItems_currencies hloop
 have hbase := addLineItems_nonVmBase (by omega) hloop
 constructor
 · unfold computedCurrencies listCurrencies
   simp only [hloop, map_append, hvms]
   by_cases hcharged : (db.listSubscriptionLineItems sub.id).any (chargedBySubscription sub) = true
   · have hpos : nonVmBase sub t > 0 := hbase.mpr (.inr hcharged)
     rw [if_pos hpos, if_pos hcharged]
     change priceNonVm mk db sub method (nonVmBase sub t) = _ at hnonVm
     unfold priceNonVm at hnonVm
     rw [if_pos hpos] at hnonVm
     obtain ⟨⟨currency, amount, rate⟩, hconv, -⟩ := bind_eq_ok.mp hnonVm
     have hconv := ofOption_eq_ok.mp hconv
     have hcurrency := getAmountAndRate_currency hconv
     simp [hconv, hcurrency]
   · have hzero : ¬ nonVmBase sub t > 0 := by
      intro hpos
      rcases hbase.mp hpos with h0 | hc
      · simp [nonVmBase] at h0
      · exact hcharged hc
     rw [if_neg hzero, if_neg hcharged]
     rfl
 · simp only [← List.head?_map, hvms]

end Converted

def currencyFailures : List Failure :=
 [.message renewTexts.lightningNotBtc, .message renewTexts.revolutBtc, .message renewTexts.onChainNotBtc]

def keepsCurrency (parts : List Currency) : Except Failure RenewResult → Bool
 | .error e => e ∉ currencyFailures
 | .ok (.existing _) => true
 | .ok (.created _ _ p) => parts.all fun c => c = p.currency

def pricesFit (method : PaymentMethod) : Bool :=
 let vms := vpsCurrencies mk db (db.listSubscriptionLineItems sub.id)
 match method with
 | .lightning | .onChain => !vms.isEmpty || sub.currency = .btc
 | .revolut =>
  let currency := vms.head?.getD sub.currency
  currency ≠ .btc && (listCurrencies mk db sub).all fun c => c = currency
 | .paypal | .stripe => true

def currencyFits (globalMaxPrepayDays : Nat) (now : Int) (sub : Subscription)
  (method : PaymentMethod) (intervals : Nat) : Bool :=
 match renewQuote mk db globalMaxPrepayDays now sub method intervals with
 | .ok (.inr _) => pricesFit mk db sub method
 | _ => true

section Checks

variable {mk : Market} {prov : Providers} {db db' : Db} {now : Int} {sub : Subscription} {method : PaymentMethod}
 {sid uid k maxDays intervals : Nat} {e : Failure} {q : Quote} {p : SubscriptionPayment} {req : ProviderRequest}

theorem addLineItems_error {items : List SubscriptionLineItem} {t : Totals}
  (h : addLineItems mk db now sub method k items t = .error e) : e ∉ currencyFailures := by
 induction items generalizing t with
 | nil => cases h
 | cons item items ih =>
  rw [addLineItems] at h
  by_cases htype : item.subscriptionType = .vps
  · rw [if_pos htype] at h
    rcases bind_eq_error.mp h with h | ⟨vm, -, h⟩
    · simp [← (ofOption_eq_error.mp h).2, currencyFailures]
    rcases bind_eq_error.mp h with h | ⟨host, -, h⟩
    · simp [← (ofOption_eq_error.mp h).2, currencyFailures]
    rcases bind_eq_error.mp h with h | ⟨-, -, h⟩
    · simp [← (ensure_eq_error.mp h).2, currencyFailures]
    rcases bind_eq_error.mp h with h | ⟨cost, -, h⟩
    · simp [← (ofOption_eq_error.mp h).2, currencyFailures]
    rcases cost with existing | info
    · cases h
    · exact ih h
  · rw [if_neg htype] at h
    exact ih h

theorem priceNonVm_error {base : Nat} (h : priceNonVm mk db sub method base = .error e) : e ∉ currencyFailures := by
 unfold priceNonVm at h
 split at h
 · rcases bind_eq_error.mp h with h | ⟨converted, -, h⟩
   · simp [← (ofOption_eq_error.mp h).2, currencyFailures]
   rcases bind_eq_error.mp h with h | ⟨tax, -, h⟩
   · simp [← (ofOption_eq_error.mp h).2, currencyFailures]
   cases h
 · cases h

theorem checkPrepay_error {timeValue : Nat} (h : checkPrepay db maxDays now sub timeValue = .error e) :
  e ∉ currencyFailures := by
 unfold checkPrepay at h
 split at h
 · rcases bind_eq_error.mp h with h | ⟨company, -, h⟩
   · simp [← (ofOption_eq_error.mp h).2, currencyFailures]
   · simp [← (ensure_eq_error.mp h).2, currencyFailures]
 · cases h

theorem renewQuote_error (h : renewQuote mk db maxDays now sub method intervals = .error e) : e ∉ currencyFailures := by
 rcases bind_eq_error.mp h with h | ⟨-, -, h⟩
 · rw [← (ensure_eq_error.mp h).2]
   decide
 rcases bind_eq_error.mp h with h | ⟨res, -, h⟩
 · exact addLineItems_error h
 rcases res with existing | t
 · cases h
 rcases bind_eq_error.mp h with h | ⟨nonVm, -, h⟩
 · exact priceNonVm_error h
 rcases bind_eq_error.mp h with h | ⟨-, -, h⟩
 · exact checkPrepay_error h
 rcases bind_eq_error.mp h with h | ⟨-, -, h⟩
 · simp [← (ensure_eq_error.mp h).2, currencyFailures]
 · cases h

theorem createPayment_currency {texts : MethodTexts}
  (h : createPayment prov texts now sid uid method q = .ok (req, p)) : p.currency = q.currency := by
 cases method with
 | lightning =>
  obtain ⟨-, -, h⟩ := bind_eq_ok.mp h
  obtain ⟨invoice, -, h⟩ := bind_eq_ok.mp h
  cases ok.inj h
  rfl
 | revolut =>
  obtain ⟨order, -, h⟩ := bind_eq_ok.mp h
  obtain ⟨-, -, h⟩ := bind_eq_ok.mp h
  obtain ⟨⟨externalId, rawData⟩, -, h⟩ := bind_eq_ok.mp h
  cases ok.inj h
  rfl
 | onChain =>
  obtain ⟨-, -, h⟩ := bind_eq_ok.mp h
  obtain ⟨address, -, h⟩ := bind_eq_ok.mp h
  cases ok.inj h
  rfl
 | paypal => cases h
 | stripe => cases h

def passesCheck (method : PaymentMethod) (currency : Currency) : Bool :=
 match method with
 | .lightning | .onChain => currency = .btc
 | .revolut => currency ≠ .btc
 | .paypal | .stripe => true

theorem passesCheck_of_btc (hmethod : method = .lightning ∨ method = .onChain) (vms : List Currency) (c : Currency) :
  passesCheck method ((vms.head?.map (methodCurrency method)).getD c) = (!vms.isEmpty || decide (c = .btc)) := by
 have hconv : methodCurrency method = fun _ => .btc := funext fun _ => if_pos hmethod
 rw [hconv]
 cases vms <;> rcases hmethod with rfl | rfl <;> rfl

theorem createPayment_error (hcheck : passesCheck method q.currency = true)
  (h : createPayment prov renewTexts now sid uid method q = .error e) : e ∉ currencyFailures := by
 cases method with
 | lightning =>
  rcases bind_eq_error.mp h with h | ⟨-, -, h⟩
  · have hfails : passesCheck .lightning q.currency = false := (ensure_eq_error.mp h).1
    rw [hfails] at hcheck
    cases hcheck
  rcases bind_eq_error.mp h with h | ⟨invoice, -, h⟩
  · simp [← (ofOption_eq_error.mp h).2, currencyFailures]
  · cases h
 | revolut =>
  rcases bind_eq_error.mp h with h | ⟨order, -, h⟩
  · rw [← (ofOption_eq_error.mp h).2]
    decide
  rcases bind_eq_error.mp h with h | ⟨-, -, h⟩
  · have hfails : passesCheck .revolut q.currency = false := (ensure_eq_error.mp h).1
    rw [hfails] at hcheck
    cases hcheck
  rcases bind_eq_error.mp h with h | ⟨⟨externalId, rawData⟩, -, h⟩
  · simp [← (ofOption_eq_error.mp h).2, currencyFailures]
  · cases h
 | onChain =>
  rcases bind_eq_error.mp h with h | ⟨-, -, h⟩
  · have hfails : passesCheck .onChain q.currency = false := (ensure_eq_error.mp h).1
    rw [hfails] at hcheck
    cases hcheck
  rcases bind_eq_error.mp h with h | ⟨address, -, h⟩
  · simp [← (ofOption_eq_error.mp h).2, currencyFailures]
  · cases h
 | paypal | stripe =>
  cases h
  decide

theorem createPayment_of_check (hcheck : passesCheck method q.currency = false) (hrev : prov.revolut.isSome = true) :
  ∃ e ∈ currencyFailures, createPayment prov renewTexts now sid uid method q = .error e := by
 cases method with
 | lightning =>
  have hne : q.currency ≠ .btc := of_decide_eq_false hcheck
  exact ⟨.message renewTexts.lightningNotBtc, by decide, by simp [createPayment, ensure, hne, bind, Except.bind]⟩
 | revolut =>
  obtain ⟨order, horder⟩ := Option.isSome_iff_exists.mp hrev
  have hbtc : q.currency = .btc := of_not_not (of_decide_eq_false hcheck)
  exact ⟨.message renewTexts.revolutBtc, by decide,
   by simp [createPayment, horder, ofOption, ensure, hbtc, bind, Except.bind]⟩
 | onChain =>
  have hne : q.currency ≠ .btc := of_decide_eq_false hcheck
  exact ⟨.message renewTexts.onChainNotBtc, by decide, by simp [createPayment, ensure, hne, bind, Except.bind]⟩
 | paypal => cases hcheck
 | stripe => cases hcheck

theorem exists_stored_order (hsub : (db.getSubscription sid).isSome = true) (hcheck : q.currency ≠ .btc) :
  ∃ prov db' req p, createPayment prov renewTexts now sid uid .revolut q = .ok (req, p) ∧
   storePayment db (req, p) = .ok (.created db' req p) := by
 obtain ⟨externalId, hext⟩ := Infinite.exists_notMem_finset (db.payments.filterMap (·.externalId)).toFinset
 obtain ⟨id, hid⟩ := Infinite.exists_notMem_finset (db.payments.map (·.id)).toFinset
 simp only [mem_toFinset, mem_filterMap, mem_map, not_exists, not_and] at hext hid
 let prov : Providers := { testProviders with newId := id, revolut := some fun _ _ => some (externalId, "") }
 let row := q.payment now sid uid .revolut id 3600 "" (some externalId)
 have hins : db.insertSubscriptionPayment row = some { db with payments := db.payments ++ [row] } :=
  Db.insertSubscriptionPayment_of_fresh hsub hid fun r hr => .inr (hext r hr)
 refine ⟨prov, { db with payments := db.payments ++ [row] }, ⟨q.currency, q.amount + q.tax + q.processingFee⟩, row,
  ?_, ?_⟩
 · simp only [createPayment, ensure, prov, ofOption, bind, Except.bind, decide_eq_true hcheck]
   rfl
 · simp only [storePayment, hins, ofOption, bind, Except.bind]

theorem keepsCurrency_iff {parts : List Currency} (hsub : (db.getSubscription sid).isSome = true)
  (hparts : method = .lightning ∨ method = .onChain → ∀ c ∈ parts, c = .btc) :
  (∀ prov, keepsCurrency parts (createPayment prov renewTexts now sid uid method q >>= storePayment db) = true) ↔
   passesCheck method q.currency = true ∧ (method = .revolut → ∀ c ∈ parts, c = q.currency) := by
 constructor
 · intro h
   have hcheck : passesCheck method q.currency = true := by
    by_contra hfails
    obtain ⟨e, he, hcreate⟩ : ∃ e ∈ currencyFailures,
      createPayment testProviders renewTexts now sid uid method q = .error e :=
     createPayment_of_check (Bool.eq_false_of_not_eq_true hfails) rfl
    have hkept := h testProviders
    rw [hcreate] at hkept
    exact absurd he (of_decide_eq_true hkept)
   refine ⟨hcheck, ?_⟩
   rintro rfl
   obtain ⟨prov, db', req, p, hcreate, hstore⟩ : ∃ prov db' req p,
     createPayment prov renewTexts now sid uid .revolut q = .ok (req, p) ∧
      storePayment db (req, p) = .ok (.created db' req p) := exists_stored_order hsub (of_decide_eq_true hcheck)
   have hkept := h prov
   rw [hcreate] at hkept
   change keepsCurrency parts (storePayment db (req, p)) = true at hkept
   rw [hstore] at hkept
   simpa [keepsCurrency, createPayment_currency hcreate] using hkept
 · rintro ⟨hcheck, hrevolut⟩ prov
   rcases hcreate : createPayment prov renewTexts now sid uid method q with e | ⟨req, p⟩
   · exact decide_eq_true (createPayment_error hcheck hcreate)
   change keepsCurrency parts (storePayment db (req, p)) = true
   have hall : ∀ c ∈ parts, c = q.currency := by
    cases method with
    | lightning =>
     have hbtc : q.currency = .btc := of_decide_eq_true hcheck
     rw [hbtc]
     exact hparts (.inl rfl)
    | onChain =>
     have hbtc : q.currency = .btc := of_decide_eq_true hcheck
     rw [hbtc]
     exact hparts (.inr rfl)
    | revolut => exact hrevolut rfl
    | paypal => cases hcreate
    | stripe => cases hcreate
   unfold storePayment
   rcases db.insertSubscriptionPayment p with _ | db'
   · rfl
   · simpa [ofOption, bind, Except.bind, keepsCurrency, createPayment_currency hcreate] using hall

end Checks

/-- The currencies of a renewal agree for all answers of the providers exactly under `currencyFits`. -/
theorem payment_currency_iff (mk : Market) (db : Db) (globalMaxPrepayDays : Nat) (now : Int) (sub : Subscription)
  (method : PaymentMethod) (intervals : Nat) (hsub : db.getSubscription sub.id = some sub) :
  (∀ prov, keepsCurrency (computedCurrencies mk db now sub method intervals)
    (renewSubscriptionInner mk prov db globalMaxPrepayDays now sub.id method intervals) = true) ↔
   currencyFits mk db globalMaxPrepayDays now sub method intervals = true := by
 unfold renewSubscriptionInner currencyFits
 simp only [hsub, ofOption, bind, Except.bind]
 rcases hquote : renewQuote mk db globalMaxPrepayDays now sub method intervals with e | p | q
 · have hnone := renewQuote_error hquote
   simp [keepsCurrency, hnone]
 · simp [keepsCurrency]
 obtain ⟨hparts, hcurrency⟩ := renewQuote_currency hquote
 have hbtc : method = .lightning ∨ method = .onChain →
   ∀ c ∈ computedCurrencies mk db now sub method intervals, c = .btc := by
  intro hmethod c hc
  rw [hparts] at hc
  obtain ⟨listed, -, rfl⟩ := mem_map.mp hc
  exact if_pos hmethod
 have hiff : (∀ prov, keepsCurrency (computedCurrencies mk db now sub method intervals)
   (createPayment prov renewTexts now sub.id sub.userId method q >>= storePayment db) = true) ↔ _ :=
  keepsCurrency_iff (by rw [hsub]; rfl) hbtc
 refine hiff.trans ?_
 rw [hcurrency, hparts]
 cases method with
 | lightning | onChain => simp [passesCheck_of_btc, pricesFit]
 | revolut =>
  have hsame : methodCurrency .revolut = id := rfl
  simp [pricesFit, passesCheck, hsame]
 | paypal | stripe => simp [passesCheck, pricesFit]

/-- The VM that is paid until February has its plan in the currency of its subscription, and can be paid by Revolut. -/
theorem payment_currency_one_vm :
  let db := paidUntilFebruary .month
  ∃ sub, db.getSubscription sub.id = some sub ∧
   ∀ prov, keepsCurrency (computedCurrencies flatMarket db (20103 * day) sub .revolut 1)
    (renewSubscriptionInner flatMarket prov db 0 (20103 * day) sub.id .revolut 1) = true :=
 ⟨{ id := 1, expires := some (20120 * day), isActive := true, isSetup := true }, rfl,
  (payment_currency_iff flatMarket (paidUntilFebruary .month) 0 (20103 * day) _ .revolut 1 rfl).mpr
   (by decide +kernel)⟩

def dollarSubscription : Subscription where
 id := 1
 expires := some (20120 * day)
 isActive := true
 isSetup := true
 currency := .usd

def dollarRange (vps : List SubscriptionLineItem) : Db := { paidUntilFebruary .month with
 subscriptions := [dollarSubscription]
 lineItems := vps ++ [{ id := 2, subscriptionId := 1, subscriptionType := .ipRange, amount := 900 }] }

/-- The IP range alone has a price in Bitcoin, but cannot be paid by Lightning; with a VM whose plan is in euro, five
euro and nine dollars become an order of fourteen euro. -/
theorem dollar_range_not_payable :
    (let db := dollarRange []
     let r := renewSubscriptionInner flatMarket testProviders db 0 (20103 * day) 1 .lightning 1
     (r matches .error (.message "Lightning payment must be in BTC")) ∧
       keepsCurrency (computedCurrencies flatMarket db (20103 * day) dollarSubscription .lightning 1) r = false) ∧
    (let db := dollarRange [{ id := 1, subscriptionId := 1, subscriptionType := .vps }]
     let r := renewSubscriptionInner flatMarket testProviders db 0 (20103 * day) 1 .revolut 1
     createdWith (fun _ _ p => p.currency = .eur ∧ p.amount = 500 + 900) r = true ∧
       keepsCurrency (computedCurrencies flatMarket db (20103 * day) dollarSubscription .revolut 1) r = false) := by
  decide +kernel

end Lnvps
