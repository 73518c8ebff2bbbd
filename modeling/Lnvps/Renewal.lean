import Lnvps.Lib.Outcome
import Lnvps.Pricing

/-! # Renewing a subscription -/

namespace Lnvps

open Table Outcome List Option Except

inductive Failure
 | db
 | pricing
 | belowMinimum
 | sunset (hostId : Nat)
 | prepay (days : Nat)
 | message (text : String)
 deriving DecidableEq

structure Invoice where
 paymentHash : Nat
 pr : String
 externalId : Option String

structure Providers where
 addInvoice : (amount expire : Nat) → Option Invoice
 revolut : Option (Currency → (amount : Nat) → Option (String × String))
 newOnchainAddress : (amount : Nat) → Option String
 newId : Nat

structure ProviderRequest where
 currency : Currency
 amount : Nat

structure Quote where
 amount : Nat
 currency : Currency
 rate : Rat
 timeValue : Option Nat
 (tax processingFee : Nat)
 paymentType : PaymentType
 metadata : Option UpgradeConfig := none

structure MethodTexts where
 (lightningNotBtc revolutBtc onChainNotBtc stripe : String)

def Quote.payment (q : Quote) (now : Int) (subscriptionId userId : Nat) (method : PaymentMethod) (id validFor : Nat)
  (externalData : String) (externalId : Option String) : SubscriptionPayment where
 id := id
 subscriptionId := subscriptionId
 userId := userId
 created := now
 expires := now + validFor * second
 amount := q.amount
 currency := q.currency
 paymentMethod := method
 paymentType := q.paymentType
 externalData := externalData
 externalId := externalId
 isPaid := false
 rate := q.rate
 timeValue := q.timeValue
 tax := q.tax
 processingFee := q.processingFee
 paidAt := none
 metadata := q.metadata

variable (prov : Providers)

def createPayment (texts : MethodTexts) (now : Int) (subscriptionId userId : Nat)
  (method : PaymentMethod) (q : Quote) : Except Failure (ProviderRequest × SubscriptionPayment) :=
 let payment := q.payment now subscriptionId userId method
 match method with
 | .lightning => do
  ensure (q.currency = .btc) (.message texts.lightningNotBtc)
  let invoiceAmount := roundMsatToSat (q.amount + q.tax)
  let invoice ← ofOption .pricing (prov.addInvoice invoiceAmount 600)
  .ok (⟨.btc, invoiceAmount⟩, payment invoice.paymentHash 600 invoice.pr invoice.externalId)
 | .revolut => do
  let order ← ofOption (.message "Revolut not configured") prov.revolut
  ensure (q.currency ≠ .btc) (.message texts.revolutBtc)
  let orderAmount := q.amount + q.tax + q.processingFee
  let (externalId, rawData) ← ofOption .pricing (order q.currency orderAmount)
  .ok (⟨q.currency, orderAmount⟩, payment prov.newId 3600 rawData (some externalId))
 | .onChain => do
  ensure (q.currency = .btc) (.message texts.onChainNotBtc)
  let invoiceAmount := roundMsatToSat (q.amount + q.tax)
  let address ← ofOption .pricing (prov.newOnchainAddress invoiceAmount)
  .ok (⟨.btc, invoiceAmount⟩, payment prov.newId 3600 address none)
 | .paypal => .error (.message "PayPal not implemented")
 | .stripe => .error (.message texts.stripe)

inductive RenewResult
 | existing (payment : SubscriptionPayment)
 | created (db : Db) (request : ProviderRequest) (payment : SubscriptionPayment)

variable (db : Db)

def storePayment (r : ProviderRequest × SubscriptionPayment) : Except Failure RenewResult := do
 let db' ← ofOption .db (db.insertSubscriptionPayment r.2)
 .ok (.created db' r.1 r.2)

def createVmPayment (now : Int) (vmId : Nat) (method : PaymentMethod) (q : Quote) :
  Except Failure RenewResult := do
 let vm ← ofOption .db (db.getVm vmId)
 let lineItem ← ofOption .db (lookup (·.id) vm.subscriptionLineItemId db.lineItems)
 let r ← createPayment prov {
   lightningNotBtc := "Cannot create invoices for non-BTC currency"
   revolutBtc := "Cannot create revolut orders for BTC currency"
   onChainNotBtc := "Cannot create on-chain payments for non-BTC currency"
   stripe := "Stripe payment creation not yet implemented" }
  now lineItem.subscriptionId vm.userId method q
 storePayment db r

def priceToPaymentWithType (now : Int) (vmId : Nat) (method : PaymentMethod)
  (price : CostResult) (paymentType : PaymentType) : Except Failure RenewResult :=
 match price with
 | .existing p => .ok (.existing p)
 | .new p => createVmPayment prov db now vmId method { p with timeValue := some p.timeValue, paymentType }

structure Totals where
 setupFee : Nat := 0
 vmPaymentInfos : List NewPaymentInfo := []
 nonVmIntervalCost : Nat := 0

def addLineItems (mk : Market) (db : Db) (now : Int) (sub : Subscription) (method : PaymentMethod) (intervals : Nat) :
  List SubscriptionLineItem → Totals → Except Failure (SubscriptionPayment ⊕ Totals)
 | [], t => .ok (.inr t)
 | item :: items, t =>
  if item.subscriptionType = .vps then do
   let vm ← ofOption .db (db.getVmByLineItem item.id)
   let host ← ofOption .db (db.getHost vm.hostId)
   ensure (host.sunsetDate.all fun sunsetDate => sub.expires.getD now < sunsetDate) (.sunset host.id)
   let cost ← ofOption .pricing (getVmCostForIntervals mk db now vm.id method intervals)
   match cost with
   | .existing p => .ok (.inl p)
   | .new p => addLineItems mk db now sub method intervals items { t with
     vmPaymentInfos := t.vmPaymentInfos ++ [p]
     setupFee := t.setupFee + item.setupAmount }
  else addLineItems mk db now sub method intervals items { t with
   nonVmIntervalCost := t.nonVmIntervalCost + item.amount * intervals
   setupFee := t.setupFee + item.setupAmount }

def priceNonVm (mk : Market) (db : Db) (sub : Subscription) (method : PaymentMethod) (base : Nat) :
    Except Failure (Nat × Rat × Nat × Nat) :=
  if base > 0 then do
    let (currency, amount, rate) ← ofOption .pricing (getAmountAndRate mk sub.currency base method)
    let tax ← ofOption .pricing (mk.determineTax sub.userId amount sub.companyId)
    .ok (amount, rate, tax, calculateProcessingFee f64 mk db sub.companyId method currency (amount + tax))
  else .ok (0, 0, 0, 0)

def prepayDays (company : Company) (globalMaxPrepayDays : Nat) : Nat :=
 if company.maxPrepayDays > 0 then company.maxPrepayDays else globalMaxPrepayDays

def checkPrepay (globalMaxPrepayDays : Nat) (now : Int) (sub : Subscription) (timeValue : Nat) :
  Except Failure Unit :=
 if timeValue > 0 then do
  let company ← ofOption .db (db.getCompany sub.companyId)
  let maxPrepayDays := prepayDays company globalMaxPrepayDays
  ensure (maxPrepayDays = 0 ∨ quoteBase now sub.expires + timeValue * second ≤ now + maxPrepayDays * day)
   (.prepay maxPrepayDays)
 else .ok ()

def renewQuote (mk : Market) (db : Db) (globalMaxPrepayDays : Nat) (now : Int) (sub : Subscription)
  (method : PaymentMethod) (intervals : Nat) : Except Failure (SubscriptionPayment ⊕ Quote) := do
 let intervals := max intervals 1
 let lineItems := db.listSubscriptionLineItems sub.id
 ensure (!lineItems.isEmpty) (.message "Subscription has no line items")
 match ← addLineItems mk db now sub method intervals lineItems {} with
 | .inl p => .ok (.inl p)
 | .inr t =>
  let paymentType := if sub.isSetup then PaymentType.renewal else .purchase
  let setupFeeDue := if sub.isSetup then 0 else t.setupFee
  let (nonVmAmount, nonVmRate, nonVmTax, nonVmFee) ←
   priceNonVm mk db sub method (t.nonVmIntervalCost + setupFeeDue)
  let timeValue := (t.vmPaymentInfos.map (·.timeValue)).sum
  checkPrepay db globalMaxPrepayDays now sub timeValue
  let q : Quote := {
   amount := (t.vmPaymentInfos.map (·.amount)).sum + nonVmAmount
   currency := (t.vmPaymentInfos.head?.map (·.currency)).getD sub.currency
   rate := (t.vmPaymentInfos.head?.map (·.rate)).getD nonVmRate
   timeValue := if timeValue > 0 then some timeValue else none
   tax := (t.vmPaymentInfos.map (·.tax)).sum + nonVmTax
   processingFee := (t.vmPaymentInfos.map (·.processingFee)).sum + nonVmFee
   paymentType }
  ensure (enforceMinAmount mk db sub.companyId method q.currency (q.amount + q.tax + q.processingFee)) .belowMinimum
  .ok (.inr q)

def renewTexts : MethodTexts where
 lightningNotBtc := "Lightning payment must be in BTC"
 revolutBtc := "Cannot create Revolut orders for BTC currency"
 onChainNotBtc := "On-chain payment must be in BTC"
 stripe := "Stripe not implemented"

def renewSubscriptionInner (mk : Market) (prov : Providers) (db : Db) (globalMaxPrepayDays : Nat) (now : Int)
  (subscriptionId : Nat) (method : PaymentMethod) (intervals : Nat) : Except Failure RenewResult := do
 let sub ← ofOption .db (db.getSubscription subscriptionId)
 match ← renewQuote mk db globalMaxPrepayDays now sub method intervals with
 | .inl p => .ok (.existing p)
 | .inr q => do
  let r ← createPayment prov renewTexts now subscriptionId sub.userId method q
  storePayment db r

section Created

variable {mk : Market} {prov : Providers} {texts : MethodTexts} {db db' : Db} {now : Int} {sid uid : Nat}
 {method : PaymentMethod} {q : Quote} {req : ProviderRequest} {p : SubscriptionPayment}

theorem createPayment_spec (h : createPayment prov texts now sid uid method q = .ok (req, p)) :
  p.subscriptionId = sid ∧ p.isPaid = false ∧ p.timeValue = q.timeValue ∧
   p.gross = q.amount + q.tax + q.processingFee ∧
   (method = .revolut ∧ req.amount = q.amount + q.tax + q.processingFee ∨
    (method = .lightning ∨ method = .onChain) ∧ req.amount = roundMsatToSat (q.amount + q.tax)) := by
 cases method with
 | lightning =>
  obtain ⟨-, -, h⟩ := bind_eq_ok.mp h
  obtain ⟨invoice, -, h⟩ := bind_eq_ok.mp h
  cases ok.inj h
  exact ⟨rfl, rfl, rfl, rfl, .inr ⟨.inl rfl, rfl⟩⟩
 | revolut =>
  obtain ⟨order, -, h⟩ := bind_eq_ok.mp h
  obtain ⟨-, -, h⟩ := bind_eq_ok.mp h
  obtain ⟨ids, -, h⟩ := bind_eq_ok.mp h
  cases ok.inj h
  exact ⟨rfl, rfl, rfl, rfl, .inl ⟨rfl, rfl⟩⟩
 | onChain =>
  obtain ⟨-, -, h⟩ := bind_eq_ok.mp h
  obtain ⟨address, -, h⟩ := bind_eq_ok.mp h
  cases ok.inj h
  exact ⟨rfl, rfl, rfl, rfl, .inr ⟨.inr rfl, rfl⟩⟩
 | paypal => cases h
 | stripe => cases h

theorem storePayment_spec {r : ProviderRequest × SubscriptionPayment}
  (h : storePayment db r = .ok (.created db' req p)) : r = (req, p) ∧ db.insertSubscriptionPayment p = some db' := by
 obtain ⟨db₁, hins, h⟩ := bind_eq_ok.mp h
 obtain ⟨rfl, rfl, rfl⟩ := RenewResult.created.inj (ok.inj h)
 exact ⟨rfl, ofOption_eq_ok.mp hins⟩

theorem renewSubscriptionInner_created {maxDays intervals : Nat}
  (h : renewSubscriptionInner mk prov db maxDays now sid method intervals = .ok (.created db' req p)) :
  ∃ sub q texts, db.getSubscription sid = some sub ∧
   renewQuote mk db maxDays now sub method intervals = .ok (.inr q) ∧
   createPayment prov texts now sid sub.userId method q = .ok (req, p) ∧
   db.insertSubscriptionPayment p = some db' := by
 obtain ⟨sub, hsub, h⟩ := bind_eq_ok.mp h
 obtain ⟨res, hquote, h⟩ := bind_eq_ok.mp h
 rcases res with existing | q
 · cases h
 · obtain ⟨r, hr, h⟩ := bind_eq_ok.mp h
   obtain ⟨rfl, hins⟩ := storePayment_spec h
   exact ⟨sub, q, _, ofOption_eq_ok.mp hsub, hquote, hr, hins⟩

theorem renewQuote_spec {sub : Subscription} {maxDays intervals : Nat}
  (h : renewQuote mk db maxDays now sub method intervals = .ok (.inr q)) :
  ∃ t, addLineItems mk db now sub method (max intervals 1) (db.listSubscriptionLineItems sub.id) {} = .ok (.inr t) ∧
   let timeValue := (t.vmPaymentInfos.map (·.timeValue)).sum
   checkPrepay db maxDays now sub timeValue = .ok () ∧
    q.timeValue = if timeValue > 0 then some timeValue else none := by
 obtain ⟨-, -, h⟩ := bind_eq_ok.mp h
 obtain ⟨res, hloop, h⟩ := bind_eq_ok.mp h
 rcases res with existing | t
 · cases h
 obtain ⟨⟨nonVmAmount, nonVmRate, nonVmTax, nonVmFee⟩, -, h⟩ := bind_eq_ok.mp h
 obtain ⟨_, hprepay, h⟩ := bind_eq_ok.mp h
 obtain ⟨-, -, h⟩ := bind_eq_ok.mp h
 obtain rfl := Sum.inr.inj (ok.inj h)
 exact ⟨t, hloop, hprepay, rfl⟩

end Created

variable (method : PaymentMethod)

def expectedRequest (gross : Nat) : Nat :=
 match method with
 | .lightning | .onChain => roundMsatToSat gross
 | _ => gross

def feeRequested (amount tax processingFee : Nat) : Bool :=
 method = .revolut ∨ amount + tax + processingFee ≤ roundMsatToSat (amount + tax)

theorem roundMsatToSat_eq_iff (x fee : Nat) :
  roundMsatToSat x = roundMsatToSat (x + fee) ↔ x + fee ≤ roundMsatToSat x := by
 unfold roundMsatToSat
 omega

variable {p : SubscriptionPayment}

private theorem createPayment_request_iff {prov : Providers} {texts : MethodTexts} {now : Int} {sid uid : Nat}
  {method : PaymentMethod} {q : Quote} {req : ProviderRequest}
  (h : createPayment prov texts now sid uid method q = .ok (req, p)) :
  req.amount = expectedRequest method p.gross ↔ feeRequested method q.amount q.tax q.processingFee = true := by
 obtain ⟨-, -, -, hgross, ⟨rfl, hreq⟩ | ⟨hm, hreq⟩⟩ := createPayment_spec h
 · simp [expectedRequest, feeRequested, hreq, hgross]
 · rw [hreq, hgross]
   rcases hm with rfl | rfl <;> simp [expectedRequest, feeRequested, roundMsatToSat_eq_iff]

theorem requested_amount_iff (mk : Market) (prov : Providers) (db db' : Db) (now : Int) (method : PaymentMethod)
  (req : ProviderRequest) (p : SubscriptionPayment) :
  (∀ maxDays sid intervals sub q, db.getSubscription sid = some sub →
   renewQuote mk db maxDays now sub method intervals = .ok (.inr q) →
   renewSubscriptionInner mk prov db maxDays now sid method intervals = .ok (.created db' req p) →
    (req.amount = expectedRequest method p.gross ↔ feeRequested method q.amount q.tax q.processingFee = true)) ∧
  (∀ vmId info paymentType,
   priceToPaymentWithType prov db now vmId method (.new info) paymentType = .ok (.created db' req p) →
    (req.amount = expectedRequest method p.gross ↔
     feeRequested method info.amount info.tax info.processingFee = true)) := by
 constructor
 · intro maxDays sid intervals sub q hsub hquote h
   obtain ⟨sub₁, q₁, texts, hsub₁, hquote₁, hr, -⟩ := renewSubscriptionInner_created h
   cases hsub.symm.trans hsub₁
   obtain rfl := Sum.inr.inj (Except.ok.inj (hquote.symm.trans hquote₁))
   exact createPayment_request_iff hr
 · intro vmId info paymentType h
   obtain ⟨vm, -, h⟩ := bind_eq_ok.mp h
   obtain ⟨lineItem, -, h⟩ := bind_eq_ok.mp h
   obtain ⟨r, hr, h⟩ := bind_eq_ok.mp h
   obtain ⟨rfl, -⟩ := storePayment_spec h
   exact createPayment_request_iff hr

def testProviders : Providers where
 addInvoice _ _ := some ⟨7, "lnbc1", none⟩
 revolut := some fun _ _ => some ("order", "raw")
 newOnchainAddress _ := some "bc1q"
 newId := 7

def flatFee : Db := { paidUntilFebruary .month with
 paymentMethods :=
  [{ companyId := 0, paymentMethod := method, processingFeeRate := some 0, processingFeeBase := some 1000 }] }

def createdWith (P : Db → ProviderRequest → SubscriptionPayment → Bool) : Except Failure RenewResult → Bool
 | .ok (.created db req p) => P db req p
 | _ => false

theorem exists_of_createdWith {P : Db → ProviderRequest → SubscriptionPayment → Bool} {r : Except Failure RenewResult}
  (h : createdWith P r = true) : ∃ db req p, r = .ok (.created db req p) ∧ P db req p = true := by
 unfold createdWith at h
 split at h
 · rename_i db req p
   exact ⟨db, req, p, rfl, h⟩
 · cases h

/-- With the fee on Revolut orders, the order is over the gross amount. -/
theorem requested_amount_revolut : ∃ db' req p,
  renewSubscriptionInner flatMarket testProviders (flatFee .revolut) 0 (20103 * day) 1 .revolut 1 =
   .ok (.created db' req p) ∧ p.processingFee = 1000 ∧ req.amount = expectedRequest .revolut p.gross := by
 obtain ⟨db', req, p, h, hfee⟩ := exists_of_createdWith
  (show createdWith (fun _ _ p => p.processingFee = 1000) (renewSubscriptionInner flatMarket testProviders
   (flatFee .revolut) 0 (20103 * day) 1 .revolut 1) = true from by decide +kernel)
 obtain ⟨sub, q, -, hsub, hq, -, -⟩ := renewSubscriptionInner_created h
 have hiff := (requested_amount_iff flatMarket testProviders (flatFee .revolut) db' (20103 * day) .revolut req p).1
 exact ⟨db', req, p, h, of_decide_eq_true hfee, (hiff _ _ _ _ _ hsub hq h).mpr rfl⟩

/-- With the fee on on-chain payments, 500 satoshi are requested and 501 are booked. -/
theorem onchain_request_without_fee :
  ¬ ∀ (mk : Market) (prov : Providers) (db db' : Db) (now : Int) (method : PaymentMethod)
   (maxDays sid intervals : Nat) (req : ProviderRequest) (p : SubscriptionPayment),
    renewSubscriptionInner mk prov db maxDays now sid method intervals = .ok (.created db' req p) →
     req.amount = expectedRequest method p.gross := by
 intro h
 obtain ⟨db', req, p, hr, hvals⟩ := exists_of_createdWith
  (show createdWith (fun _ req p => req.amount = 500000 ∧ p.gross = 501000) (renewSubscriptionInner flatMarket
   testProviders (flatFee .onChain) 0 (20103 * day) 1 .onChain 1) = true from by decide +kernel)
 obtain ⟨hreq, hgross⟩ := of_decide_eq_true hvals
 have hall := h _ _ _ _ _ _ _ _ _ _ _ hr
 rw [hreq, hgross] at hall
 exact absurd hall (by decide)

def vpsLineItems (subscriptionId : Nat) : List SubscriptionLineItem :=
 (db.listSubscriptionLineItems subscriptionId).filter fun item => item.subscriptionType = .vps

def sameInterval (sub : Subscription) : Bool :=
 (vpsLineItems db sub.id).all fun item => (db.getVmByLineItem item.id).all fun vm =>
  vmSpan db vm = some (billingSpan sub.intervalType sub.intervalAmount)

def creditsIntervals (span : Calendar.Span) (vms k : Nat) (quoteDay settleDay : Int) : Bool :=
 match vms with
 | 0 => span.count = 0 ∨ k = 1
 | 1 => k * (span.nextDay quoteDay - quoteDay) = (span.scale k).nextDay settleDay - settleDay
 | _ => span.count = 0

theorem billingSpan_scale (ty : IntervalType) (amount k : Nat) :
  billingSpan ty (k * amount) = (billingSpan ty amount).scale k := by
 cases ty <;> simp [billingSpan, Calendar.Span.scale, Nat.mul_left_comm]

section Credits

variable {mk : Market} {prov : Providers} {db : Db} {now : Int} {sub : Subscription} {method : PaymentMethod}
 {k : Nat}

theorem vm_of_vpsLineItem (hvms : Keyed (·.id) db.vms) (hitems : Keyed (·.id) db.lineItems)
  (hsub : db.getSubscription sub.id = some sub) {item : SubscriptionLineItem} {vm : Vm}
  (hitem : item ∈ db.listSubscriptionLineItems sub.id) (hvm : db.getVmByLineItem item.id = some vm) :
  db.getVm vm.id = some vm ∧ vmSubscriptionExpires db vm = sub.expires := by
 have hmem := mem_of_find?_eq_some hvm
 have hli := List.find?_some hvm
 simp only [decide_eq_true_eq] at hli
 obtain ⟨hitem, hsid⟩ := mem_filter.mp hitem
 simp only [decide_eq_true_eq] at hsid
 constructor
 · exact hvms.lookup_of_mem hmem
 · have hrow : lookup (·.id) item.id db.lineItems = some item := hitems.lookup_of_mem hitem
   unfold vmSubscriptionExpires Db.getSubscriptionByLineItemId
   rw [hli.1, hrow, bind_eq_bind, bind_eq_bind, bind_some, hsid, hsub, bind_some]

variable {span : Calendar.Span} {vms : Nat}

theorem addLineItems_time (hk : 1 ≤ k) {items : List SubscriptionLineItem} {t t' : Totals}
  (hvm : ∀ item ∈ items, item.subscriptionType = .vps → ∀ vm, db.getVmByLineItem item.id = some vm →
   db.getVm vm.id = some vm ∧ vmSubscriptionExpires db vm = sub.expires ∧ vmSpan db vm = some span)
  (h : addLineItems mk db now sub method k items t = .ok (.inr t')) :
  (t'.vmPaymentInfos.map (·.timeValue)).sum = (t.vmPaymentInfos.map (·.timeValue)).sum +
   (items.filter fun item => item.subscriptionType = .vps).length * (quotedSeconds span now sub.expires * k) := by
 induction items generalizing t with
 | nil =>
  obtain rfl := Sum.inr.inj (ok.inj h)
  simp
 | cons item items ih =>
  have hvm' := fun i hi => hvm i (mem_cons_of_mem _ hi)
  rw [addLineItems] at h
  by_cases htype : item.subscriptionType = .vps
  · rw [if_pos htype] at h
    obtain ⟨vm, hrow, h⟩ := bind_eq_ok.mp h
    obtain ⟨host, -, h⟩ := bind_eq_ok.mp h
    obtain ⟨-, -, h⟩ := bind_eq_ok.mp h
    obtain ⟨cost, hcost, h⟩ := bind_eq_ok.mp h
    rcases cost with existing | info
    · cases h
    obtain ⟨hget, hexp, hspan⟩ := hvm item mem_cons_self htype vm (ofOption_eq_ok.mp hrow)
    obtain ⟨vm₁, span₁, hget₁, hspan₁, htime, -⟩ := getVmCostForIntervals_time (ofOption_eq_ok.mp hcost)
    cases hget.symm.trans hget₁
    cases hspan.symm.trans hspan₁
    rw [hexp, Nat.max_eq_left hk] at htime
    have hrest := ih hvm' h
    rw [filter_cons_of_pos (by simpa using htype), length_cons, hrest, Nat.add_mul, Nat.one_mul]
    simp only [map_append, map_cons, map_nil, sum_append, sum_singleton, htime]
    omega
  · rw [if_neg htype] at h
    have hrest := ih hvm' h
    rw [filter_cons_of_neg (by simpa using htype)]
    exact hrest

theorem renewQuote_time {maxDays : Nat} {q : Quote} (hvms : Keyed (·.id) db.vms) (hitems : Keyed (·.id) db.lineItems)
  (hsub : db.getSubscription sub.id = some sub) (hsame : sameInterval db sub = true) (hk : 1 ≤ k)
  (h : renewQuote mk db maxDays now sub method k = .ok (.inr q)) :
  q.timeValue =
   let timeValue := (vpsLineItems db sub.id).length *
    (quotedSeconds (billingSpan sub.intervalType sub.intervalAmount) now sub.expires * k)
   if timeValue > 0 then some timeValue else none := by
 obtain ⟨t, hloop, -, hq⟩ := renewQuote_spec h
 rw [Nat.max_eq_left hk] at hloop
 have hvm : ∀ item ∈ db.listSubscriptionLineItems sub.id, item.subscriptionType = .vps → ∀ vm,
   db.getVmByLineItem item.id = some vm → db.getVm vm.id = some vm ∧ vmSubscriptionExpires db vm = sub.expires ∧
    vmSpan db vm = some (billingSpan sub.intervalType sub.intervalAmount) := by
  intro item hitem htype vm hvm
  obtain ⟨hget, hexp⟩ := vm_of_vpsLineItem hvms hitems hsub hitem hvm
  have hspan := all_eq_true.mp hsame item (mem_filter.mpr ⟨hitem, by simpa using htype⟩)
  rw [hvm, all_some, decide_eq_true_eq] at hspan
  exact ⟨hget, hexp, hspan⟩
 have htime := addLineItems_time hk hvm hloop
 rw [map_nil, sum_nil, Nat.zero_add] at htime
 rw [hq, htime]
 rfl

theorem creditsIntervals_iff {quoteDay settleDay : Int} (hk : 1 ≤ k) :
  ((if vms = 0 ∨ span.count = 0 then span.nextDay settleDay - settleDay
   else vms * k * (span.nextDay quoteDay - quoteDay)) = (span.scale k).nextDay settleDay - settleDay) ↔
   creditsIntervals span vms k quoteDay settleDay = true := by
 have hscale := span.nextDay_scale_eq_iff k settleDay
 unfold creditsIntervals
 by_cases hzero : span.count = 0
 · have hq := span.nextDay_of_count_eq_zero hzero quoteDay
   have hs := hscale.mpr (.inl hzero)
   rw [if_pos (.inr hzero), hs]
   rcases vms with _ | _ | vms <;> simp [hzero, hq, ← hs, span.nextDay_of_count_eq_zero hzero]
 rcases vms with _ | _ | vms
 · rw [if_pos (.inl rfl)]
   simp only [decide_eq_true_eq, ← hscale]
   omega
 · simp [hzero]
 have hlt := span.nextDay_scale_lt (by omega) hk (show 2 ≤ vms + 1 + 1 by omega) quoteDay settleDay
 rw [if_neg (by omega)]
 simp only [decide_eq_true_eq]
 omega

theorem quotedTime_eq_zero_iff (expires : Option Int) (hk : 1 ≤ k) :
  vms * (quotedSeconds span now expires * k) = 0 ↔ vms = 0 ∨ span.count = 0 := by
 have hquoted := quotedSeconds_eq span now expires
 have hzero : quotedSeconds span now expires = 0 ↔ span.count = 0 := by
  generalize Db.extensionBase now expires / day = d at hquoted
  by_cases h : span.count = 0
  · rw [span.nextDay_of_count_eq_zero h] at hquoted
    unfold day second at hquoted
    omega
  · have hlt := span.lt_nextDay (Nat.pos_of_ne_zero h) d
    unfold day second at hquoted
    omega
 rw [Nat.mul_eq_zero, Nat.mul_eq_zero, hzero]
 omega

theorem creditedTime_quoted {expires : Option Int} {p : SubscriptionPayment}
  {f : Int → Int} {sub₂ : Subscription} (base : Int) (hk : 1 ≤ k)
  (hsub : db.getSubscription p.subscriptionId = some sub₂)
  (hspan : billingSpan sub₂.intervalType sub₂.intervalAmount = span)
  (htime : p.timeValue = let timeValue := vms * (quotedSeconds span now expires * k)
   if timeValue > 0 then some timeValue else none) (hf : db.creditedTime p = some f) :
  f base = base + day * (if vms = 0 ∨ span.count = 0 then span.nextDay (base / day) - base / day
   else vms * k * (span.nextDay (Db.extensionBase now expires / day) - Db.extensionBase now expires / day)) := by
 have hzero : vms * (quotedSeconds span now expires * k) = 0 ↔ _ := quotedTime_eq_zero_iff expires hk
 unfold Db.creditedTime at hf
 by_cases h : vms = 0 ∨ span.count = 0
 · rw [if_neg (by rw [hzero.mpr h]; decide)] at htime
   rw [htime, hsub] at hf
   cases hf
   change addInterval sub₂.intervalType sub₂.intervalAmount base = _
   rw [if_pos h, addInterval, hspan, Calendar.Span.next]
 · have hpos := Nat.pos_of_ne_zero (mt hzero.mp h)
   rw [if_pos hpos] at htime
   rw [htime] at hf
   cases hf
   have hquoted := quotedSeconds_eq span now expires
   rw [if_neg h]
   push_cast
   linear_combination (vms : Int) * k * hquoted

theorem credits_intervals_iff {maxDays sid : Nat} {db₁ db₂ db₃ : Db} {req : ProviderRequest} {p : SubscriptionPayment}
  {sub₂ : Subscription} {t : Int} (hvms : Keyed (·.id) db.vms) (hitems : Keyed (·.id) db.lineItems)
  (hsub : db.getSubscription sid = some sub) (hsame : sameInterval db sub = true) (hk : 1 ≤ k)
  (hrenew : renewSubscriptionInner mk prov db maxDays now sid method k = .ok (.created db₁ req p))
  (hopen : ∃ r ∈ db₂.payments, r.id = p.id ∧ r.isPaid = false) (hsub₂ : db₂.getSubscription sid = some sub₂)
  (htype : sub₂.intervalType = sub.intervalType) (hamount : sub₂.intervalAmount = sub.intervalAmount)
  (hpaid : db₂.subscriptionPaymentPaid t p = some db₃) :
  ∃ sub₃, db₃.getSubscription sid = some sub₃ ∧
   (sub₃.expires =
     some (addInterval sub.intervalType (k * sub.intervalAmount) (Db.extensionBase t sub₂.expires)) ↔
    creditsIntervals (billingSpan sub.intervalType sub.intervalAmount) (vpsLineItems db sub.id).length k
     (Db.extensionBase now sub.expires / day) (Db.extensionBase t sub₂.expires / day) = true) := by
 obtain ⟨sub₁, q, texts, hsub₁, hquote, hcreate, -⟩ := renewSubscriptionInner_created hrenew
 cases hsub.symm.trans hsub₁
 obtain rfl : sub.id = sid := key_of_lookup hsub
 obtain ⟨hsid, -, htv, -, -⟩ := createPayment_spec hcreate
 have htime := htv.trans (renewQuote_time hvms hitems hsub hsame hk hquote)
 obtain ⟨r, hr, hrid, hunpaid⟩ := hopen
 rcases Db.subscriptionPaymentPaid_cases hpaid with ⟨-, hall⟩ | ⟨-, -, -, -, f, hf, rfl⟩
 · rw [hall r hr hrid] at hunpaid
   cases hunpaid
 refine ⟨{ sub₂ with
  expires := some (f (Db.extensionBase t sub₂.expires)), isActive := true, isSetup := true }, ?_, ?_⟩
 · rw [Db.getSubscription_extendSubscription, hsid,
    show ((db₂.markPaid t p).undeleteVms sub.id).getSubscription sub.id = some sub₂ from hsub₂, map_some,
    if_pos (key_of_lookup hsub₂)]
 have hcredit := creditedTime_quoted (Db.extensionBase t sub₂.expires) hk (hsid ▸ hsub₂)
  (by rw [htype, hamount]) htime hf
 rw [← creditsIntervals_iff hk, Option.some.injEq, hcredit, addInterval, billingSpan_scale, Calendar.Span.next]
 unfold day second
 omega

end Credits

def lineItemsOf (ty : IntervalType) (types : List SubscriptionType) : Db := { paidUntilFebruary ty with
 subscriptions := [{ id := 1, expires := some (20120 * day), isActive := true, isSetup := true, intervalType := ty }]
 lineItems := types.mapIdx fun i subscriptionType => { id := i, subscriptionId := 1, subscriptionType, amount := 500 }
 vms := types.mapIdx fun i _ => { id := i, hostId := 1, templateId := some 1, subscriptionLineItemId := i } }

def settlesTo (t expires : Int) (db : Db) (p : SubscriptionPayment) : Bool :=
 (db.payments.any fun r => r.id = p.id ∧ r.isPaid = false) &&
  (db.subscriptionPaymentPaid t p).any fun db' =>
   ((db'.getSubscription p.subscriptionId).bind (·.expires)) = some expires

theorem settlesTo_spec {t expires : Int} {db : Db} (h : settlesTo t expires db p = true) :
  (∃ r ∈ db.payments, r.id = p.id ∧ r.isPaid = false) ∧ ∃ db', db.subscriptionPaymentPaid t p = some db' ∧
   ((db'.getSubscription p.subscriptionId).bind (·.expires)) = some expires := by
 obtain ⟨hopen, hset⟩ := Bool.and_eq_true_iff.mp h
 obtain ⟨r, hr, hopen⟩ := any_eq_true.mp hopen
 obtain ⟨db', hdb', hexp⟩ := (any_eq_true _ _).mp hset
 exact ⟨⟨r, hr, of_decide_eq_true hopen⟩, db', hdb', of_decide_eq_true hexp⟩

/-- On 15 January a VM with an address range is renewed for three days, and the three days are credited. -/
theorem credits_intervals_three_days : ∃ db₁ req p db₃ sub₃,
  renewSubscriptionInner flatMarket testProviders (lineItemsOf .day [.vps, .ipRange]) 0 (20103 * day) 1 .lightning 3 =
   .ok (.created db₁ req p) ∧ db₁.subscriptionPaymentPaid (20103 * day) p = some db₃ ∧
   db₃.getSubscription 1 = some sub₃ ∧ sub₃.expires = some (addInterval .day (3 * 1) (20120 * day)) := by
 obtain ⟨db₁, req, p, hrenew, hset⟩ := exists_of_createdWith
  (show createdWith (fun db _ p => settlesTo (20103 * day) (20123 * day) db p) (renewSubscriptionInner flatMarket
   testProviders (lineItemsOf .day [.vps, .ipRange]) 0 (20103 * day) 1 .lightning 3) = true from by decide +kernel)
 obtain ⟨hopen, db₃, hpaid, -⟩ := settlesTo_spec hset
 obtain ⟨_, _, _, -, -, -, hins⟩ := renewSubscriptionInner_created hrenew
 obtain ⟨-, -, rfl⟩ := Db.insertSubscriptionPayment_eq_some hins
 obtain ⟨sub₃, hsub₃, hiff⟩ := credits_intervals_iff (by decide) (by decide) rfl (by decide) (by decide) hrenew hopen
  rfl rfl rfl hpaid
 exact ⟨_, req, p, db₃, sub₃, hrenew, hpaid, hsub₃, hiff.mpr (by decide)⟩

/-- On 15 January two VMs on one subscription are renewed for a month, and twice the days of February are credited. -/
theorem two_vms_credit_two_months :
  ¬ ∀ (mk : Market) (prov : Providers) (db db₁ db₂ db₃ : Db) (now t : Int) (method : PaymentMethod)
   (maxDays sid k : Nat) (sub sub₂ : Subscription) (req : ProviderRequest) (p : SubscriptionPayment),
    Keyed (·.id) db.vms → Keyed (·.id) db.lineItems → db.getSubscription sid = some sub →
    sameInterval db sub = true → 1 ≤ k →
    renewSubscriptionInner mk prov db maxDays now sid method k = .ok (.created db₁ req p) →
    (∃ r ∈ db₂.payments, r.id = p.id ∧ r.isPaid = false) → db₂.getSubscription sid = some sub₂ →
    sub₂.intervalType = sub.intervalType → sub₂.intervalAmount = sub.intervalAmount →
    db₂.subscriptionPaymentPaid t p = some db₃ →
     ∃ sub₃, db₃.getSubscription sid = some sub₃ ∧ sub₃.expires =
      some (addInterval sub.intervalType (k * sub.intervalAmount) (Db.extensionBase t sub₂.expires)) := by
 intro h
 obtain ⟨db₁, req, p, hrenew, hset⟩ := exists_of_createdWith
  (show createdWith (fun db _ p => settlesTo (20103 * day) (20176 * day) db p) (renewSubscriptionInner flatMarket
   testProviders (lineItemsOf .month [.vps, .vps]) 0 (20103 * day) 1 .lightning 1) = true from by decide +kernel)
 obtain ⟨hopen, db₃, hpaid, hexp⟩ := settlesTo_spec hset
 obtain ⟨_, _, _, -, -, hcreate, hins⟩ := renewSubscriptionInner_created hrenew
 obtain ⟨-, -, rfl⟩ := Db.insertSubscriptionPayment_eq_some hins
 obtain ⟨sub₃, hsub₃, hall⟩ := h _ _ _ _ _ _ _ _ _ _ _ _ _ _ _ _ (by decide) (by decide) rfl (by decide) (by decide)
  hrenew hopen rfl rfl rfl hpaid
 rw [(createPayment_spec hcreate).1, hsub₃, bind_some, hall] at hexp
 exact absurd hexp (by decide)

end Lnvps
