import Lnvps.OnChain
import Lnvps.Renewal
import Lnvps.Upgrade

/-! # Paying for an upgrade -/

namespace Lnvps

open Table Steps Outcome List Option Db CompleteCall

def createVmUpgradePayment (text : IpText) (mk : Market) (qm : PricingEngine.QuoteMath) (prov : Providers)
    (u : CustomDb) (now : Int) (vmId : Nat) (cfg : UpgradeConfig) (method : PaymentMethod) :
    Except Failure RenewResult := do
  let cost ← ofOption .pricing (PricingEngine.calculateVmUpgradeCost text mk qm u now vmId cfg method)
  createVmPayment prov u.db now vmId method {
    amount := cost.upgrade
    currency := cost.currency
    rate := cost.rate
    timeValue := some 0
    tax := cost.tax
    processingFee := cost.processingFee
    paymentType := .upgrade
    metadata := some cfg }

structure Sale where
 (paymentId quoted requested : Nat)

structure UpgradeJob where
 vmId : Nat
 config : UpgradeConfig
 (paymentId received : Nat)

def upgradeJobs (db : Db) (payment : SubscriptionPayment) (received : Nat) (skipped : List Nat) : List UpgradeJob :=
 match payment.paymentType, payment.metadata with
 | .upgrade, some config =>
  ((db.listSubscriptionLineItems payment.subscriptionId).filter fun li => li.subscriptionType = .vps).filterMap
   fun li => (db.getVmByLineItem li.id).bind fun vm =>
    if vm.id ∈ skipped then none else some { vmId := vm.id, config, paymentId := payment.id, received }
 | _, _ => []

structure UpgradeSales where
 tables : CustomDb
 now : Int := 0
 calls : List (CompleteCall × Nat) := []
 sold : List Sale := []
 jobs : List UpgradeJob := []

namespace UpgradeSales

variable (s : UpgradeSales)

def withDb (db : Db) : UpgradeSales := { s with tables := { s.tables with db } }

inductive Label
 | sell (market : Market) (qm : PricingEngine.QuoteMath) (prov : Providers) (vmId : Nat) (cfg : UpgradeConfig)
   (method : PaymentMethod)
 | create (payment : SubscriptionPayment)
 | paid (paymentId received : Nat)
 | detected (engine : AmountPricing) (o : Outpoint) (address : String) (amountMsat : Nat) (lookupFails : Bool)
 | confirmed (engine : AmountPricing) (o : Outpoint) (address : String) (amountMsat : Nat) (lookupFails : Bool)
   (newId : Nat)
 | adminComplete (vmId paymentId : Nat)
 | advance (i : Nat) (fault : Bool) (skipped : List Nat)
 | crash (i : Nat)
 | elsewhere (tables : CustomDb)
 | tick (d : Nat)

def adminJobs (vmId : Nat) (payment : SubscriptionPayment) : List UpgradeJob :=
 if payment.paymentType = .upgrade then
  [{ vmId, config := payment.metadata.getD {}, paymentId := payment.id, received := 0 }]
 else []

def step (text : IpText) (s : UpgradeSales) : Label → Option UpgradeSales
 | .sell market qm prov vmId cfg method =>
  match createVmUpgradePayment text market qm prov s.tables s.now vmId cfg method with
  | .ok (.created db' request payment) => some { s.withDb db' with
    sold := ⟨payment.id, payment.amount + payment.tax, request.amount⟩ :: s.sold }
  | _ => some s
 | .create payment =>
  if payment.isPaid then none
  else do
   let db' ← s.tables.db.insertSubscriptionPayment payment
   some (s.withDb db')
 | .paid paymentId received => do
  let payment ← s.tables.db.getSubscriptionPayment paymentId
  if payment.paymentMethod ≠ .onChain ∧ ∀ sale ∈ s.sold, sale.paymentId = paymentId → sale.requested ≤ received then
   some { s with calls := s.calls ++ [({ payment }, received)] }
  else none
 | .detected engine o address amountMsat lookupFails =>
  some (s.withDb ((handleDetected engine s.tables.db s.now address o amountMsat lookupFails).getD s.tables.db))
 | .confirmed engine o address amountMsat lookupFails newId =>
  match handleDeposit engine s.tables.db s.now address o amountMsat lookupFails newId with
  | .stored db' payment => some { s.withDb db' with calls := s.calls ++ [({ payment }, amountMsat)] }
  | .returned _ => some s
 | .adminComplete vmId paymentId => do
  let payment ← s.tables.db.getSubscriptionPayment paymentId
  let vm ← s.tables.db.getVmBySubscription payment.subscriptionId
  if vm.id ≠ vmId ∨ payment.isPaid then some s
  else do
   let db' ← s.tables.db.subscriptionPaymentPaid s.now payment
   some { s.withDb db' with jobs := s.jobs ++ adminJobs vmId payment }
 | .advance i fault skipped => do
  let (call, received) ← s.calls[i]?
  let (db', call') ← completeStep s.tables.db s.now fault call
  let queued := match call.pc with
   | .lineItems => if fault then [] else upgradeJobs s.tables.db call.payment received skipped
   | _ => []
  some { s.withDb db' with calls := s.calls.set i (call', received), jobs := s.jobs ++ queued }
 | .crash i => some { s with calls := s.calls.eraseIdx i }
 | .elsewhere tables =>
  if tables.db.payments = s.tables.db.payments ∧ tables.db.settlements = s.tables.db.settlements then
   some { s with tables }
  else none
 | .tick d => some { s with now := s.now + d }

def stays (st : Settlement) : Bool := st.before.all fun expires => st.time < expires → st.after = expires

structure Bought (s : UpgradeSales) : Prop where
 noTime : ∀ sale ∈ s.sold, ∀ st ∈ s.tables.db.settlements, st.paymentId = sale.paymentId → stays st = true
 covered : ∀ sale ∈ s.sold, ∀ job ∈ s.jobs, job.paymentId = sale.paymentId → sale.quoted ≤ job.received

def buysNoTime (engine : AmountPricing) (db : Db) (now : Int) (subscriptionId amountMsat : Nat) : Bool :=
 (match db.getVmBySubscription subscriptionId with
  | some vm => engine.getCostByAmount db now vm.id amountMsat
  | none => engine.getSubscriptionCostByAmount db now subscriptionId amountMsat).all fun (cost : CostResult) =>
   match cost with
   | .new info => info.timeValue = 0
   | .existing _ => true

def coversUpgrade (engine : AmountPricing) (amountMsat : Nat) (payment : SubscriptionPayment) : Bool :=
 payment.isPaid ∨ ∀ sale ∈ s.sold, sale.paymentId = payment.id →
  sale.quoted ≤ amountMsat ∧ buysNoTime engine s.tables.db s.now payment.subscriptionId amountMsat

def dealsFairly : Label → Bool
 | .detected engine o address amountMsat lookupFails =>
  (findByKey s.tables.db o.key lookupFails).isSome ||
   (paymentForAddress s.tables.db address).all (coversUpgrade s engine amountMsat)
 | .confirmed engine o address amountMsat lookupFails _ =>
  ((findByKey s.tables.db o.key lookupFails).or (paymentForAddress s.tables.db address)).all
   (coversUpgrade s engine amountMsat)
 | .adminComplete _ paymentId => s.sold.all fun sale => sale.paymentId ≠ paymentId
 | _ => true

section Watcher

variable {engine : AmountPricing} {db db' : Db} {now : Int} {address key : String} {o : Outpoint}
 {payment p q : SubscriptionPayment} {amount newId : Nat} {fails : Bool}

theorem regenerate_time (h : regenerate engine db now payment amount = some q) : q.id = payment.id ∧
  (buysNoTime engine db now payment.subscriptionId amount = true → q.timeValue = some 0) := by
 unfold regenerate at h
 unfold buysNoTime
 cases hvm : db.getVmBySubscription payment.subscriptionId <;> simp only [hvm] at h ⊢
 all_goals
  split at h
  · rename_i info hinfo
    cases h
    rw [hinfo, all_some]
    exact ⟨rfl, fun hno => congrArg some (of_decide_eq_true hno)⟩
  · cases h
  · cases h

theorem handleDetected_cases (h : handleDetected engine db now address o amount fails = some db') :
  db' = db ∨ ∃ payment q, findByKey db o.key fails = none ∧ paymentForAddress db address = some payment ∧
   payment.isPaid = false ∧ regenerate engine db now payment amount = some q ∧
   db.updateSubscriptionPayment { q with externalId := some o.key } = some db' := by
 unfold handleDetected at h
 split at h
 · exact .inl (Option.some.inj h).symm
 rename_i hkey
 split at h
 · exact .inl (Option.some.inj h).symm
 rename_i payment hpay
 split at h
 · exact .inl (Option.some.inj h).symm
 rename_i hopen
 simp only [Bool.or_eq_true, not_or, Bool.not_eq_true] at hopen
 obtain ⟨q, hq, h⟩ := bind_eq_some_iff.mp h
 exact .inr ⟨payment, q, hkey, hpay, hopen.1, hq, h⟩

theorem settleDeposit_cases {priced : Bool}
  (h : settleDeposit engine db now address key amount newId payment priced = .stored db' p) :
  payment.isPaid = true ∧ db.insertSubscriptionPayment p = some db' ∨
   payment.isPaid = false ∧ ∃ q, (q = payment ∨ regenerate engine db now payment amount = some q) ∧
    p = { q with externalId := some key } ∧ db.updateSubscriptionPayment p = some db' := by
 unfold settleDeposit at h
 split at h
 · cases h
 split at h
 swap
 · cases h
 rename_i hstore
 obtain ⟨rfl, rfl⟩ := DepositOutcome.stored.inj h
 split at hstore
 · rename_i hpaid
   obtain ⟨renewal, -, hstore⟩ := bind_eq_some_iff.mp hstore
   obtain ⟨db₁, hins, hstore⟩ := bind_eq_some_iff.mp hstore
   cases hstore
   exact .inl ⟨hpaid, hins⟩
 · rename_i hopen
   obtain ⟨q, hq, hstore⟩ := bind_eq_some_iff.mp hstore
   obtain ⟨db₁, hupd, hstore⟩ := bind_eq_some_iff.mp hstore
   cases hstore
   refine .inr ⟨by simpa using hopen, q, ?_, rfl, hupd⟩
   split at hq
   · exact .inr hq
   · exact .inl (Option.some.inj hq).symm

theorem handleDeposit_cases (h : handleDeposit engine db now address o amount fails newId = .stored db' p) :
  ∃ payment, (findByKey db o.key fails).or (paymentForAddress db address) = some payment ∧
   payment ∈ db.payments ∧
   (payment.isPaid = true ∧ db.insertSubscriptionPayment p = some db' ∨
    payment.isPaid = false ∧ ∃ q, (q = payment ∨ regenerate engine db now payment amount = some q) ∧
     p = { q with externalId := some o.key } ∧ db.updateSubscriptionPayment p = some db') := by
 unfold handleDeposit at h
 split at h
 · rename_i payment hkey
   split at h
   · cases h
   · exact ⟨payment, by simp [hkey], (findByKey_spec hkey).1, settleDeposit_cases h⟩
 rename_i hkey
 split at h
 · rename_i payment hpay
   exact ⟨payment, by simp [hkey, hpay], (paymentForAddress_spec hpay).1, settleDeposit_cases h⟩
 · cases h

end Watcher

def Known (db : Db) (id : Nat) : Prop := ∃ r ∈ db.payments, r.id = id

def Timeless (sold : List Sale) (p : SubscriptionPayment) : Prop :=
 ∀ sale ∈ sold, sale.paymentId = p.id → p.timeValue = some 0

structure DbInv (sold : List Sale) (db : Db) : Prop where
 known : ∀ sale ∈ sold, Known db sale.paymentId
 rows : ∀ r ∈ db.payments, Timeless sold r
 settled : ∀ st ∈ db.settlements, Known db st.paymentId ∧
  ∀ sale ∈ sold, st.paymentId = sale.paymentId → stays st = true

structure Inv (s : UpgradeSales) : Prop where
 tables : DbInv s.sold s.tables.db
 requested : ∀ sale ∈ s.sold, sale.quoted ≤ sale.requested
 calls : ∀ c ∈ s.calls, Known s.tables.db c.1.payment.id ∧ Timeless s.sold c.1.payment ∧
  ∀ sale ∈ s.sold, sale.paymentId = c.1.payment.id → sale.quoted ≤ c.2
 listed : ∀ c ∈ s.calls, ∀ p ∈ c.1.toExpire, Known s.tables.db p.id ∧ Timeless s.sold p
 jobs : ∀ job ∈ s.jobs, Known s.tables.db job.paymentId ∧
  ∀ sale ∈ s.sold, job.paymentId = sale.paymentId → sale.quoted ≤ job.received

section Tables

variable {sold : List Sale} {db db' : Db} {now : Int} {p : SubscriptionPayment} {id : Nat}

def Grows (db db' : Db) : Prop := ∀ id, Known db id → Known db' id

theorem grows_insert (h : db.insertSubscriptionPayment p = some db') : Grows db db' := by
 obtain ⟨-, -, rfl⟩ := insertSubscriptionPayment_eq_some h
 rintro id ⟨r, hr, hid⟩
 exact ⟨r, mem_append_left _ hr, hid⟩

theorem grows_update (h : db.updateSubscriptionPayment p = some db') : Grows db db' := by
 obtain ⟨-, rfl⟩ := updateSubscriptionPayment_eq_some h
 rintro id ⟨r, hr, hid⟩
 by_cases hp : r.id = p.id
 · exact ⟨_, mem_updateWhere_of hr (by simpa using hp), hp.symm.trans hid⟩
 · exact ⟨r, mem_updateWhere_of_not hr (by simpa using hp), hid⟩

theorem grows_settle (h : db.subscriptionPaymentPaid now p = some db') : Grows db db' := by
 rcases subscriptionPaymentPaid_cases h with ⟨rfl, -⟩ | ⟨-, -, -, -, f, -, rfl⟩
 · exact fun _ h => h
 rintro id ⟨r, hr, hid⟩
 by_cases hp : (decide (r.id = p.id) && !r.isPaid) = true
 · exact ⟨_, mem_updateWhere_of hr hp, hid⟩
 · exact ⟨r, mem_updateWhere_of_not hr (by simpa using hp), hid⟩

theorem fresh_of_insert (hi : DbInv sold db) (h : db.insertSubscriptionPayment p = some db') :
  ∀ sale ∈ sold, sale.paymentId ≠ p.id := by
 obtain ⟨hnew, -, -⟩ := insertSubscriptionPayment_eq_some h
 intro sale hsale hid
 obtain ⟨r, hr, hrid⟩ := hi.known sale hsale
 exact hnew r hr (hrid.trans hid)

theorem timeless_of_fresh (h : ∀ sale ∈ sold, sale.paymentId ≠ p.id) : Timeless sold p :=
 fun sale hsale hid => absurd hid (h sale hsale)

theorem known_of_insert (h : db.insertSubscriptionPayment p = some db') : Known db' p.id := by
 obtain ⟨-, -, rfl⟩ := insertSubscriptionPayment_eq_some h
 exact ⟨p, by simp, rfl⟩

theorem DbInv.insert (hi : DbInv sold db) (h : db.insertSubscriptionPayment p = some db') : DbInv sold db' := by
 have hgrows := grows_insert h
 have htimeless := timeless_of_fresh (fresh_of_insert hi h)
 obtain ⟨-, -, rfl⟩ := insertSubscriptionPayment_eq_some h
 refine ⟨fun sale hsale => hgrows _ (hi.known sale hsale), ?_, ?_⟩
 · intro r hr
   rcases mem_snoc.mp hr with hr | rfl
   · exact hi.rows r hr
   · exact htimeless
 · intro st hst
   exact ⟨hgrows _ (hi.settled st hst).1, (hi.settled st hst).2⟩

theorem DbInv.update (hi : DbInv sold db) (h : db.updateSubscriptionPayment p = some db') (hp : Timeless sold p) :
  DbInv sold db' := by
 have hgrows := grows_update h
 obtain ⟨-, rfl⟩ := updateSubscriptionPayment_eq_some h
 refine ⟨fun sale hsale => hgrows _ (hi.known sale hsale), ?_, ?_⟩
 · intro r hr
   obtain ⟨r₀, hr₀, rfl⟩ := mem_updateWhere.mp hr
   split
   · exact hp
   · exact hi.rows r₀ hr₀
 · intro st hst
   exact ⟨hgrows _ (hi.settled st hst).1, (hi.settled st hst).2⟩

theorem DbInv.settle (hi : DbInv sold db) (h : db.subscriptionPaymentPaid now p = some db') (hknown : Known db p.id)
  (hp : Timeless sold p) : DbInv sold db' := by
 have hgrows := grows_settle h
 rcases subscriptionPaymentPaid_cases h with ⟨rfl, -⟩ | ⟨-, -, -, -, f, hf, rfl⟩
 · exact hi
 refine ⟨fun sale hsale => hgrows _ (hi.known sale hsale), ?_, ?_⟩
 · intro r hr
   obtain ⟨r₀, hr₀, rfl⟩ := mem_updateWhere.mp hr
   split <;> exact hi.rows r₀ hr₀
 intro st hst
 rcases mem_append.mp hst with hst | hst
 · exact ⟨hgrows _ (hi.settled st hst).1, (hi.settled st hst).2⟩
 obtain ⟨sub, -, rfl⟩ := mem_map.mp hst
 refine ⟨hgrows _ hknown, ?_⟩
 intro sale hsale hid
 have htime := hp sale hsale hid.symm
 simp only [creditedTime, htime, Option.some.injEq] at hf
 subst hf
 unfold stays
 rcases hexp : sub.expires with _ | expires
 · rfl
 · simp only [all_some, decide_eq_true_eq]
   intro hfuture
   simp [extensionBase, max_eq_left hfuture.le]

end Tables

section Steps

variable {text : IpText} {s t : UpgradeSales} {db' : Db} {p : SubscriptionPayment}

theorem Inv.withTables {tables : CustomDb} (hi : Inv s) (hgrows : Grows s.tables.db tables.db)
  (hdb : DbInv s.sold tables.db) : Inv { s with tables } where
 tables := hdb
 requested := hi.requested
 calls c hc := ⟨hgrows _ (hi.calls c hc).1, (hi.calls c hc).2⟩
 listed c hc p hp := ⟨hgrows _ (hi.listed c hc p hp).1, (hi.listed c hc p hp).2⟩
 jobs job hjob := ⟨hgrows _ (hi.jobs job hjob).1, (hi.jobs job hjob).2⟩

theorem Inv.withDb (hi : Inv s) (hgrows : Grows s.tables.db db') (hdb : DbInv s.sold db') : Inv (s.withDb db') :=
 hi.withTables hgrows hdb

theorem Inv.start {received : Nat} (hi : Inv s) (hknown : Known s.tables.db p.id) (hp : Timeless s.sold p)
  (hcover : ∀ sale ∈ s.sold, sale.paymentId = p.id → sale.quoted ≤ received) :
  Inv { s with calls := s.calls ++ [({ payment := p }, received)] } := by
 refine ⟨hi.tables, hi.requested, ?_, ?_, hi.jobs⟩
 · intro c hc
   rcases mem_snoc.mp hc with hc | rfl
   · exact hi.calls c hc
   · exact ⟨hknown, hp, hcover⟩
 intro c hc q hq
 rcases mem_append.mp hc with hc | hc
 · exact hi.listed c hc q hq
 · rw [mem_singleton.mp hc] at hq
   simp [toExpire] at hq

theorem Inv.queue {jobs : List UpgradeJob} (hi : Inv s)
  (hjobs : ∀ job ∈ jobs, Known s.tables.db job.paymentId ∧
   ∀ sale ∈ s.sold, job.paymentId = sale.paymentId → sale.quoted ≤ job.received) :
  Inv { s with jobs := s.jobs ++ jobs } := by
 refine ⟨hi.tables, hi.requested, hi.calls, hi.listed, ?_⟩
 intro job hjob
 rcases mem_append.mp hjob with hjob | hjob
 · exact hi.jobs job hjob
 · exact hjobs job hjob

theorem mem_upgradeJobs {db : Db} {received : Nat} {skipped : List Nat} {job : UpgradeJob}
  (h : job ∈ upgradeJobs db p received skipped) : job.paymentId = p.id ∧ job.received = received := by
 unfold upgradeJobs at h
 split at h
 · obtain ⟨li, -, h⟩ := mem_filterMap.mp h
   obtain ⟨vm, -, h⟩ := bind_eq_some_iff.mp h
   split at h
   · cases h
   · cases h
     exact ⟨rfl, rfl⟩
 · cases h

theorem le_roundMsatToSat (x : Nat) : x ≤ roundMsatToSat x := by
 unfold roundMsatToSat
 omega

variable {method : PaymentMethod} {request : ProviderRequest} {engine : AmountPricing}

theorem createPayment_covers {prov : Providers} {texts : MethodTexts} {now : Int} {sid uid : Nat} {q : Quote}
  (h : createPayment prov texts now sid uid method q = .ok (request, p)) : p.amount + p.tax ≤ request.amount := by
 cases method with
 | lightning =>
  obtain ⟨-, -, h⟩ := bind_eq_ok.mp h
  obtain ⟨invoice, -, h⟩ := bind_eq_ok.mp h
  cases Except.ok.inj h
  exact le_roundMsatToSat _
 | revolut =>
  obtain ⟨order, -, h⟩ := bind_eq_ok.mp h
  obtain ⟨-, -, h⟩ := bind_eq_ok.mp h
  obtain ⟨ids, -, h⟩ := bind_eq_ok.mp h
  cases Except.ok.inj h
  exact Nat.le_add_right _ _
 | onChain =>
  obtain ⟨-, -, h⟩ := bind_eq_ok.mp h
  obtain ⟨address, -, h⟩ := bind_eq_ok.mp h
  cases Except.ok.inj h
  exact le_roundMsatToSat _
 | paypal => cases h
 | stripe => cases h

theorem createVmUpgradePayment_spec {market : Market} {qm : PricingEngine.QuoteMath} {prov : Providers}
  {u : CustomDb} {now : Int} {vmId : Nat} {cfg : UpgradeConfig}
  (h : createVmUpgradePayment text market qm prov u now vmId cfg method = .ok (.created db' request p)) :
  u.db.insertSubscriptionPayment p = some db' ∧ p.timeValue = some 0 ∧ p.amount + p.tax ≤ request.amount := by
 obtain ⟨cost, -, h⟩ := bind_eq_ok.mp h
 obtain ⟨vm, -, h⟩ := bind_eq_ok.mp h
 obtain ⟨lineItem, -, h⟩ := bind_eq_ok.mp h
 obtain ⟨r, hr, h⟩ := bind_eq_ok.mp h
 obtain ⟨rfl, hins⟩ := storePayment_spec h
 obtain ⟨-, -, htime, -⟩ := createPayment_spec hr
 exact ⟨hins, htime, createPayment_covers hr⟩

theorem Inv.sell {sale : Sale} (hi : Inv s) (hins : s.tables.db.insertSubscriptionPayment p = some db')
  (htime : p.timeValue = some 0) (hid : sale.paymentId = p.id) (hreq : sale.quoted ≤ sale.requested) :
  Inv { s.withDb db' with sold := sale :: s.sold } := by
 have hw := hi.withDb (grows_insert hins) (hi.tables.insert hins)
 have hfresh : ∀ id, Known s.tables.db id → sale.paymentId ≠ id := by
  obtain ⟨hids, -, -⟩ := insertSubscriptionPayment_eq_some hins
  rintro id ⟨r, hr, rfl⟩ heq
  exact hids r hr (heq.symm.trans hid)
 have htimeless : ∀ q : SubscriptionPayment, (Known s.tables.db q.id ∨ q = p) → Timeless s.sold q →
   Timeless (sale :: s.sold) q := by
  intro q hq hold sale' hsale' heq
  rcases mem_cons.mp hsale' with rfl | hsale'
  · rcases hq with hq | rfl
    · exact absurd heq (hfresh _ hq)
    · exact htime
  · exact hold sale' hsale' heq
 obtain ⟨-, -, hdb⟩ := insertSubscriptionPayment_eq_some hins
 refine ⟨⟨?_, ?_, ?_⟩, ?_, ?_, ?_, ?_⟩
 · intro sale' hsale'
   rcases mem_cons.mp hsale' with rfl | hsale'
   · rw [hid]
     exact known_of_insert hins
   · exact hw.tables.known sale' hsale'
 · intro r hr
   refine htimeless r ?_ (hw.tables.rows r hr)
   rw [show (s.withDb db').tables.db = db' from rfl, hdb] at hr
   rcases mem_append.mp hr with hr | hr
   · exact .inl ⟨r, hr, rfl⟩
   · exact .inr (mem_singleton.mp hr)
 · intro st hst
   refine ⟨(hw.tables.settled st hst).1, ?_⟩
   intro sale' hsale' heq
   rcases mem_cons.mp hsale' with rfl | hsale'
   · rw [show (s.withDb db').tables.db = db' from rfl, hdb] at hst
     exact absurd heq.symm (hfresh _ (hi.tables.settled st hst).1)
   · exact (hw.tables.settled st hst).2 sale' hsale' heq
 · intro sale' hsale'
   rcases mem_cons.mp hsale' with rfl | hsale'
   · exact hreq
   · exact hi.requested sale' hsale'
 · intro c hc
   obtain ⟨hknown, hzero, hcover⟩ := hi.calls c hc
   refine ⟨(hw.calls c hc).1, htimeless _ (.inl hknown) hzero, ?_⟩
   intro sale' hsale' heq
   rcases mem_cons.mp hsale' with rfl | hsale'
   · exact absurd heq (hfresh _ hknown)
   · exact hcover sale' hsale' heq
 · intro c hc q hq
   obtain ⟨hknown, hzero⟩ := hi.listed c hc q hq
   exact ⟨(hw.listed c hc q hq).1, htimeless _ (.inl hknown) hzero⟩
 · intro job hjob
   obtain ⟨hknown, hcover⟩ := hi.jobs job hjob
   refine ⟨(hw.jobs job hjob).1, ?_⟩
   intro sale' hsale' heq
   rcases mem_cons.mp hsale' with rfl | hsale'
   · exact absurd heq.symm (hfresh _ hknown)
   · exact hcover sale' hsale' heq

theorem timeless_of_covers {amount : Nat} {payment q : SubscriptionPayment} (hi : Inv s)
  (hmem : payment ∈ s.tables.db.payments) (hopen : payment.isPaid = false)
  (hcovers : coversUpgrade s engine amount payment = true)
  (hq : q = payment ∨ regenerate engine s.tables.db s.now payment amount = some q) :
  q.id = payment.id ∧ Timeless s.sold q ∧ ∀ sale ∈ s.sold, sale.paymentId = q.id → sale.quoted ≤ amount := by
 have hsales : ∀ sale ∈ s.sold, sale.paymentId = payment.id → sale.quoted ≤ amount ∧
   buysNoTime engine s.tables.db s.now payment.subscriptionId amount = true := by
  simpa [coversUpgrade, hopen] using hcovers
 have hid : q.id = payment.id := by
  rcases hq with rfl | hq
  · rfl
  · exact (regenerate_time hq).1
 refine ⟨hid, ?_, ?_⟩
 · intro sale hsale heq
   rcases hq with rfl | hq
   · exact hi.tables.rows q hmem sale hsale heq
   · exact (regenerate_time hq).2 (hsales sale hsale (heq.trans hid)).2
 · intro sale hsale heq
   exact (hsales sale hsale (heq.trans hid)).1

theorem step_advance {i : Nat} {fault : Bool} {skipped : List Nat} (hi : Inv s)
  (h : step text s (.advance i fault skipped) = some t) : Inv t := by
 simp only [step] at h
 obtain ⟨⟨call, received⟩, hcall, h⟩ := bind_eq_some_iff.mp h
 obtain ⟨⟨db', call'⟩, hstep, h⟩ := bind_eq_some_iff.mp h
 cases h
 change completeStep s.tables.db s.now fault call = some (db', call') at hstep
 have hmem : (call, received) ∈ s.calls := mem_of_getElem? hcall
 obtain ⟨hknown, hzero, hcover⟩ := hi.calls _ hmem
 obtain ⟨hpay, -, hcases⟩ := completeStep_cases hstep
 obtain ⟨hgrows, hdb, hlisted⟩ : Grows s.tables.db db' ∧ DbInv s.sold db' ∧
   ∀ p ∈ call'.toExpire, Known s.tables.db p.id ∧ Timeless s.sold p := by
  rcases hcases with ⟨rfl, -, hnew⟩ | ⟨-, hpc', -, hsettle⟩ | ⟨q, rest, hpc, hpc', hupd⟩
  · refine ⟨fun _ h => h, hi.tables, ?_⟩
    intro p hp
    rcases hnew p hp with hp | ⟨hp, -⟩
    · exact hi.listed _ hmem p hp
    · exact ⟨⟨p, hp, rfl⟩, hi.tables.rows p hp⟩
  · refine ⟨grows_settle hsettle, hi.tables.settle hsettle hknown hzero, ?_⟩
    simp [toExpire, hpc']
  · have hlist : ∀ p ∈ q :: rest, Known s.tables.db p.id ∧ Timeless s.sold p := by
     rw [show q :: rest = call.toExpire by simp [toExpire, hpc]]
     exact hi.listed _ hmem
    refine ⟨grows_update hupd, hi.tables.update hupd (hlist q (by simp)).2, ?_⟩
    intro p hp
    exact hlist p (by simp_all [toExpire])
 have hw := hi.withDb hgrows hdb
 have hset : Inv { s.withDb db' with calls := s.calls.set i (call', received) } := by
  refine ⟨hw.tables, hw.requested, ?_, ?_, hw.jobs⟩
  · intro c hc
    rcases mem_or_eq_of_mem_set hc with hc | rfl
    · exact hw.calls c hc
    · rw [hpay]
      exact ⟨hgrows _ hknown, hzero, hcover⟩
  · intro c hc p hp
    rcases mem_or_eq_of_mem_set hc with hc | rfl
    · exact hw.listed c hc p hp
    · exact ⟨hgrows _ (hlisted p hp).1, (hlisted p hp).2⟩
 refine hset.queue ?_
 intro job hjob
 have hof : job.paymentId = call.payment.id ∧ job.received = received := by
  split at hjob
  · split at hjob
    · cases hjob
    · exact mem_upgradeJobs hjob
  · cases hjob
 rw [hof.1, hof.2]
 exact ⟨hgrows _ hknown, fun sale hsale heq => hcover sale hsale heq.symm⟩

theorem step_detected {o : Outpoint} {address : String} {amountMsat : Nat} {lookupFails : Bool}
  (hi : Inv s) (hfair : dealsFairly s (.detected engine o address amountMsat lookupFails) = true)
  (h : step text s (.detected engine o address amountMsat lookupFails) = some t) : Inv t := by
 simp only [step] at h
 cases h
 rcases hd : handleDetected engine s.tables.db s.now address o amountMsat lookupFails with _ | db'
 · exact hi.withDb (fun _ h => h) hi.tables
 rcases handleDetected_cases hd with rfl | ⟨payment, q, hkey, hpay, hopen, hq, hupd⟩
 · exact hi.withDb (fun _ h => h) hi.tables
 have hcovers : coversUpgrade s engine amountMsat payment = true := by
  simpa [dealsFairly, hkey, hpay] using hfair
 obtain ⟨-, hzero, -⟩ :=
  timeless_of_covers hi (paymentForAddress_spec hpay).1 hopen hcovers (.inr hq)
 exact hi.withDb (grows_update hupd) (hi.tables.update hupd hzero)

theorem step_confirmed {o : Outpoint} {address : String} {amountMsat newId : Nat}
  {lookupFails : Bool} (hi : Inv s)
  (hfair : dealsFairly s (.confirmed engine o address amountMsat lookupFails newId) = true)
  (h : step text s (.confirmed engine o address amountMsat lookupFails newId) = some t) : Inv t := by
 simp only [step] at h
 split at h
 · rename_i db' p hd
   cases h
   obtain ⟨payment, hfound, hmem, hcases⟩ := handleDeposit_cases hd
   rcases hcases with ⟨-, hins⟩ | ⟨hopen, q, hq, rfl, hupd⟩
   · have hfresh := fresh_of_insert hi.tables hins
     have hw := hi.withDb (grows_insert hins) (hi.tables.insert hins)
     exact hw.start (known_of_insert hins) (timeless_of_fresh hfresh)
      (fun sale hsale heq => absurd heq (hfresh sale hsale))
   have hcovers : coversUpgrade s engine amountMsat payment = true := by
    simpa [dealsFairly, hfound] using hfair
   obtain ⟨hid, hzero, hcover⟩ := timeless_of_covers hi hmem hopen hcovers hq
   have hw := hi.withDb (grows_update hupd) (hi.tables.update hupd hzero)
   exact hw.start (grows_update hupd _ ⟨payment, hmem, hid.symm⟩) hzero hcover
 · cases h
   exact hi

theorem step_adminComplete {vmId paymentId : Nat} (hi : Inv s)
  (hfair : dealsFairly s (.adminComplete vmId paymentId) = true)
  (h : step text s (.adminComplete vmId paymentId) = some t) : Inv t := by
 simp only [step] at h
 obtain ⟨payment, hpay, h⟩ := bind_eq_some_iff.mp h
 obtain ⟨vm, -, h⟩ := bind_eq_some_iff.mp h
 split at h
 · cases h
   exact hi
 obtain ⟨db', hsettle, h⟩ := bind_eq_some_iff.mp h
 cases h
 have hid : payment.id = paymentId := key_of_lookup hpay
 have hknown : Known s.tables.db payment.id := ⟨payment, mem_of_lookup hpay, rfl⟩
 have hfresh : ∀ sale ∈ s.sold, sale.paymentId ≠ payment.id := by
  rw [hid]
  simpa [dealsFairly] using hfair
 have hw := hi.withDb (grows_settle hsettle) (hi.tables.settle hsettle hknown (timeless_of_fresh hfresh))
 refine hw.queue ?_
 intro job hjob
 have hjob : job.paymentId = payment.id := by
  unfold adminJobs at hjob
  split at hjob
  · rw [mem_singleton.mp hjob]
  · cases hjob
 rw [hjob]
 exact ⟨grows_settle hsettle _ hknown, fun sale hsale heq => absurd heq.symm (hfresh sale hsale)⟩

theorem step_elsewhere {tables : CustomDb} (hi : Inv s)
  (h : step text s (.elsewhere tables) = some t) : Inv t := by
 simp only [step] at h
 split at h
 · rename_i hsame
   cases h
   have hgrows : Grows s.tables.db tables.db := by
    intro id hid
    unfold Known
    rw [hsame.1]
    exact hid
   refine hi.withTables hgrows ⟨fun sale hsale => hgrows _ (hi.tables.known sale hsale), ?_, ?_⟩
   · rw [hsame.1]
     exact hi.tables.rows
   · rw [hsame.2]
     exact fun st hst => ⟨hgrows _ (hi.tables.settled st hst).1, (hi.tables.settled st hst).2⟩
 · cases h

theorem step_inv (l : Label) (hi : Inv s) (hfair : dealsFairly s l = true) (h : step text s l = some t) : Inv t := by
 cases l with
 | sell market qm prov vmId cfg method =>
  simp only [step] at h
  split at h
  · rename_i db' request payment hcreate
    cases h
    obtain ⟨hins, htime, hamount⟩ := createVmUpgradePayment_spec hcreate
    exact hi.sell hins htime rfl hamount
  · cases h
    exact hi
 | create payment =>
  simp only [step] at h
  split at h
  · cases h
  · obtain ⟨db', hins, h⟩ := bind_eq_some_iff.mp h
    cases h
    exact hi.withDb (grows_insert hins) (hi.tables.insert hins)
 | paid paymentId received =>
  simp only [step] at h
  obtain ⟨payment, hpay, h⟩ := bind_eq_some_iff.mp h
  split at h
  · rename_i hpaid
    cases h
    have hmem : payment ∈ s.tables.db.payments := mem_of_lookup hpay
    have hid : payment.id = paymentId := key_of_lookup hpay
    refine hi.start ⟨payment, hmem, rfl⟩ (hi.tables.rows payment hmem) ?_
    intro sale hsale heq
    exact (hi.requested sale hsale).trans (hpaid.2 sale hsale (heq.trans hid))
  · cases h
 | detected engine o address amountMsat lookupFails => exact step_detected hi hfair h
 | confirmed engine o address amountMsat lookupFails newId => exact step_confirmed hi hfair h
 | adminComplete vmId paymentId => exact step_adminComplete hi hfair h
 | advance i fault skipped => exact step_advance hi h
 | crash i =>
  cases h
  refine ⟨hi.tables, hi.requested, ?_, ?_, hi.jobs⟩
  · exact fun c hc => hi.calls c (mem_of_mem_eraseIdx hc)
  · exact fun c hc => hi.listed c (mem_of_mem_eraseIdx hc)
 | elsewhere tables => exact step_elsewhere hi h
 | tick d =>
  cases h
  exact ⟨hi.tables, hi.requested, hi.calls, hi.listed, hi.jobs⟩

end Steps

structure Start (s : UpgradeSales) : Prop where
 calls : s.calls = []
 sold : s.sold = []
 jobs : s.jobs = []
 settlements : s.tables.db.settlements = []

theorem Start.inv {s : UpgradeSales} (h : Start s) : Inv s := by
 refine ⟨⟨?_, ?_, ?_⟩, ?_, ?_, ?_, ?_⟩
 · simp [h.sold]
 · simp [h.sold, Timeless]
 · simp [h.settlements]
 · simp [h.sold]
 · simp [h.calls]
 · simp [h.calls]
 · simp [h.jobs]

/-- In every run whose steps deal fairly an upgrade buys the upgrade and nothing else. -/
theorem upgrades_bought {text : IpText} {s t : UpgradeSales} {ls : List Label} (hstart : Start s)
  (h : RunIf (step text) (fun s l => dealsFairly s l = true) s ls t) : Bought t := by
 have hi : Inv t := h.invariant (fun _ l _ hi hfair => step_inv l hi hfair) hstart.inv
 refine ⟨?_, ?_⟩
 · intro sale hsale st hst hid
   exact (hi.tables.settled st hst).2 sale hsale hid
 · intro sale hsale job hjob hid
   exact (hi.jobs job hjob).2 sale hsale hid

def plainProviders : Providers where
 addInvoice _ _ := some { paymentHash := 7, pr := "lnbc", externalId := none }
 revolut := none
 newOnchainAddress _ := some "bc1q"
 newId := 7

/-- Four cores are sold, paid by Lightning and queued. -/
theorem upgrades_bought_lightning : ∃ ls t, RunIf (step Provisioning.plainText)
  (fun s l => dealsFairly s l = true) { tables := twoPriceLists .x86_64 } ls t ∧ t.sold.length = 1 ∧
   t.jobs.length = 1 ∧ Bought t := by
 obtain ⟨t, hrun, hsold, hjobs⟩ := RunIf.exists_of_execIf (f := step Provisioning.plainText) (c := dealsFairly)
  (s := { tables := twoPriceLists .x86_64 })
  (r := [.sell flatMarket exactMath plainProviders 1 { newCpu := some 4 } .lightning, .paid 7 10000000,
   .advance 0 false [], .advance 0 false []]) (P := fun t => t.sold.length = 1 ∧ t.jobs.length = 1)
  (by decide +kernel)
 exact ⟨_, t, hrun, hsold, hjobs, upgrades_bought ⟨rfl, rfl, rfl, rfl⟩ hrun⟩

/-- Four cores are sold for an on-chain payment of 458 satoshi, and 100 satoshi arrive. They buy three days, and the
upgrade. -/
theorem deposit_buys_time_and_upgrade : ∃ s : UpgradeSales, Start s ∧
  ¬ ∀ ls t, Run (step Provisioning.plainText) s ls t → Bought t := by
 refine ⟨{ tables := twoPriceLists .x86_64 }, ⟨rfl, rfl, rfl, rfl⟩, fun hall => ?_⟩
 obtain ⟨t, hrun, sale, hsale, ⟨st, hst, hid, hmoved⟩, -⟩ : ∃ t, Run (step Provisioning.plainText)
   { tables := twoPriceLists .x86_64 }
   [.sell flatMarket exactMath plainProviders 1 { newCpu := some 4 } .onChain,
    .confirmed OnChain.flatPricing ⟨"aa", 0⟩ "bc1q" 100000 false 8, .advance 0 false [], .advance 0 false []] t ∧
   ∃ sale ∈ t.sold, (∃ st ∈ t.tables.db.settlements, st.paymentId = sale.paymentId ∧ stays st = false) ∧
    ∃ job ∈ t.jobs, job.paymentId = sale.paymentId ∧ job.received < sale.quoted :=
  Run.exists_of_exec (by decide +kernel)
 rw [(hall _ t hrun).noTime sale hsale st hst hid] at hmoved
 cases hmoved

end UpgradeSales

end Lnvps
