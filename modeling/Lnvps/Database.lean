import Lnvps.Model

/-! # The billing tables and their queries -/

namespace Lnvps

open Table

structure Settlement where
 (paymentId subscriptionId : Nat)
 time : Int
 before : Option Int
 after : Int
 deriving DecidableEq

structure Db where
 subscriptions : List Subscription := []
 lineItems : List SubscriptionLineItem := []
 payments : List SubscriptionPayment := []
 vms : List Vm := []
 vmHistory : List VmHistory := []
 templates : List VmTemplate := []
 costPlans : List VmCostPlan := []
 hosts : List VmHost := []
 companies : List Company := []
 paymentMethods : List PaymentMethodConfig := []
 settlements : List Settlement := []
 deriving DecidableEq

namespace Db

variable (db : Db)

def getSubscription (id : Nat) : Option Subscription := lookup (·.id) id db.subscriptions

def getSubscriptionPayment (id : Nat) : Option SubscriptionPayment := lookup (·.id) id db.payments

def getSubscriptionPaymentByExtId (externalId : String) : Option SubscriptionPayment :=
 lookup (·.externalId) (some externalId) db.payments

def listSubscriptionPaymentsByMethod (method : PaymentMethod) : List SubscriptionPayment :=
 db.payments.filter fun p => p.paymentMethod = method

def listSubscriptionLineItems (subscriptionId : Nat) : List SubscriptionLineItem :=
 db.lineItems.filter fun li => li.subscriptionId = subscriptionId

def getSubscriptionByLineItemId (lineItemId : Nat) : Option Subscription := do
 let li ← lookup (·.id) lineItemId db.lineItems
 db.getSubscription li.subscriptionId

def getVm (id : Nat) : Option Vm := lookup (·.id) id db.vms

def getSubscriptionLineItem (id : Nat) : Option SubscriptionLineItem := lookup (·.id) id db.lineItems

def getHost (id : Nat) : Option VmHost := lookup (·.id) id db.hosts

def getCompany (id : Nat) : Option Company := lookup (·.id) id db.companies

def getVmTemplate (id : Nat) : Option VmTemplate := lookup (·.id) id db.templates

def getCostPlan (id : Nat) : Option VmCostPlan := lookup (·.id) id db.costPlans

def getVmCompanyId (vmId : Nat) : Option Nat := do
 let vm ← db.getVm vmId
 let host ← db.getHost vm.hostId
 some host.companyId

def getPaymentMethodConfigForCompany (companyId : Nat) (method : PaymentMethod) : Option PaymentMethodConfig :=
 db.paymentMethods.find? fun c => c.companyId = companyId ∧ c.paymentMethod = method

def getVmBySubscription (subscriptionId : Nat) : Option Vm :=
 db.vms.find? fun v => db.lineItems.any fun sli =>
  sli.id = v.subscriptionLineItemId ∧ sli.subscriptionId = subscriptionId ∧ sli.subscriptionType = .vps

def getVmByLineItem (lineItemId : Nat) : Option Vm :=
 db.vms.find? fun v => v.subscriptionLineItemId = lineItemId ∧ !v.deleted

def listVmHistory (vmId : Nat) : List VmHistory := db.vmHistory.filter fun h => h.vmId = vmId

def listPendingVmSubscriptionPayments (now : Int) (vmId : Nat) : List SubscriptionPayment :=
 (db.payments.filter fun sp =>
  (db.lineItems.any fun sli => sli.subscriptionId = sp.subscriptionId ∧
   db.vms.any fun v => v.subscriptionLineItemId = sli.id ∧ v.id = vmId) ∧
  !sp.isPaid ∧ sqlNow now < sp.expires).insertionSort fun p q => q.created ≤ p.created

def listLifecycleSubscriptions : List Subscription :=
 db.subscriptions.filter fun s => s.isActive ∧ s.expires.isSome

variable (payment : SubscriptionPayment)

def paymentAllowed : Bool :=
 (db.payments.all fun p => p.id = payment.id ∨ payment.externalId = none ∨ p.externalId ≠ payment.externalId) &&
  (db.getSubscription payment.subscriptionId).isSome

def insertSubscriptionPayment : Option Db :=
 if db.payments.all (fun p => p.id ≠ payment.id) ∧ db.paymentAllowed payment then
  some { db with payments := db.payments ++ [payment] }
 else none

def updateSubscriptionPayment : Option Db :=
 if db.paymentAllowed payment then
  some { db with
   payments := updateWhere (fun p => p.id = payment.id) (fun p => { payment with paidAt := p.paidAt }) db.payments }
 else none

def updateSubscription (subscription : Subscription) : Db :=
 { db with
   subscriptions := updateWhere (fun s => s.id = subscription.id)
    (fun s => { subscription with created := s.created }) db.subscriptions }

def updateVm (vm : Vm) : Db :=
 { db with
   vms := updateWhere (fun v => v.id = vm.id) (fun v => { v with
    templateId := vm.templateId
    customTemplateId := vm.customTemplateId
    subscriptionLineItemId := vm.subscriptionLineItemId
    diskId := vm.diskId
    macAddress := vm.macAddress }) db.vms }

def updateSubscriptionLineItem (item : SubscriptionLineItem) : Db :=
 { db with lineItems := updateWhere (fun i => i.id = item.id) (fun _ => item) db.lineItems }

def deleteVm (id : Nat) : Db :=
 { db with vms := updateWhere (fun v => v.id = id) (fun v => { v with deleted := true }) db.vms }

def extensionBase (now : Int) (expires : Option Int) : Int := max (expires.getD (sqlNow now)) (sqlNow now)

def extendSubscription (now : Int) (paymentId subscriptionId : Nat) (f : Int → Int) : Db :=
 { db with
   subscriptions := updateWhere (fun s => s.id = subscriptionId)
    (fun s => { s with expires := some (f (extensionBase now s.expires)), isActive := true, isSetup := true })
    db.subscriptions
   settlements := db.settlements ++ (db.getSubscription subscriptionId).toList.map fun s =>
    { paymentId, subscriptionId, time := sqlNow now, before := s.expires, after := f (extensionBase now s.expires) } }

def markPaid (now : Int) (payment : SubscriptionPayment) : Db :=
 { db with
   payments := updateWhere (fun p => p.id = payment.id && !p.isPaid)
    (fun p => { p with isPaid := true, externalData := payment.externalData, paidAt := some (sqlNow now) })
    db.payments }

def undeleteVms (subscriptionId : Nat) : Db :=
 { db with
   vms := updateWhere (fun v => db.lineItems.any fun li => li.subscriptionId = subscriptionId ∧
    li.id = v.subscriptionLineItemId) (fun v => { v with deleted := false }) db.vms }

def creditedTime : Option (Int → Int) :=
 match payment.timeValue with
 | some timeValue => some (· + timeValue * second)
 | none => (db.getSubscription payment.subscriptionId).map fun sub => addInterval sub.intervalType sub.intervalAmount

def subscriptionPaymentPaid (now : Int) (payment : SubscriptionPayment) : Option Db :=
 if db.payments.any fun p => p.id = payment.id && !p.isPaid then do
  let db' := (db.markPaid now payment).undeleteVms payment.subscriptionId
  let f ← db'.creditedTime payment
  some (db'.extendSubscription now payment.id payment.subscriptionId f)
 else some db

def credits (paymentId : Nat) : Nat := db.settlements.countP fun s => s.paymentId = paymentId

section Settle

variable {db db' : Db} {now : Int} {payment : SubscriptionPayment}

theorem le_creditedTime {f : Int → Int} (h : db.creditedTime payment = some f) (base : Int) : base ≤ f base := by
 unfold creditedTime at h
 split at h
 · rename_i timeValue _
   cases h
   have := Int.mul_nonneg (Int.natCast_nonneg timeValue) (show (0 : Int) ≤ second by decide)
   change base ≤ base + timeValue * second
   omega
 · obtain ⟨sub, -, rfl⟩ := Option.map_eq_some_iff.mp h
   exact le_addInterval _ _ _

theorem subscriptionPaymentPaid_cases (h : db.subscriptionPaymentPaid now payment = some db') :
  (db' = db ∧ ∀ r ∈ db.payments, r.id = payment.id → r.isPaid = true) ∨
  ∃ r ∈ db.payments, r.id = payment.id ∧ r.isPaid = false ∧
   ∃ f, db.creditedTime payment = some f ∧
    db' = ((db.markPaid now payment).undeleteVms payment.subscriptionId).extendSubscription now payment.id
     payment.subscriptionId f := by
 unfold subscriptionPaymentPaid at h
 split at h
 · rename_i hany
   right
   obtain ⟨r, hr, hc⟩ := List.any_eq_true.mp hany
   simp only [Bool.and_eq_true, decide_eq_true_eq, Bool.not_eq_true'] at hc
   obtain ⟨f, hf, he⟩ := Option.bind_eq_some_iff.mp h
   exact ⟨r, hr, hc.1, hc.2, f, hf, (Option.some.inj he).symm⟩
 · rename_i hany
   left
   refine ⟨(Option.some.inj h).symm, ?_⟩
   intro r hr hid
   rcases hp : r.isPaid with _ | _
   · exact absurd (List.any_eq_true.mpr ⟨r, hr, by simp [hid, hp]⟩) hany
   · rfl

end Settle

end Db

end Lnvps
