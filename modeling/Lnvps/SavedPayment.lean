import Lnvps.Renewal

/-! # Charging a saved payment method -/

namespace Lnvps

open Table Outcome

inductive SavedProvider
 | nwc
 | revolut
 | other
 deriving DecidableEq

structure UserPaymentMethod where
 (id userId : Nat)
 provider : SavedProvider
 externalCustomerId : Option String := none
 externalId : String
 (expMonth expYear : Option Nat := none)
 isDefault : Bool := false
 enabled : Bool := true

def UserPaymentMethod.isExpired (m : UserPaymentMethod) (year month : Int) : Bool :=
 match m.expYear, m.expMonth with
 | some expYear, some expMonth => expYear < year ∨ expYear = year ∧ expMonth < month
 | _, _ => false

variable (methods : List UserPaymentMethod)

def listUserPaymentMethods (userId : Nat) (provider : SavedProvider) : List UserPaymentMethod :=
 (methods.filter fun m => m.userId = userId ∧ m.provider = provider).insertionSort fun a b =>
  b.isDefault < a.isDefault ∨ a.isDefault = b.isDefault ∧ a.id ≤ b.id

def revolutPaymentMethod (now : Int) (userId : Nat) (methodId : Option Nat) : Except Failure UserPaymentMethod :=
 let thisMonth := Calendar.monthOf (now / day)
 let usable := (listUserPaymentMethods methods userId .revolut).filter fun m =>
  m.enabled && !m.isExpired (thisMonth / 12) (thisMonth % 12 + 1)
 match methodId with
 | some id => ofOption (.message "Saved Revolut payment method not usable") (usable.find? fun m => m.id = id)
 | none => ofOption (.message "No usable saved Revolut payment method") usable.head?

def nwcPaymentMethod (userId : Nat) : Except Failure UserPaymentMethod :=
 ofOption (.message "No NWC payment method configured")
  ((listUserPaymentMethods methods userId .nwc).find? fun m => m.enabled)

inductive Charge
 | order (externalId : String)
 | invoice (pr : String)
 deriving DecidableEq

def Charge.isFor : Charge → SubscriptionPayment → Bool
 | .order externalId, row => row.externalId = some externalId
 | .invoice pr, row => row.paymentMethod = .lightning ∧ row.externalData = pr

inductive ChargeAnswer
 | submitted (externalId rawData : String)
 | rejected
 | lost (externalId : String)

inductive PayAnswer
 | paid
 | rejected
 | lost

structure Collectors where
 addInvoice : (amount expire : Nat) → Option Invoice
 newOnchainAddress : (amount : Nat) → Option String
 newId : Nat
 revolut : Option ((customerId methodId : String) → Currency → (amount : Nat) → ChargeAnswer)
 payInvoice : (connection pr : String) → PayAnswer

structure Faults where
 (quote methods insert : Bool := false)
 polls : Nat → Option Db
 deadline : Nat

structure SavedOutcome where
 result : Except Failure SubscriptionPayment
 db : Db
 charges : List Charge

section Call

variable (col : Collectors) (faults : Faults) (methods : List UserPaymentMethod) (now : Int)

def savedMethod (find : Except Failure UserPaymentMethod) : Except Failure UserPaymentMethod :=
 if faults.methods then .error .db else find

def chargeSaved (userId : Nat) (methodId : Option Nat) (q : Quote) : Except Failure ChargeAnswer := do
 let charge ← ofOption (.message "Revolut not configured") col.revolut
 ensure (q.currency ≠ .btc) (.message renewTexts.revolutBtc)
 let method ← savedMethod faults (revolutPaymentMethod methods now userId methodId)
 let customerId ← ofOption (.message "Revolut method missing customer id") method.externalCustomerId
 .ok (charge customerId method.externalId q.currency (q.amount + q.tax + q.processingFee))

def createSavedPayment (sub : Subscription) (method : PaymentMethod) (methodId : Option Nat) (q : Quote) :
  List Charge × Except Failure SubscriptionPayment :=
 match method with
 | .revolut =>
  match chargeSaved col faults methods now sub.userId methodId q with
  | .error e => ([], .error e)
  | .ok .rejected => ([], .error .pricing)
  | .ok (.lost externalId) => ([.order externalId], .error .pricing)
  | .ok (.submitted externalId rawData) =>
   ([.order externalId], .ok (q.payment now sub.id sub.userId .revolut col.newId 3600 rawData (some externalId)))
 | method =>
  let prov : Providers := {
   addInvoice := col.addInvoice
   revolut := none
   newOnchainAddress := col.newOnchainAddress
   newId := col.newId }
  ([], (createPayment prov renewTexts now sub.id sub.userId method q).map (·.2))

def pollSettled (id : Nat) : (k left : Nat) → Except Failure SubscriptionPayment
 | k, left =>
  match (faults.polls k).bind fun db => db.getSubscriptionPayment id with
  | none => .error .db
  | some latest =>
   if latest.isPaid then .ok latest
   else
    match left with
    | 0 => .ok latest
    | left + 1 => pollSettled id (k + 1) left

def collectSavedPayment (payment : SubscriptionPayment) : List Charge × Except Failure SubscriptionPayment :=
 if payment.paymentMethod = .lightning then
  match savedMethod faults (nwcPaymentMethod methods payment.userId) with
  | .error e => ([], .error e)
  | .ok nwc =>
   match col.payInvoice nwc.externalId payment.externalData with
   | .rejected => ([], .error .pricing)
   | .lost => ([.invoice payment.externalData], .error .pricing)
   | .paid => ([.invoice payment.externalData], pollSettled faults payment.id 0 faults.deadline)
 else ([], pollSettled faults payment.id 0 faults.deadline)

def savedQuote (mk : Market) (db : Db) (globalMaxPrepayDays subscriptionId : Nat) (method : PaymentMethod)
  (intervals : Nat) : Except Failure (Subscription × (SubscriptionPayment ⊕ Quote)) :=
 if faults.quote then .error .db
 else do
  let sub ← ofOption .db (db.getSubscription subscriptionId)
  let quote ← renewQuote mk db globalMaxPrepayDays now sub method intervals
  .ok (sub, quote)

def storeSaved (db : Db) (charges : List Charge) (payment : SubscriptionPayment) : SavedOutcome :=
 match if faults.insert then none else db.insertSubscriptionPayment payment with
 | none => ⟨.error .db, db, charges⟩
 | some db' =>
  let (charges', result) := collectSavedPayment col faults methods payment
  ⟨result, db', charges ++ charges'⟩

def renewSaved (mk : Market) (db : Db) (globalMaxPrepayDays subscriptionId : Nat) (method : PaymentMethod)
  (intervals : Nat) (methodId : Option Nat) : SavedOutcome :=
 match savedQuote faults now mk db globalMaxPrepayDays subscriptionId method intervals with
 | .error e => ⟨.error e, db, []⟩
 | .ok (_, .inl existing) => ⟨.ok existing, db, []⟩
 | .ok (sub, .inr q) =>
  match createSavedPayment col faults methods now sub method methodId q with
  | (charges, .error e) => ⟨.error e, db, charges⟩
  | (charges, .ok payment) => storeSaved col faults methods db charges payment

end Call

def SavedOutcome.faithful (o : SavedOutcome) : Bool :=
 match o.result with
 | .ok p =>
  match o.charges with
  | [c] => o.db.payments.any fun row => row.id = p.id ∧ c.isFor row
  | _ => false
 | .error _ => o.charges.all fun c => o.db.payments.any fun row => c.isFor row

def storable (col : Collectors) (faults : Faults) (db : Db) : Bool :=
 !faults.insert && db.payments.all fun p => p.id ≠ col.newId

def carried (db : Db) (externalId : String) : Bool := db.payments.any fun p => p.externalId = some externalId

def chargesKept (col : Collectors) (faults : Faults) (methods : List UserPaymentMethod) (now : Int) (mk : Market)
  (db : Db) (globalMaxPrepayDays subscriptionId : Nat) (method : PaymentMethod) (intervals : Nat)
  (methodId : Option Nat) : Bool :=
 match savedQuote faults now mk db globalMaxPrepayDays subscriptionId method intervals with
 | .error _ => true
 | .ok (_, .inl _) => false
 | .ok (sub, .inr q) =>
  match method with
  | .revolut =>
   match chargeSaved col faults methods now sub.userId methodId q with
   | .ok (.submitted externalId _) => storable col faults db || carried db externalId
   | .ok (.lost externalId) => carried db externalId
   | _ => true
  | .onChain => q.currency ≠ .btc || (col.newOnchainAddress (roundMsatToSat (q.amount + q.tax))).isNone ||
    !storable col faults db || (pollSettled faults col.newId 0 faults.deadline).toOption.isNone
  | _ => true

section Kept

variable {col : Collectors} {faults : Faults} {methods : List UserPaymentMethod} {now : Int} {mk : Market} {db db' : Db}
 {maxDays sid intervals : Nat} {methodId : Option Nat} {sub : Subscription} {q : Quote} {p : SubscriptionPayment}

theorem pollSettled_id {id k left : Nat} (h : pollSettled faults id k left = .ok p) : p.id = id := by
 induction left generalizing k with
 | zero =>
  unfold pollSettled at h
  split at h
  · cases h
  · rename_i latest hget
    obtain ⟨db, -, hget⟩ := Option.bind_eq_some_iff.mp hget
    split at h <;> obtain rfl := Except.ok.inj h <;> exact key_of_lookup hget
 | succ left ih =>
  unfold pollSettled at h
  split at h
  · cases h
  rename_i latest hget
  obtain ⟨db, -, hget⟩ := Option.bind_eq_some_iff.mp hget
  split at h
  · cases h
    exact key_of_lookup hget
  · exact ih h

theorem storable_iff : storable col faults db = true ↔ faults.insert = false ∧ ∀ r ∈ db.payments, r.id ≠ col.newId := by
 simp [storable]

theorem faithful_of_row {c : Charge} {result : Except Failure SubscriptionPayment} (hrow : p ∈ db'.payments)
  (hfor : c.isFor p = true) (hid : ∀ r, result = .ok r → r.id = p.id) :
  (SavedOutcome.mk result db' [c]).faithful = true := by
 unfold SavedOutcome.faithful
 rcases result with e | r
 · simpa using ⟨p, hrow, hfor⟩
 · simpa using ⟨p, hrow, (hid r rfl).symm, hfor⟩

theorem storeSaved_cases (charges : List Charge) (p : SubscriptionPayment) :
  ((if faults.insert then none else db.insertSubscriptionPayment p) = none ∧
    storeSaved col faults methods db charges p = ⟨.error .db, db, charges⟩) ∨
   ∃ db', p ∈ db'.payments ∧ faults.insert = false ∧ db.insertSubscriptionPayment p = some db' ∧
    storeSaved col faults methods db charges p = ⟨(collectSavedPayment col faults methods p).2, db',
     charges ++ (collectSavedPayment col faults methods p).1⟩ := by
 unfold storeSaved
 rcases hins : (if faults.insert then none else db.insertSubscriptionPayment p) with _ | db'
 · exact .inl ⟨rfl, rfl⟩
 right
 rcases hfault : faults.insert with _ | _
 · rw [hfault] at hins
   obtain ⟨-, -, hdb⟩ := Db.insertSubscriptionPayment_eq_some hins
   exact ⟨db', by simp [hdb], rfl, hins, rfl⟩
 · rw [hfault] at hins
   cases hins

theorem storeSaved_lightning (hmethod : p.paymentMethod = .lightning) :
  (storeSaved col faults methods db [] p).faithful = true := by
 rcases storeSaved_cases [] p with ⟨-, h⟩ | ⟨db', hrow, -, -, h⟩
 · rw [h]
   rfl
 rw [h, List.nil_append]
 have hfor : (Charge.invoice p.externalData).isFor p = true := by simp [Charge.isFor, hmethod]
 unfold collectSavedPayment
 rw [if_pos hmethod]
 split
 · rfl
 split
 · rfl
 · exact faithful_of_row hrow hfor (by simp)
 · exact faithful_of_row hrow hfor fun r hr => pollSettled_id hr

theorem storeSaved_revolut {externalId : String} (hmethod : p.paymentMethod = .revolut)
  (hext : p.externalId = some externalId) (hid : p.id = col.newId)
  (hsub : (db.getSubscription p.subscriptionId).isSome = true) :
  (storeSaved col faults methods db [.order externalId] p).faithful = true ↔
   (storable col faults db || carried db externalId) = true := by
 have hfor : (Charge.order externalId).isFor p = true := by simp [Charge.isFor, hext]
 rcases storeSaved_cases [.order externalId] p with ⟨hnone, h⟩ | ⟨db', hrow, hfault, hins, h⟩
 · rw [h]
   have hlost : storable col faults db = true → carried db externalId = true := by
    intro hstorable
    obtain ⟨hfault, hfresh⟩ := storable_iff.mp hstorable
    by_contra hcarried
    have hnew : ∀ r ∈ db.payments, p.externalId = none ∨ r.externalId ≠ p.externalId := by
     simpa [carried, hext] using hcarried
    rw [hfault, Db.insertSubscriptionPayment_of_fresh hsub (by rw [hid]; exact hfresh) hnew] at hnone
    cases hnone
   rw [Bool.or_eq_true, or_iff_right_of_imp hlost]
   simp [SavedOutcome.faithful, carried, Charge.isFor]
 · have hstorable : storable col faults db = true := by
    obtain ⟨hfresh, -, -⟩ := Db.insertSubscriptionPayment_eq_some hins
    exact storable_iff.mpr ⟨hfault, by rw [← hid]; exact hfresh⟩
   rw [h, hstorable, Bool.true_or]
   unfold collectSavedPayment
   rw [if_neg (by simp [hmethod]), List.append_nil]
   simp only [iff_true]
   exact faithful_of_row hrow hfor fun r hr => pollSettled_id hr

theorem storeSaved_onChain (hmethod : p.paymentMethod = .onChain) (hext : p.externalId = none)
  (hid : p.id = col.newId) (hsub : (db.getSubscription p.subscriptionId).isSome = true) :
  (storeSaved col faults methods db [] p).faithful = true ↔
   (!storable col faults db || (pollSettled faults col.newId 0 faults.deadline).toOption.isNone) = true := by
 rcases storeSaved_cases [] p with ⟨hnone, h⟩ | ⟨db', hrow, hfault, hins, h⟩
 · rw [h]
   have hnot : storable col faults db = false := by
    rw [← Bool.not_eq_true, storable_iff]
    rintro ⟨hfault, hfresh⟩
    rw [hfault, Db.insertSubscriptionPayment_of_fresh hsub (by rw [hid]; exact hfresh) (fun _ _ => .inl hext)]
     at hnone
    cases hnone
   simp [SavedOutcome.faithful, hnot]
 · have hstorable : storable col faults db = true := by
    obtain ⟨hfresh, -, -⟩ := Db.insertSubscriptionPayment_eq_some hins
    exact storable_iff.mpr ⟨hfault, by rw [← hid]; exact hfresh⟩
   rw [h, hstorable]
   unfold collectSavedPayment
   rw [if_neg (by simp [hmethod]), hid]
   rcases pollSettled faults col.newId 0 faults.deadline with e | r <;> simp [SavedOutcome.faithful, Except.toOption]

end Kept

/-- A call in the mode `Saved` is faithful exactly under `chargesKept`. -/
theorem saved_charge_iff (col : Collectors) (faults : Faults) (methods : List UserPaymentMethod) (now : Int)
  (mk : Market) (db : Db) (globalMaxPrepayDays subscriptionId : Nat) (method : PaymentMethod) (intervals : Nat)
  (methodId : Option Nat) :
  (renewSaved col faults methods now mk db globalMaxPrepayDays subscriptionId method intervals methodId).faithful =
    true ↔
   chargesKept col faults methods now mk db globalMaxPrepayDays subscriptionId method intervals methodId = true := by
 unfold renewSaved chargesKept
 rcases hquote : savedQuote faults now mk db globalMaxPrepayDays subscriptionId method intervals with e | ⟨sub, p | q⟩
 · simp [SavedOutcome.faithful]
 · simp [SavedOutcome.faithful]
 have hsub : (db.getSubscription sub.id).isSome = true := by
  unfold savedQuote at hquote
  split at hquote
  · cases hquote
  obtain ⟨sub', hget, hquote⟩ := bind_eq_ok.mp hquote
  obtain ⟨quote, -, hquote⟩ := bind_eq_ok.mp hquote
  obtain ⟨rfl, -⟩ := Prod.mk.inj (Except.ok.inj hquote)
  have hget := ofOption_eq_ok.mp hget
  rw [show sub'.id = subscriptionId from key_of_lookup hget, hget]
  rfl
 cases method with
 | lightning =>
  simp only [createSavedPayment, iff_true]
  rcases hcreate : createPayment _ renewTexts now sub.id sub.userId .lightning q with e | ⟨request, payment⟩
  · rfl
  obtain ⟨-, -, hcreate⟩ := bind_eq_ok.mp hcreate
  obtain ⟨invoice, -, hcreate⟩ := bind_eq_ok.mp hcreate
  cases Except.ok.inj hcreate
  exact storeSaved_lightning rfl
 | revolut =>
  simp only [createSavedPayment]
  rcases chargeSaved col faults methods now sub.userId methodId q with e | ⟨externalId, rawData⟩ | _ | externalId
  · simp [SavedOutcome.faithful]
  · exact storeSaved_revolut rfl rfl rfl hsub
  · simp [SavedOutcome.faithful]
  · simp [SavedOutcome.faithful, carried, Charge.isFor]
 | paypal | stripe => simp [createSavedPayment, createPayment, Except.map, SavedOutcome.faithful]
 | onChain =>
  simp only [createSavedPayment, createPayment]
  by_cases hbtc : q.currency = .btc
  · rcases haddr : col.newOnchainAddress (roundMsatToSat (q.amount + q.tax)) with _ | address
    · simp [ensure, hbtc, ofOption, bind, Except.bind, Except.map, SavedOutcome.faithful]
    have hstore : (storeSaved col faults methods db []
      (q.payment now sub.id sub.userId .onChain col.newId 3600 address none)).faithful = true ↔ _ :=
     storeSaved_onChain rfl rfl rfl hsub
    simpa [ensure, hbtc, haddr, ofOption, bind, Except.bind, Except.map] using hstore
  · simp [ensure, hbtc, bind, Except.bind, Except.map, SavedOutcome.faithful]

def testCollectors : Collectors where
 addInvoice _ _ := some ⟨7, "lnbc1", none⟩
 newOnchainAddress _ := some "bc1q"
 newId := 7
 revolut := some fun _ _ _ _ => .submitted "order" "raw"
 payInvoice _ _ := .paid

def savedMethods : List UserPaymentMethod :=
 [{ id := 1, userId := 0, provider := .revolut, externalCustomerId := some "customer", externalId := "card" },
  { id := 2, userId := 0, provider := .nwc, externalId := "wallet" }]

def openRenewal : SubscriptionPayment where
 id := 5
 subscriptionId := 1
 userId := 0
 created := 20103 * day
 expires := 20104 * day
 amount := 500000
 timeValue := some 2419200
 externalData := "lnbc0"

/-- The open payment is returned as if it had been charged, and the charge of a card whose payment cannot be stored
leaves no trace. -/
theorem saved_charge_missing_and_lost :
    (let db := { paidUntilFebruary .month with payments := [openRenewal] }
     let o := renewSaved testCollectors { polls := fun _ => some db, deadline := 0 } savedMethods (20103 * day)
       flatMarket db 0 1 .lightning 1 none
     o.result = .ok openRenewal ∧ o.charges = [] ∧ o.faithful = false) ∧
    (let db := paidUntilFebruary .month
     let o := renewSaved testCollectors { insert := true, polls := fun _ => some db, deadline := 0 } savedMethods
       (20103 * day) flatMarket db 0 1 .revolut 1 none
     o.result = .error .db ∧ o.charges = [.order "order"] ∧ o.db.payments = [] ∧ o.faithful = false) := by
  decide +kernel

end Lnvps
