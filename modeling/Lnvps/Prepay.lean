import Lnvps.OnChain
import Lnvps.Renewal

/-! # The prepay window -/

namespace Lnvps

open Table Steps Outcome List Option Db

def prepayWindow (db : Db) (globalMaxPrepayDays subscriptionId : Nat) : Nat :=
 ((db.getSubscription subscriptionId).bind fun sub => (db.getCompany sub.companyId).map fun company =>
  prepayDays company globalMaxPrepayDays).getD 0

def inWindow (window : Nat) (now : Int) (expires : Option Int) : Bool :=
 window = 0 || expires.all (· ≤ now + window * day)

def storedExpires (db : Db) (subscriptionId : Nat) : Option Int :=
 (db.getSubscription subscriptionId).bind (·.expires)

def renewAmount (engine : AmountPricing) (prov : Providers) (db : Db) (now : Int) (vmId gross : Nat)
  (method : PaymentMethod) : Except Failure RenewResult := do
 let price ← ofOption .pricing (engine.getCostByAmount db now vmId gross)
 priceToPaymentWithType prov db now vmId method price .renewal

structure Quoted where
 (paymentId subscriptionId : Nat)
 time : Int
 expires : Option Int
 timeValue : Option Nat
 checked : Bool

def Quoted.fits (q : Quoted) (window : Nat) : Bool :=
 window = 0 || q.timeValue.any fun (timeValue : Nat) =>
  quoteBase q.time q.expires + timeValue * second ≤ q.time + window * day

structure Reached where
 window : Nat
 created : Option (Int × Option Int)
 time : Int
 expires : Option Int

def Reached.capped (r : Reached) : Bool :=
 (r.created.all fun c => inWindow r.window c.1 c.2) → inWindow r.window r.time r.expires

structure Prepay where
 db : Db
 now : Int := 0
 quotes : List Quoted := []
 reached : List Reached := []

namespace Prepay

inductive Label
 | renew (market : Market) (prov : Providers) (subscriptionId : Nat) (method : PaymentMethod) (intervals : Nat)
 | renewAmount (engine : AmountPricing) (prov : Providers) (vmId gross : Nat) (method : PaymentMethod)
 | detected (engine : AmountPricing) (o : Outpoint) (address : String) (amountMsat : Nat) (lookupFails : Bool)
 | deposit (engine : AmountPricing) (o : Outpoint) (address : String) (amountMsat : Nat) (lookupFails : Bool)
   (newId : Nat)
 | settle (paymentId : Nat)
 | tick (d : Nat)

def store (s : Prepay) (checked : Bool) (db' : Db) : Prepay := { s with
 db := db'
 quotes := (db'.payments.filter fun p => p ∉ s.db.payments).map (fun p => {
  paymentId := p.id
  subscriptionId := p.subscriptionId
  time := s.now
  expires := storedExpires s.db p.subscriptionId
  timeValue := p.timeValue
  checked }) ++ s.quotes }

def settle (globalMaxPrepayDays : Nat) (s : Prepay) (p : SubscriptionPayment) : Option Prepay :=
 if p.isPaid then some s
 else do
  let db' ← s.db.subscriptionPaymentPaid s.now p
  some { s with
   db := db'
   reached := {
    window := prepayWindow s.db globalMaxPrepayDays p.subscriptionId
    created := (s.quotes.reverse.find? fun q => q.paymentId = p.id).map fun q => (q.time, q.expires)
    time := s.now
    expires := storedExpires db' p.subscriptionId } :: s.reached }

def step (globalMaxPrepayDays : Nat) (s : Prepay) : Label → Option Prepay
 | .renew market prov subscriptionId method intervals =>
  match renewSubscriptionInner market prov s.db globalMaxPrepayDays s.now subscriptionId method intervals with
  | .ok (.created db' _ _) => some (s.store true db')
  | _ => some s
 | .renewAmount engine prov vmId gross method =>
  match Lnvps.renewAmount engine prov s.db s.now vmId gross method with
  | .ok (.created db' _ _) => some (s.store false db')
  | _ => some s
 | .detected engine o address amountMsat lookupFails =>
  some (s.store false ((handleDetected engine s.db s.now address o amountMsat lookupFails).getD s.db))
 | .deposit engine o address amountMsat lookupFails newId =>
  match handleDeposit engine s.db s.now address o amountMsat lookupFails newId with
  | .stored db' _ => some (s.store false db')
  | .returned _ => some s
 | .settle paymentId => do
  let p ← s.db.getSubscriptionPayment paymentId
  settle globalMaxPrepayDays s p
 | .tick d => some { s with now := s.now + d }

def stands (globalMaxPrepayDays : Nat) (s : Prepay) (p : SubscriptionPayment) (q : Quoted) : Bool :=
 q.paymentId = p.id ∧ q.subscriptionId = p.subscriptionId ∧ q.timeValue = p.timeValue ∧ p.timeValue.isSome ∧
  (q.checked ∨ q.fits (prepayWindow s.db globalMaxPrepayDays p.subscriptionId)) ∧
  (storedExpires s.db p.subscriptionId).all (· ≤ quoteBase q.time q.expires + (s.now - q.time))

def quoteStands (globalMaxPrepayDays : Nat) (s : Prepay) : Label → Bool
 | .settle paymentId => (s.db.getSubscriptionPayment paymentId).all fun p =>
   p.isPaid || s.quotes.any (stands globalMaxPrepayDays s p)
 | _ => true

end Prepay

section Frames

variable {db db' : Db} {now : Int} {p : SubscriptionPayment}

def PaymentsOnly (db db' : Db) : Prop := ∃ rows, db' = { db with payments := rows }

theorem PaymentsOnly.refl (db : Db) : PaymentsOnly db db := ⟨db.payments, rfl⟩

theorem insertSubscriptionPayment_paymentsOnly (h : db.insertSubscriptionPayment p = some db') :
  PaymentsOnly db db' := by
 obtain ⟨-, -, rfl⟩ := insertSubscriptionPayment_eq_some h
 exact ⟨_, rfl⟩

theorem updateSubscriptionPayment_paymentsOnly (h : db.updateSubscriptionPayment p = some db') :
  PaymentsOnly db db' := by
 obtain ⟨-, rfl⟩ := updateSubscriptionPayment_eq_some h
 exact ⟨_, rfl⟩

variable {engine : AmountPricing} {gross : Nat} {method : PaymentMethod} {req : ProviderRequest}

theorem handleDetected_paymentsOnly {address : String} {o : Outpoint}
  {fails : Bool} (h : handleDetected engine db now address o gross fails = some db') : PaymentsOnly db db' := by
 unfold handleDetected at h
 split at h
 · cases h
   exact .refl db
 split at h
 · cases h
   exact .refl db
 split at h
 · cases h
   exact .refl db
 · obtain ⟨payment, -, h⟩ := bind_eq_some_iff.mp h
   exact updateSubscriptionPayment_paymentsOnly h

theorem handleDeposit_paymentsOnly {address : String} {o : Outpoint} {newId : Nat}
  {fails : Bool} (h : handleDeposit engine db now address o gross fails newId = .stored db' p) :
  PaymentsOnly db db' := by
 have hsettle : ∀ payment priced, settleDeposit engine db now address o.key gross newId payment priced =
   .stored db' p → PaymentsOnly db db' := by
  intro payment priced h
  unfold settleDeposit at h
  split at h
  · cases h
  split at h
  · rename_i db₁ payment₁ hstore
    obtain ⟨rfl, rfl⟩ := DepositOutcome.stored.inj h
    split at hstore
    · obtain ⟨renewal, -, hstore⟩ := bind_eq_some_iff.mp hstore
      obtain ⟨db₂, hins, hstore⟩ := bind_eq_some_iff.mp hstore
      cases hstore
      exact insertSubscriptionPayment_paymentsOnly hins
    obtain ⟨priced, -, hstore⟩ := bind_eq_some_iff.mp hstore
    obtain ⟨db₂, hupd, hstore⟩ := bind_eq_some_iff.mp hstore
    cases hstore
    exact updateSubscriptionPayment_paymentsOnly hupd
  · cases h
 unfold handleDeposit at h
 split at h
 · split at h
   · cases h
   · exact hsettle _ _ h
 · split at h
   · exact hsettle _ _ h
   · cases h

theorem renewAmount_paymentsOnly {prov : Providers} {vmId : Nat}
  (h : renewAmount engine prov db now vmId gross method = .ok (.created db' req p)) : PaymentsOnly db db' := by
 obtain ⟨price, -, h⟩ := bind_eq_ok.mp h
 rcases price with existing | info
 · cases h
 obtain ⟨vm, -, h⟩ := bind_eq_ok.mp h
 obtain ⟨lineItem, -, h⟩ := bind_eq_ok.mp h
 obtain ⟨r, -, h⟩ := bind_eq_ok.mp h
 exact insertSubscriptionPayment_paymentsOnly (storePayment_spec h).2

theorem PaymentsOnly.prepayWindow (h : PaymentsOnly db db') (maxDays sid : Nat) :
  prepayWindow db' maxDays sid = prepayWindow db maxDays sid := by
 obtain ⟨rows, rfl⟩ := h
 rfl

theorem subscriptionPaymentPaid_expires {timeValue : Nat} (h : db.subscriptionPaymentPaid now p = some db')
  (hrow : p ∈ db.payments) (hunpaid : p.isPaid = false) (htime : p.timeValue = some timeValue) :
  storedExpires db' p.subscriptionId = (db.getSubscription p.subscriptionId).map fun sub =>
   extensionBase now sub.expires + timeValue * second := by
 rcases subscriptionPaymentPaid_cases h with ⟨-, hall⟩ | ⟨-, -, -, -, f, hf, rfl⟩
 · rw [hall p hrow rfl] at hunpaid
   cases hunpaid
 obtain rfl : f = (· + timeValue * second) := by
  simp only [creditedTime, htime, Option.some.injEq] at hf
  exact hf.symm
 unfold storedExpires
 rw [getSubscription_extendSubscription,
  show ((db.markPaid now p).undeleteVms p.subscriptionId).getSubscription p.subscriptionId =
   db.getSubscription p.subscriptionId from rfl]
 rcases hsub : db.getSubscription p.subscriptionId with _ | sub
 · rfl
 · rw [map_some, if_pos (key_of_lookup hsub)]
   rfl

theorem subscriptionPaymentPaid_prepayWindow (h : db.subscriptionPaymentPaid now p = some db') (maxDays sid : Nat) :
  prepayWindow db' maxDays sid = prepayWindow db maxDays sid := by
 rcases subscriptionPaymentPaid_cases h with ⟨rfl, -⟩ | ⟨-, -, -, -, f, -, rfl⟩
 · rfl
 unfold prepayWindow
 rw [getSubscription_extendSubscription,
  show ((db.markPaid now p).undeleteVms p.subscriptionId).getSubscription sid = db.getSubscription sid from rfl]
 rcases db.getSubscription sid with _ | sub
 · rfl
 · rw [map_some, bind_some, bind_some]
   split <;> rfl

theorem renewSubscriptionInner_inWindow {mk : Market} {prov : Providers} {maxDays sid intervals timeValue : Nat}
  (h : renewSubscriptionInner mk prov db maxDays now sid method intervals = .ok (.created db' req p))
  (htime : p.timeValue = some timeValue) :
  prepayWindow db maxDays p.subscriptionId = 0 ∨
   quoteBase now (storedExpires db p.subscriptionId) + timeValue * second ≤
    now + prepayWindow db maxDays p.subscriptionId * day := by
 obtain ⟨sub, q, texts, hsub, hquote, hcreate, -⟩ := renewSubscriptionInner_created h
 obtain ⟨hsid, -, htv, -, -⟩ := createPayment_spec hcreate
 obtain ⟨t, -, hcheck, hq⟩ := renewQuote_spec hquote
 rw [htv, hq] at htime
 unfold checkPrepay at hcheck
 split at htime
 · rename_i hpos
   cases htime
   rw [if_pos hpos] at hcheck
   obtain ⟨company, hcompany, hcheck⟩ := bind_eq_ok.mp hcheck
   have hwindow : prepayWindow db maxDays sid = prepayDays company maxDays := by
    simp [prepayWindow, hsub, ofOption_eq_ok.mp hcompany]
   rw [hsid, hwindow, show storedExpires db sid = sub.expires by simp [storedExpires, hsub]]
   exact of_decide_eq_true (ensure_eq_ok.mp hcheck)
 · cases htime

end Frames

namespace Prepay

structure Inv (maxDays : Nat) (s : Prepay) : Prop where
 checked : ∀ q ∈ s.quotes, q.checked = true → q.timeValue.isSome = true →
  q.fits (prepayWindow s.db maxDays q.subscriptionId) = true
 reached : ∀ r ∈ s.reached, inWindow r.window r.time r.expires = true

section Invariant

variable {maxDays : Nat} {s t : Prepay} {db' : Db} {p : SubscriptionPayment}

theorem Inv.store {checked : Bool} (hi : Inv maxDays s) (hframe : PaymentsOnly s.db db')
  (hnew : checked = true → ∀ p ∈ db'.payments, p ∉ s.db.payments → ∀ timeValue, p.timeValue = some timeValue →
   prepayWindow s.db maxDays p.subscriptionId = 0 ∨
    quoteBase s.now (storedExpires s.db p.subscriptionId) + timeValue * second ≤
     s.now + prepayWindow s.db maxDays p.subscriptionId * day) : Inv maxDays (s.store checked db') := by
 refine ⟨?_, hi.reached⟩
 intro q hq hc hsome
 change q.fits (prepayWindow db' maxDays q.subscriptionId) = true
 rw [hframe.prepayWindow]
 rcases mem_append.mp hq with hq | hq
 · obtain ⟨p, hp, rfl⟩ := mem_map.mp hq
   obtain ⟨hp, hout⟩ := mem_filter.mp hp
   obtain ⟨timeValue, htime⟩ := isSome_iff_exists.mp hsome
   have hfits := hnew hc p hp (by simpa using hout) timeValue htime
   simp only at htime
   simpa [Quoted.fits, htime] using hfits
 · exact hi.checked q hq hc hsome

theorem inWindow_of_fits {window timeValue : Nat} {q : Quoted} {now : Int} {expires : Option Int}
  (hfits : q.fits window = true) (htime : q.timeValue = some timeValue)
  (hstands : expires.all (· ≤ quoteBase q.time q.expires + (now - q.time)) = true) :
  inWindow window now (some (extensionBase now expires + timeValue * second)) = true := by
 unfold inWindow
 unfold Quoted.fits at hfits
 rw [htime, any_some, Bool.or_eq_true, decide_eq_true_eq, decide_eq_true_eq] at hfits
 rw [all_some, Bool.or_eq_true, decide_eq_true_eq, decide_eq_true_eq]
 rcases hfits with hzero | hfits
 · exact .inl hzero
 right
 have hnow := sqlNow_le now
 have hbase : q.time ≤ quoteBase q.time q.expires := le_max_right _ _
 rcases expires with _ | e
 · simp only [extensionBase, getD_none, max_self]
   omega
 rw [all_some, decide_eq_true_eq] at hstands
 simp only [extensionBase, getD_some]
 rcases le_total e (sqlNow now) with he | he
 · rw [max_eq_right he]
   omega
 · rw [max_eq_left he]
   omega

theorem Inv.settle (hi : Inv maxDays s) (hrow : p ∈ s.db.payments)
  (hstands : p.isPaid = true ∨ s.quotes.any (stands maxDays s p) = true) (h : settle maxDays s p = some t) :
  Inv maxDays t := by
 unfold Prepay.settle at h
 split at h
 · cases h
   exact hi
 rename_i hunpaid
 obtain ⟨db', hpaid, h⟩ := bind_eq_some_iff.mp h
 cases h
 have hq := any_eq_true.mp (hstands.resolve_left hunpaid)
 obtain ⟨q, hq, hst⟩ := hq
 obtain ⟨-, hsid, hval, hsome, hfits, hexp⟩ := of_decide_eq_true hst
 obtain ⟨timeValue, htime⟩ := isSome_iff_exists.mp hsome
 have hqtime := hval.trans htime
 have hfits' : q.fits (prepayWindow s.db maxDays p.subscriptionId) = true := by
  rcases hfits with hc | hf
  · have := hi.checked q hq hc (by rw [hqtime]; rfl)
    rwa [hsid] at this
  · exact hf
 refine ⟨?_, ?_⟩
 · intro q' hq' hc hs
   change q'.fits (prepayWindow db' maxDays q'.subscriptionId) = true
   rw [subscriptionPaymentPaid_prepayWindow hpaid]
   exact hi.checked q' hq' hc hs
 intro r hr
 rcases mem_cons.mp hr with rfl | hr
 · simp only [subscriptionPaymentPaid_expires hpaid hrow (by simpa using hunpaid) htime]
   unfold storedExpires at hexp
   rcases hsub : s.db.getSubscription p.subscriptionId with _ | sub
   · simp [inWindow]
   · rw [hsub, bind_some] at hexp
     exact inWindow_of_fits hfits' hqtime hexp
 · exact hi.reached r hr

theorem step_inv {l : Label} (hi : Inv maxDays s) (hok : quoteStands maxDays s l = true)
  (h : step maxDays s l = some t) : Inv maxDays t := by
 cases l with
 | renew market prov sid method intervals =>
  simp only [step] at h
  split at h
  · rename_i db' req p hrenew
    cases h
    obtain ⟨_, _, _, -, -, -, hins⟩ := renewSubscriptionInner_created hrenew
    refine hi.store (insertSubscriptionPayment_paymentsOnly hins) ?_
    intro _ p' hp' hout timeValue htime
    obtain ⟨-, -, rfl⟩ := insertSubscriptionPayment_eq_some hins
    obtain rfl : p' = p := mem_singleton.mp ((mem_append.mp hp').resolve_left hout)
    exact renewSubscriptionInner_inWindow hrenew htime
  · cases h
    exact hi
 | renewAmount engine prov vmId gross method =>
  simp only [step] at h
  split at h
  · rename_i hrenew
    cases h
    exact hi.store (renewAmount_paymentsOnly hrenew) nofun
  · cases h
    exact hi
 | detected engine o address amount fails =>
  simp only [step] at h
  cases h
  refine hi.store ?_ nofun
  rcases hd : handleDetected engine s.db s.now address o amount fails with _ | db'
  · exact .refl s.db
  · exact handleDetected_paymentsOnly hd
 | deposit engine o address amount fails newId =>
  simp only [step] at h
  split at h
  · rename_i hd
    cases h
    exact hi.store (handleDeposit_paymentsOnly hd) nofun
  · cases h
    exact hi
 | settle paymentId =>
  obtain ⟨p, hp, h⟩ := bind_eq_some_iff.mp h
  simp only [quoteStands, hp, all_some, Bool.or_eq_true] at hok
  exact hi.settle (mem_of_lookup hp) hok h
 | tick d =>
  cases h
  exact ⟨hi.checked, hi.reached⟩

end Invariant

/-- In every run in which payments are settled only while a quote of them stands, every settlement leaves the expiry
within the prepay window if it was within it when the payment was created. -/
theorem settlements_within_window {maxDays : Nat} {db : Db} {now : Int} {ls : List Label} {t : Prepay}
  (hrun : RunIf (step maxDays) (fun s l => quoteStands maxDays s l = true) { db, now } ls t) :
  ∀ r ∈ t.reached, r.capped = true := by
 have h0 : Inv maxDays { db, now } := ⟨nofun, nofun⟩
 have hi : Inv maxDays t := hrun.invariant (fun _ _ _ hi hok hs => step_inv hi hok hs) h0
 intro r hr
 simp [Reached.capped, hi.reached r hr]

def sixtyDays : Db := { paidUntilFebruary .month with companies := [{ id := 0, maxPrepayDays := 60 }] }

def renewMonth (method : PaymentMethod) (paymentId : Nat) : Label :=
 .renew flatMarket
  { testProviders with newId := paymentId, addInvoice := fun _ _ => some ⟨paymentId, "lnbc1", none⟩ } 1
  method 1

/-- A renewal on 15 January and the next one twenty days later, each settled before the other is made. -/
theorem settlements_within_window_two_renewals : ∃ t,
  RunIf (step 0) (fun s l => quoteStands 0 s l = true) { db := sixtyDays, now := 20103 * day }
   [renewMonth .lightning 7, .settle 7, .tick (20 * 86400 * 1000000000), renewMonth .onChain 8, .settle 8] t ∧
   t.reached.length = 2 ∧ ∀ r ∈ t.reached, r.capped = true :=
 RunIf.exists_and_of_execIf (by decide +kernel) fun _ ht _ => settlements_within_window ht

/-- Two renewals for a month are open at once on 15 January; each fits the window of sixty days, and their settlements
lead to 29 March, 73 days later. -/
theorem pending_renewals_pass_window :
  ¬ ∀ (maxDays : Nat) (db : Db) (now : Int) (ls : List Label) (t : Prepay),
   Run (step maxDays) { db, now } ls t → ∀ r ∈ t.reached, r.capped = true := by
 intro h
 obtain ⟨t, ht, hbad⟩ := Run.exists_of_exec (f := step 0) (s := { db := sixtyDays, now := 20103 * day })
  (r := [renewMonth .lightning 7, renewMonth .onChain 8, .settle 7, .settle 8])
  (P := fun t => ∃ r ∈ t.reached, r.expires = some (20176 * day) ∧ r.capped = false) (by decide +kernel)
 obtain ⟨r, hr, -, hbad⟩ := hbad
 rw [h _ _ _ _ t ht r hr] at hbad
 cases hbad

end Prepay

end Lnvps
