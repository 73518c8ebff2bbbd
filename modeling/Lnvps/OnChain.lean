import Mathlib.Tactic
import Lnvps.CompletePayment

/-! # On-chain deposits -/

namespace Lnvps

open Table Steps List Option CompleteCall

def depositKey (txid : String) (vout : Nat) : String := txid ++ ":" ++ toString vout

structure Outpoint where
 txid : String
 vout : Nat
 deriving DecidableEq

def Outpoint.key (o : Outpoint) : String := depositKey o.txid o.vout

private theorem append_sep_inj {α : Type} {a : α} {x₁ x₂ y₁ y₂ : List α} (h1 : a ∉ y₁) (h2 : a ∉ y₂)
  (h : x₁ ++ a :: y₁ = x₂ ++ a :: y₂) : x₁ = x₂ ∧ y₁ = y₂ := by
 rcases append_eq_append_iff.mp h with ⟨z, rfl, hz⟩ | ⟨z, rfl, hz⟩
 · rcases z with _ | ⟨b, z⟩
   · simpa using hz
   · exfalso
     simp only [cons_append, List.cons.injEq] at hz
     exact h1 (by rw [hz.2]; simp)
 · rcases z with _ | ⟨b, z⟩
   · simpa using hz.symm
   · exfalso
     simp only [cons_append, List.cons.injEq] at hz
     exact h2 (by rw [hz.2]; simp)

private theorem depositKey_toList (txid : String) (vout : Nat) :
  (depositKey txid vout).toList = txid.toList ++ ':' :: Nat.toDigits 10 vout := by
 simp [depositKey, String.toList_append, toString, Nat.repr]

theorem Outpoint.key_inj {o₁ o₂ : Outpoint} (h : o₁.key = o₂.key) : o₁ = o₂ := by
 have h' := congrArg String.toList h
 unfold Outpoint.key at h'
 rw [depositKey_toList, depositKey_toList] at h'
 have hd : ∀ v : Nat, ':' ∉ Nat.toDigits 10 v := by
  intro v hv
  have := Nat.isDigit_of_mem_toDigits (by decide) (by decide) hv
  revert this
  decide
 obtain ⟨ht, hv⟩ := append_sep_inj (hd _) (hd _) h'
 have hn : ∀ v, Nat.ofDigitChars 10 (Nat.toDigits 10 v) 0 = v :=
  fun _ => Nat.ofDigitChars_toDigits (by decide) (by decide)
 have hv' : o₁.vout = o₂.vout := by rw [← hn o₁.vout, hv, hn]
 have ht' : o₁.txid = o₂.txid := String.toList_injective ht
 cases o₁
 cases o₂
 simp_all

private theorem eq_singleton_of_mem {α : Type} {l : List α} {a : α} (hl : l.length ≤ 1) (ha : a ∈ l) : l = [a] := by
 rcases l with _ | ⟨b, _ | ⟨c, l⟩⟩
 · cases ha
 · rw [mem_singleton.mp ha]
 · simp at hl

structure AmountPricing where
 getCostByAmount : Db → Int → (vmId gross : Nat) → Option CostResult
 getSubscriptionCostByAmount : Db → Int → (subscriptionId gross : Nat) → Option CostResult

variable (engine : AmountPricing)

def AmountPricing.SumsToGross : Prop :=
 ∀ db now id gross info,
  engine.getCostByAmount db now id gross = some (.new info) ∨
   engine.getSubscriptionCostByAmount db now id gross = some (.new info) →
  info.amount + info.tax + info.processingFee = gross

def maxByCreated (ps : List SubscriptionPayment) : Option SubscriptionPayment :=
 ps.foldl (fun best p =>
  match best with
  | none => some p
  | some q => if q.created ≤ p.created then some p else some q) none

variable (db : Db)

def paymentForAddress (address : String) : Option SubscriptionPayment :=
 maxByCreated ((db.listSubscriptionPaymentsByMethod .onChain).filter fun p => p.externalData = address)

def vmDeleted (subscriptionId : Nat) : Bool :=
 (db.getVmBySubscription subscriptionId).any fun vm => vm.deleted

def regenerate (now : Int) (payment : SubscriptionPayment) (grossMsat : Nat) : Option SubscriptionPayment :=
 let cost := match db.getVmBySubscription payment.subscriptionId with
  | some vm => engine.getCostByAmount db now vm.id grossMsat
  | none => engine.getSubscriptionCostByAmount db now payment.subscriptionId grossMsat
 match cost with
 | some (.new p) => some { payment with
   timeValue := some p.timeValue
   rate := p.rate
   amount := p.amount
   tax := p.tax
   processingFee := p.processingFee }
 | some (.existing _) => none
 | none => none

def findByKey (key : String) (lookupFails : Bool) : Option SubscriptionPayment :=
 if lookupFails then none else db.getSubscriptionPaymentByExtId key

def handleDetected (now : Int) (address : String) (o : Outpoint)
  (amountMsat : Nat) (lookupFails : Bool) : Option Db :=
 match findByKey db o.key lookupFails with
 | some _ => some db
 | none =>
  match paymentForAddress db address with
  | none => some db
  | some payment =>
   if payment.isPaid || vmDeleted db payment.subscriptionId then some db
   else do
    let payment ← regenerate engine db now payment amountMsat
    db.updateSubscriptionPayment { payment with externalId := some o.key }

inductive DepositOutcome
 | returned (ok : Bool)
 | stored (db : Db) (payment : SubscriptionPayment)

def storeOpen (now : Int) (key : String) (amountMsat : Nat)
  (payment : SubscriptionPayment) (alreadyPriced : Bool) : Option (Db × SubscriptionPayment) := do
 let payment ← (if !alreadyPriced || payment.gross ≠ amountMsat then regenerate engine db now payment amountMsat
  else some payment)
 let payment := { payment with externalId := some key }
 let db' ← db.updateSubscriptionPayment payment
 some (db', payment)

def storeRenewal (now : Int) (address key : String) (amountMsat : Nat)
  (payment : SubscriptionPayment) (newId : Nat) : Option (Db × SubscriptionPayment) := do
 let renewal := { payment with
  id := newId
  created := now
  expires := now
  paymentMethod := .onChain
  paymentType := .renewal
  externalData := address
  externalId := some key
  isPaid := false
  paidAt := none
  metadata := none }
 let renewal ← regenerate engine db now renewal amountMsat
 let db' ← db.insertSubscriptionPayment renewal
 some (db', renewal)

def settleDeposit (now : Int) (address key : String) (amountMsat newId : Nat)
  (payment : SubscriptionPayment) (alreadyPriced : Bool) : DepositOutcome :=
 if vmDeleted db payment.subscriptionId then .returned true
 else
  match if payment.isPaid then storeRenewal engine db now address key amountMsat payment newId
   else storeOpen engine db now key amountMsat payment alreadyPriced with
  | some (db', payment') => .stored db' payment'
  | none => .returned false

def handleDeposit (now : Int) (address : String) (o : Outpoint)
  (amountMsat : Nat) (lookupFails : Bool) (newId : Nat) : DepositOutcome :=
 match findByKey db o.key lookupFails with
 | some p => if p.isPaid then .returned true else settleDeposit engine db now address o.key amountMsat newId p true
 | none =>
  match paymentForAddress db address with
  | some p => settleDeposit engine db now address o.key amountMsat newId p false
  | none => .returned true

section Handlers

variable {engine : AmountPricing} {db db' : Db} {now : Int} {address key : String} {o : Outpoint}
 {payment p : SubscriptionPayment} {gross newId : Nat} {fails : Bool}

theorem maxByCreated_mem {ps : List SubscriptionPayment} (h : maxByCreated ps = some p) : p ∈ ps := by
 have key : ∀ (ps : List SubscriptionPayment) (best : Option SubscriptionPayment),
   ps.foldl (fun best p =>
    match best with
    | none => some p
    | some q => if q.created ≤ p.created then some p else some q) best = some p → p ∈ ps ∨ best = some p := by
  intro ps
  induction ps with
  | nil => exact fun _ h => .inr h
  | cons q ps ih =>
   intro best h
   rcases ih _ h with h | h
   · exact .inl (mem_cons_of_mem _ h)
   rcases best with _ | b
   · exact .inl (by simp_all)
   simp only at h
   split at h
   · exact .inl (by simp_all)
   · exact .inr h
 simpa using key ps none h

theorem paymentForAddress_spec (h : paymentForAddress db address = some p) :
  p ∈ db.payments ∧ p.paymentMethod = .onChain ∧ p.externalData = address := by
 have hm := maxByCreated_mem h
 simp only [mem_filter, Db.listSubscriptionPaymentsByMethod, decide_eq_true_eq] at hm
 exact ⟨hm.1.1, hm.1.2, hm.2⟩

theorem findByKey_spec (h : findByKey db key fails = some p) : p ∈ db.payments ∧ p.externalId = some key := by
 unfold findByKey at h
 split at h
 · cases h
 · exact ⟨mem_of_lookup h, key_of_lookup h⟩

theorem regenerate_spec (hsum : engine.SumsToGross) (h : regenerate engine db now payment gross = some p) :
  p.gross = gross ∧ p.id = payment.id ∧ p.isPaid = payment.isPaid ∧ p.externalId = payment.externalId := by
 unfold regenerate at h
 dsimp only at h
 split at h
 · rename_i info hinfo
   cases h
   refine ⟨?_, rfl, rfl, rfl⟩
   split at hinfo
   · exact hsum _ _ _ _ _ (.inl hinfo)
   · exact hsum _ _ _ _ _ (.inr hinfo)
 · cases h
 · cases h

theorem handleDetected_spec (hsum : engine.SumsToGross) (hl : Ledger db)
  (h : handleDetected engine db now address o gross fails = some db') : db' = db ∨ ∃ p, Stores db p db' := by
 unfold handleDetected at h
 split at h
 · exact .inl (some.inj h).symm
 split at h
 · exact .inl (some.inj h).symm
 rename_i payment hpay
 split at h
 · exact .inl (some.inj h).symm
 rename_i hc
 obtain ⟨p, hp, h⟩ := bind_eq_some_iff.mp h
 obtain ⟨-, hid, hpaid, -⟩ := regenerate_spec hsum hp
 have hu : payment.isPaid = false := by
  simp only [Bool.or_eq_true, not_or, Bool.not_eq_true] at hc
  exact hc.1
 refine .inr ⟨{ p with externalId := some o.key }, hpaid.trans hu, .inl ⟨?_, h⟩⟩
 intro r hr hrid
 rw [hl.ids.eq_of_key hr (paymentForAddress_spec hpay).1 (hrid.trans hid), hu]

variable {priced : Bool}

theorem storeOpen_spec (hsum : engine.SumsToGross) (hl : Ledger db) (hp : payment ∈ db.payments)
  (hu : payment.isPaid = false)
  (h : storeOpen engine db now key gross payment priced = some (db', p)) :
  Stores db p db' ∧ p.externalId = some key ∧ p.gross = gross ∧ ∃ r ∈ db.payments, r.id = p.id := by
 unfold storeOpen at h
 obtain ⟨q, hq, h⟩ := bind_eq_some_iff.mp h
 obtain ⟨db₁, hupd, h⟩ := bind_eq_some_iff.mp h
 simp only [some.injEq, Prod.mk.injEq] at h
 obtain ⟨rfl, rfl⟩ := h
 have hspec : q.gross = gross ∧ q.id = payment.id ∧ q.isPaid = payment.isPaid := by
  split at hq
  · obtain ⟨h1, h2, h3, -⟩ := regenerate_spec hsum hq
    exact ⟨h1, h2, h3⟩
  rename_i hc
  cases hq
  refine ⟨?_, rfl, rfl⟩
  simp only [Bool.or_eq_true, decide_eq_true_eq, not_or, not_not] at hc
  exact hc.2
 refine ⟨⟨hspec.2.2.trans hu, .inl ⟨?_, hupd⟩⟩, rfl, hspec.1, payment, hp, hspec.2.1.symm⟩
 intro r hr hrid
 rw [hl.ids.eq_of_key hr hp (hrid.trans hspec.2.1), hu]

theorem storeRenewal_spec (hsum : engine.SumsToGross)
  (h : storeRenewal engine db now address key gross payment newId = some (db', p)) :
  db.insertSubscriptionPayment p = some db' ∧ p.isPaid = false ∧ p.externalId = some key ∧ p.gross = gross := by
 obtain ⟨q, hq, h⟩ := bind_eq_some_iff.mp h
 obtain ⟨db₁, hins, h⟩ := bind_eq_some_iff.mp h
 simp only [some.injEq, Prod.mk.injEq] at h
 obtain ⟨rfl, rfl⟩ := h
 obtain ⟨h1, -, h3, h4⟩ := regenerate_spec hsum hq
 exact ⟨hins, h3, h4, h1⟩

theorem settleDeposit_stored (hsum : engine.SumsToGross) (hl : Ledger db) (hq : payment ∈ db.payments)
  (h : settleDeposit engine db now address key gross newId payment priced = .stored db' p) :
  Stores db p db' ∧ p.externalId = some key ∧ p.gross = gross ∧
   ((∃ r ∈ db.payments, r.id = p.id) ∨ db.insertSubscriptionPayment p = some db') := by
 unfold settleDeposit at h
 split at h
 · cases h
 rcases hp : payment.isPaid with _ | _ <;> simp only [hp, Bool.false_eq_true, if_false, if_true] at h <;>
  split at h
 · rename_i hw
   obtain ⟨rfl, rfl⟩ := DepositOutcome.stored.inj h
   obtain ⟨h1, h2, h3, h4⟩ := storeOpen_spec hsum hl hq hp hw
   exact ⟨h1, h2, h3, .inl h4⟩
 · cases h
 · rename_i hw
   obtain ⟨rfl, rfl⟩ := DepositOutcome.stored.inj h
   obtain ⟨h1, h2, h3, h4⟩ := storeRenewal_spec hsum hw
   exact ⟨⟨h2, .inr h1⟩, h3, h4, .inr h1⟩
 · cases h

theorem settleDeposit_returned
  (h : settleDeposit engine db now address key gross newId payment priced = .returned true) :
  vmDeleted db payment.subscriptionId = true := by
 unfold settleDeposit at h
 split at h
 · assumption
 · split at h <;> cases h

theorem handleDeposit_stored (hsum : engine.SumsToGross) (hl : Ledger db)
  (h : handleDeposit engine db now address o gross fails newId = .stored db' p) :
  Stores db p db' ∧ p.externalId = some o.key ∧ p.gross = gross ∧
   ((∃ r ∈ db.payments, r.id = p.id) ∨ db.insertSubscriptionPayment p = some db') := by
 unfold handleDeposit at h
 split at h
 · rename_i hq
   split at h
   · cases h
   · exact settleDeposit_stored hsum hl (findByKey_spec hq).1 h
 split at h
 · rename_i hq
   exact settleDeposit_stored hsum hl (paymentForAddress_spec hq).1 h
 · cases h

theorem handleDeposit_returned (h : handleDeposit engine db now address o gross fails newId = .returned true) :
  (∃ p ∈ db.payments, p.isPaid = true ∧ p.externalId = some o.key) ∨ paymentForAddress db address = none ∨
   ∃ p ∈ db.payments, (p.externalId = some o.key ∨ p.paymentMethod = .onChain ∧ p.externalData = address) ∧
    vmDeleted db p.subscriptionId = true := by
 unfold handleDeposit at h
 split at h
 · rename_i q hq
   obtain ⟨hmem, hkey⟩ := findByKey_spec hq
   split at h
   · rename_i hpaid
     exact .inl ⟨q, hmem, hpaid, hkey⟩
   · exact .inr (.inr ⟨q, hmem, .inl hkey, settleDeposit_returned h⟩)
 · split at h
   · rename_i q hq
     obtain ⟨hmem, haddr⟩ := paymentForAddress_spec hq
     exact .inr (.inr ⟨q, hmem, .inr haddr, settleDeposit_returned h⟩)
   · rename_i hnone
     exact .inr (.inl hnone)

end Handlers

structure Deposit where
 address : String
 amountMsat : Nat

inductive Task
 | idle
 | completing (o : Outpoint) (live : Bool) (call : CompleteCall)

structure OnChain where
 db : Db
 now : Int := 0
 task : Task := .idle
 acked : List Outpoint := []

def knownLive (address : String) (key : String) : Bool :=
 (paymentForAddress db address).isSome ∧
  ∀ p ∈ db.payments, p.externalId = some key ∨ p.paymentMethod = .onChain ∧ p.externalData = address →
   vmDeleted db p.subscriptionId = false

namespace OnChain

inductive Label
 | detected (o : Outpoint) (address : String) (amountMsat : Nat) (lookupFails : Bool)
 | confirmed (o : Outpoint) (lookupFails : Bool) (newId : Nat)
 | advance (fault : Bool)
 | crash
 | create (payment : SubscriptionPayment)
 | deleteVm (id : Nat)
 | tick (d : Nat)

section

variable (engine : AmountPricing) (chain : Outpoint → Deposit)

def step (s : OnChain) : Label → Option OnChain
 | .detected o address amountMsat lookupFails =>
  match s.task with
  | .idle => some { s with
    db := (handleDetected engine s.db s.now address o amountMsat lookupFails).getD s.db }
  | .completing .. => none
 | .confirmed o lookupFails newId =>
  match s.task with
  | .idle =>
   let live := knownLive s.db (chain o).address o.key
   match handleDeposit engine s.db s.now (chain o).address o (chain o).amountMsat lookupFails newId with
   | .returned ok => some { s with acked := if ok && live then o :: s.acked else s.acked }
   | .stored db' payment => some { s with db := db', task := .completing o live { payment } }
  | .completing .. => none
 | .advance fault =>
  match s.task with
  | .idle => none
  | .completing o live call => do
   let (db', call') ← completeStep s.db s.now fault call
   match call'.pc with
   | .returned ok => some { s with
     db := db', task := .idle, acked := if ok && live then o :: s.acked else s.acked }
   | _ => some { s with db := db', task := .completing o live call' }
 | .crash => some { s with task := .idle }
 | .create payment =>
  if payment.isPaid then none
  else do
   let db' ← s.db.insertSubscriptionPayment payment
   some { s with db := db' }
 | .deleteVm id => some { s with db := s.db.deleteVm id }
 | .tick d => some { s with now := s.now + d }

end

structure Start (s : OnChain) : Prop where
 ids : Keyed (·.id) s.db.payments
 extIds : ∀ p ∈ s.db.payments, ∀ q ∈ s.db.payments, p.externalId = q.externalId → p.externalId ≠ none → p.id = q.id
 subs : ∀ p ∈ s.db.payments, (s.db.getSubscription p.subscriptionId).isSome
 noDeposits : ∀ p ∈ s.db.payments, p.isPaid = true → ∀ o : Outpoint, p.externalId ≠ some o.key
 settlements : s.db.settlements = []
 task : s.task = .idle
 acked : s.acked = []

structure Books (chain : Outpoint → Deposit) (db : Db) : Prop where
 ledger : Ledger db
 subs : ∀ p ∈ db.payments, (db.getSubscription p.subscriptionId).isSome
 gross : ∀ p ∈ db.payments, p.isPaid = true → ∀ o : Outpoint, p.externalId = some o.key →
  p.gross = (chain o).amountMsat
 credited : ∀ p ∈ db.payments, p.isPaid = true → ∀ o : Outpoint, p.externalId = some o.key →
  ∃ st ∈ db.settlements, st.paymentId = p.id ∧ st.subscriptionId = p.subscriptionId

section Invariant

variable {engine : AmountPricing} {chain : Outpoint → Deposit} {db db' : Db} {now : Int}
 {payment p : SubscriptionPayment} {o : Outpoint}

theorem Books.stores (hb : Books chain db) (h : Stores db payment db') : Books chain db' := by
 have hframe := h.frame
 have hpaid : ∀ q ∈ db'.payments, q.isPaid = true → q ∈ db.payments := by
  intro q hq hp
  rcases h.mem hq with hq | ⟨paidAt, rfl⟩
  · exact hq
  · rw [show payment.isPaid = false from h.1] at hp
    cases hp
 refine ⟨h.ledger hb.ledger, ?_, ?_, ?_⟩
 · intro q hq
   rw [hframe]
   rcases h.mem hq with hq | ⟨paidAt, rfl⟩
   · exact hb.subs q hq
   · exact h.allowed
 · intro q hq hp
   exact hb.gross q (hpaid q hq hp) hp
 · intro q hq hp o ho
   rw [hframe]
   exact hb.credited q (hpaid q hq hp) hp o ho

theorem Books.settle (hb : Books chain db)
  (hrow : ∃ r ∈ db.payments, r.id = payment.id ∧ r.isPaid = false ∧ r.subscriptionId = payment.subscriptionId ∧
   r.externalId = some o.key ∧ r.gross = (chain o).amountMsat)
  (h : db.subscriptionPaymentPaid now payment = some db') :
  Books chain db' ∧ ∃ q ∈ db'.payments, q.isPaid = true ∧ q.externalId = some o.key := by
 obtain ⟨r, hr, hid, hu, hsub, hext, hgross⟩ := hrow
 have hl := hb.ledger.subscriptionPaymentPaid h
 rcases Db.subscriptionPaymentPaid_cases h with ⟨-, hall⟩ | ⟨-, -, -, -, f, -, rfl⟩
 · rw [hall r hr hid] at hu
   cases hu
 have hget : ∀ sid, ((((db.markPaid now payment).undeleteVms payment.subscriptionId).extendSubscription now
   payment.id payment.subscriptionId f).getSubscription sid).isSome = (db.getSubscription sid).isSome := by
  intro sid
  rw [Db.getSubscription_extendSubscription, isSome_map]
  rfl
 obtain ⟨sub, hsubrow⟩ := isSome_iff_exists.mp (hb.subs r hr)
 rw [hsub] at hsubrow
 have hentry : ∃ st ∈ (((db.markPaid now payment).undeleteVms payment.subscriptionId).extendSubscription now
   payment.id payment.subscriptionId f).settlements, st.paymentId = r.id ∧ st.subscriptionId = r.subscriptionId := by
  refine ⟨_, mem_append_right _ (mem_map.mpr ⟨sub, ?_, rfl⟩), hid.symm, hsub.symm⟩
  rw [show ((db.markPaid now payment).undeleteVms payment.subscriptionId).getSubscription payment.subscriptionId =
   some sub from hsubrow]
  simp
 have hold : ∀ q ∈ ((db.markPaid now payment).undeleteVms payment.subscriptionId).payments, q.isPaid = true →
   q ∈ db.payments ∨ q.id = r.id ∧ q.subscriptionId = r.subscriptionId ∧ q.externalId = r.externalId ∧
    q.gross = r.gross := by
  intro q hq hp
  obtain ⟨q₀, hq₀, rfl⟩ := mem_updateWhere.mp hq
  split
  · rename_i hc
    simp only [Bool.and_eq_true, decide_eq_true_eq] at hc
    rw [hb.ledger.ids.eq_of_key hq₀ hr (hc.1.trans hid.symm)]
    exact .inr ⟨rfl, rfl, rfl, rfl⟩
  · exact .inl hq₀
 refine ⟨⟨hl, ?_, ?_, ?_⟩, ?_⟩
 · intro q hq
   rw [hget]
   obtain ⟨q₀, hq₀, rfl⟩ := mem_updateWhere.mp hq
   split <;> exact hb.subs q₀ hq₀
 · intro q hq hp o' ho'
   rcases hold q hq hp with hq | ⟨-, -, he, hg⟩
   · exact hb.gross q hq hp o' ho'
   · rw [he, hext] at ho'
     rw [hg, hgross, Outpoint.key_inj (some.inj ho')]
 · intro q hq hp o' ho'
   rcases hold q hq hp with hq | ⟨hqid, hqsub, -, -⟩
   · obtain ⟨st, hst, hst'⟩ := hb.credited q hq hp o' ho'
     exact ⟨st, mem_append_left _ hst, hst'⟩
   · rw [hqid, hqsub]
     exact hentry
 · exact ⟨_, mem_updateWhere_of hr (by simp [hid, hu]), rfl, hext⟩

def TaskInv (chain : Outpoint → Deposit) (db : Db) : Task → Prop
 | .idle => True
 | .completing o _ call =>
  (call.pc = .settle → ∃ r ∈ db.payments, r.id = call.payment.id ∧ r.isPaid = false ∧
   r.subscriptionId = call.payment.subscriptionId ∧ r.externalId = some o.key ∧
   r.gross = (chain o).amountMsat) ∧
  (call.pc ≠ .settle → ∃ r ∈ db.payments, r.isPaid = true ∧ r.externalId = some o.key) ∧
  ∀ q ∈ call.toExpire, q.isPaid = false ∧ db.UnpaidIn q.id

structure Inv (chain : Outpoint → Deposit) (s : OnChain) : Prop where
 books : Books chain s.db
 acked : ∀ o ∈ s.acked, ∃ p ∈ s.db.payments, p.isPaid = true ∧ p.externalId = some o.key
 task : TaskInv chain s.db s.task

variable {s t : OnChain}

theorem Start.inv (h : Start s) : Inv chain s := by
 refine ⟨⟨⟨h.ids, h.extIds, ?_, ?_, ?_⟩, h.subs, ?_, ?_⟩, ?_, ?_⟩
 · simp [Db.credits, h.settlements]
 · simp [Db.credits, h.settlements]
 · simp [h.settlements]
 · intro p hp hpaid o ho
   exact absurd ho (h.noDeposits p hp hpaid o)
 · intro p hp hpaid o ho
   exact absurd ho (h.noDeposits p hp hpaid o)
 · simp [h.acked]
 · rw [h.task]
   trivial

private theorem paid_of_keeps (hk : db.KeepsPaid db')
  (h : ∃ r ∈ db.payments, r.isPaid = true ∧ r.externalId = some o.key) :
  ∃ r ∈ db'.payments, r.isPaid = true ∧ r.externalId = some o.key := by
 obtain ⟨r, hr, hp, he⟩ := h
 exact ⟨r, hk r hr hp, hp, he⟩

theorem step_detected {address : String} {amount : Nat} {fails : Bool} (hsum : engine.SumsToGross)
  (hi : Inv chain s) (h : step engine chain s (.detected o address amount fails) = some t) : Inv chain t := by
 simp only [step] at h
 split at h
 · rename_i htask
   cases h
   have hdb : ∀ db', (handleDetected engine s.db s.now address o amount fails).getD s.db = db' →
     db' = s.db ∨ ∃ p, Stores s.db p db' := by
    rintro db' rfl
    rcases hd : handleDetected engine s.db s.now address o amount fails with _ | db'
    · exact .inl rfl
    · exact handleDetected_spec hsum hi.books.ledger hd
   rcases hdb _ rfl with heq | ⟨p, hst⟩
   · rw [heq]
     exact hi
   refine ⟨hi.books.stores hst, ?_, ?_⟩
   · intro o' ho'
     exact paid_of_keeps hst.keepsPaid (hi.acked o' ho')
   · rw [htask]
     trivial
 · cases h

theorem step_confirmed {fails : Bool} {newId : Nat} (hsum : engine.SumsToGross)
  (hi : Inv chain s) (h : step engine chain s (.confirmed o fails newId) = some t) : Inv chain t := by
 simp only [step] at h
 split at h
 · rename_i htask
   split at h
   · rename_i ok hret
     cases h
     refine ⟨hi.books, ?_, hi.task⟩
     intro o' ho'
     split at ho'
     · rename_i hc
       simp only [Bool.and_eq_true] at hc
       obtain ⟨rfl, hlive⟩ := hc
       rcases mem_cons.mp ho' with rfl | ho'
       · obtain ⟨hknown, hlive⟩ := of_decide_eq_true hlive
         rcases handleDeposit_returned hret with hpaid | hnone | ⟨p, hp, hmatch, hdel⟩
         · exact hpaid
         · rw [hnone] at hknown
           cases hknown
         · rw [hlive p hp hmatch] at hdel
           cases hdel
       · exact hi.acked o' ho'
     · exact hi.acked o' ho'
   · rename_i db' p hst
     cases h
     obtain ⟨hst, hext, hgross, hold⟩ := handleDeposit_stored hsum hi.books.ledger hst
     refine ⟨hi.books.stores hst, ?_, ?_, ?_, ?_⟩
     · intro o' ho'
       exact paid_of_keeps hst.keepsPaid (hi.acked o' ho')
     · intro _
       obtain ⟨paidAt, hrow⟩ := hst.stored hold
       exact ⟨_, hrow, rfl, hst.1, rfl, hext, hgross⟩
     · intro hpc
       exact absurd rfl hpc
     · simp [toExpire]
 · cases h

private theorem complete_inv {live fault : Bool} {call call' : CompleteCall} (hi : Inv chain s)
  (htask : s.task = .completing o live call) (h : completeStep s.db s.now fault call = some (db', call')) :
  Books chain db' ∧ s.db.KeepsPaid db' ∧
   (call'.pc ≠ .returned false → ∃ r ∈ db'.payments, r.isPaid = true ∧ r.externalId = some o.key) ∧
   ∀ q ∈ call'.toExpire, q.isPaid = false ∧ db'.UnpaidIn q.id := by
 obtain ⟨hsettle, hpaid, hlisted⟩ : TaskInv chain s.db (.completing o live call) := htask ▸ hi.task
 obtain ⟨-, -, hcases⟩ := completeStep_cases h
 rcases hcases with ⟨rfl, hret, hnew⟩ | ⟨hpc, hpc', -, hp⟩ | ⟨q, rest, hpc, hpc', hupd⟩
 · refine ⟨hi.books, .refl _, ?_, ?_⟩
   · intro hne
     exact hpaid fun hpc => hne (hret hpc)
   intro q hq
   rcases hnew q hq with hq | ⟨hq, hu⟩
   · exact hlisted q hq
   · refine ⟨hu, ?_⟩
     intro r hr hid
     rw [hi.books.ledger.ids.eq_of_key hr hq hid, hu]
 · obtain ⟨hb, hrow⟩ := hi.books.settle (hsettle hpc) hp
   refine ⟨hb, Db.keepsPaid_settle hp, fun _ => hrow, ?_⟩
   simp [toExpire, hpc']
 · obtain ⟨hq, hu⟩ := hlisted q (by simp [toExpire, hpc])
   have hst : Stores s.db { q with expires := s.now } db' := ⟨hq, .inl ⟨hu, hupd⟩⟩
   refine ⟨hi.books.stores hst, hst.keepsPaid, ?_, ?_⟩
   · intro _
     exact paid_of_keeps hst.keepsPaid (hpaid (by simp [hpc]))
   intro r hr
   simp only [toExpire, hpc'] at hr
   obtain ⟨h1, h2⟩ := hlisted r (by simp [toExpire, hpc, hr])
   exact ⟨h1, hst.unpaidIn h2⟩

theorem step_advance {fault : Bool} (hi : Inv chain s)
  (h : step engine chain s (.advance fault) = some t) : Inv chain t := by
 simp only [step] at h
 split at h
 · cases h
 rename_i o live call htask
 obtain ⟨⟨db', call'⟩, hstep, h⟩ := bind_eq_some_iff.mp h
 obtain ⟨hb, hk, hrow, hlisted⟩ := complete_inv hi htask hstep
 obtain ⟨-, hne, -⟩ := completeStep_cases hstep
 have hacked : ∀ o' ∈ s.acked, ∃ p ∈ db'.payments, p.isPaid = true ∧ p.externalId = some o'.key :=
  fun o' ho' => paid_of_keeps hk (hi.acked o' ho')
 split at h
 · rename_i ok hpc'
   cases h
   refine ⟨hb, ?_, trivial⟩
   intro o' ho'
   split at ho'
   · rename_i hc
     rcases mem_cons.mp ho' with rfl | ho'
     · refine hrow ?_
       rw [hpc']
       simp only [Bool.and_eq_true] at hc
       simp [hc.1]
     · exact hacked o' ho'
   · exact hacked o' ho'
 · rename_i hpc'
   cases h
   refine ⟨hb, hacked, ?_, ?_, hlisted⟩
   · intro hpc
     exact absurd hpc hne
   · intro _
     exact hrow (hpc' false)

theorem step_inv (hsum : engine.SumsToGross) {l : Label} (hi : Inv chain s)
  (h : step engine chain s l = some t) : Inv chain t := by
 cases l with
 | detected o address amount fails => exact step_detected hsum hi h
 | confirmed o fails newId => exact step_confirmed hsum hi h
 | advance fault => exact step_advance hi h
 | crash =>
  cases h
  exact ⟨hi.books, hi.acked, trivial⟩
 | create payment =>
  simp only [step] at h
  split at h
  · cases h
  rename_i hp
  obtain ⟨db', hins, h⟩ := bind_eq_some_iff.mp h
  cases h
  have hst : Stores s.db payment db' := ⟨by simpa using hp, .inr hins⟩
  refine ⟨hi.books.stores hst, fun o ho => paid_of_keeps hst.keepsPaid (hi.acked o ho), ?_⟩
  have htask := hi.task
  rcases hs : s.task with _ | ⟨o, live, call⟩
  · trivial
  rw [hs] at htask
  obtain ⟨h1, h2, h3⟩ := htask
  refine ⟨?_, fun hpc => paid_of_keeps hst.keepsPaid (h2 hpc), ?_⟩
  · intro hpc
    obtain ⟨r, hr, hrest⟩ := h1 hpc
    obtain ⟨-, -, rfl⟩ := Db.insertSubscriptionPayment_eq_some hins
    exact ⟨r, mem_append_left _ hr, hrest⟩
  · intro q hq
    exact ⟨(h3 q hq).1, hst.unpaidIn (h3 q hq).2⟩
 | deleteVm id =>
  cases h
  exact ⟨⟨⟨hi.books.ledger.ids, hi.books.ledger.extIds, hi.books.ledger.unpaid, hi.books.ledger.once,
   hi.books.ledger.known⟩, hi.books.subs, hi.books.gross, hi.books.credited⟩, hi.acked, hi.task⟩
 | tick d =>
  cases h
  exact ⟨hi.books, hi.acked, hi.task⟩

end Invariant

def paidFor (db : Db) (o : Outpoint) : List SubscriptionPayment :=
 db.payments.filter fun p => p.isPaid ∧ p.externalId = some o.key

theorem onchain_exactly_once {engine : AmountPricing} {chain : Outpoint → Deposit} (hsum : engine.SumsToGross)
  {s t : OnChain} {ls : List Label} (h0 : Start s) (hrun : Run (step engine chain) s ls t) (o : Outpoint) :
  (paidFor t.db o).length ≤ 1 ∧ (∀ p ∈ paidFor t.db o, p.gross = (chain o).amountMsat) ∧
   (o ∈ t.acked → ∃ p st, paidFor t.db o = [p] ∧ t.db.settlements.filter (·.paymentId = p.id) = [st] ∧
    st.subscriptionId = p.subscriptionId) := by
 have hi : Inv chain t := hrun.invariant (fun _ _ _ hi _ hs => step_inv hsum hi hs) h0.inv
 have hmem : ∀ p, p ∈ paidFor t.db o ↔ p ∈ t.db.payments ∧ p.isPaid = true ∧ p.externalId = some o.key := by
  intro p
  simp [paidFor, mem_filter]
 have hone : (paidFor t.db o).length ≤ 1 := by
  refine hi.books.ledger.ids.filter_length_le_one ?_
  intro p hp q hq hpo hqo
  simp only [decide_eq_true_eq] at hpo hqo
  exact hi.books.ledger.extIds p hp q hq (hpo.2.trans hqo.2.symm) (by simp [hpo.2])
 refine ⟨hone, ?_, ?_⟩
 · intro p hp
   obtain ⟨h1, h2, h3⟩ := (hmem p).mp hp
   exact hi.books.gross p h1 h2 o h3
 intro ho
 obtain ⟨p, hp, hpaid, hext⟩ := hi.acked o ho
 obtain ⟨st, hst, hid, hsub⟩ := hi.books.credited p hp hpaid o hext
 have hcount := hi.books.ledger.once p.id
 rw [Db.credits, countP_eq_length_filter] at hcount
 refine ⟨p, st, ?_, ?_, hsub⟩
 · exact eq_singleton_of_mem hone ((hmem p).mpr ⟨hp, hpaid, hext⟩)
 · exact eq_singleton_of_mem hcount (mem_filter.mpr ⟨hst, by simp [hid]⟩)

def flatPricing : AmountPricing where
 getCostByAmount _ _ _ gross := some (.new { amount := gross, timeValue := 2592000 * gross / 1000000 })
 getSubscriptionCostByAmount _ _ _ gross := some (.new { amount := gross, timeValue := 2592000 * gross / 1000000 })

theorem flatPricing_sums : flatPricing.SumsToGross := by
 rintro db now id gross info (h | h) <;>
  · obtain rfl := CostResult.new.inj (some.inj h)
    simp

def oneAddress : OnChain where
 db := {
  subscriptions := [{ id := 1, expires := some (30 * day), isActive := true, isSetup := true }]
  lineItems := [{ id := 1, subscriptionId := 1, subscriptionType := .vps }]
  vms := [{ id := 1, subscriptionLineItemId := 1 }]
  payments := [
   { id := 1, subscriptionId := 1, expires := day, paymentMethod := .onChain, externalData := "bc1q",
     amount := 1000000, timeValue := some 2592000 }] }

theorem onchain_exactly_once_two_outputs : ∃ t,
  Run (step flatPricing fun _ => ⟨"bc1q", 1000000⟩) oneAddress
   [.detected ⟨"aa", 0⟩ "bc1q" 900000 false, .confirmed ⟨"aa", 0⟩ false 7, .crash,
    .confirmed ⟨"aa", 0⟩ false 7, .advance false, .advance false, .confirmed ⟨"aa", 1⟩ false 8, .advance false,
    .advance false, .confirmed ⟨"aa", 0⟩ false 9] t ∧
   ∀ o ∈ [Outpoint.mk "aa" 0, Outpoint.mk "aa" 1], ∃ p st, paidFor t.db o = [p] ∧
    t.db.settlements.filter (·.paymentId = p.id) = [st] ∧ st.subscriptionId = p.subscriptionId := by
 have hstart : Start oneAddress := by
  refine ⟨by decide, by decide, by decide, ?_, rfl, rfl, rfl⟩
  intro p hp hpaid
  rw [mem_singleton.mp hp] at hpaid
  cases hpaid
 refine Run.exists_of_exec_imp (P := fun t => ∀ o ∈ [Outpoint.mk "aa" 0, Outpoint.mk "aa" 1], o ∈ t.acked)
  (fun t ht hacked o ho => ?_) (by decide)
 exact (onchain_exactly_once flatPricing_sums hstart ht o).2.2 (hacked o ho)

end OnChain

end Lnvps
