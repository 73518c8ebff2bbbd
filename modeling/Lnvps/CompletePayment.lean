import Lnvps.Lib.Run
import Lnvps.Ledger

/-! # Completing a payment -/

namespace Lnvps

open Table Steps List Option

inductive CompletePc
 | settle
 | lineItems
 | findVm
 | listPending (vmId : Nat)
 | expire (rest : List SubscriptionPayment)
 | returned (ok : Bool)
 deriving DecidableEq

structure CompleteCall where
 payment : SubscriptionPayment
 pc : CompletePc := .settle
 expiredCompetingUpgrades : List SubscriptionPayment := []

def CompleteCall.toExpire (c : CompleteCall) : List SubscriptionPayment :=
 match c.pc with
 | .expire rest => rest
 | _ => []

def completeStep (db : Db) (now : Int) (fault : Bool) (c : CompleteCall) : Option (Db × CompleteCall) :=
 match c.pc with
 | .settle =>
  match if fault then none else db.subscriptionPaymentPaid now c.payment with
  | some db' => some (db', { c with pc := .lineItems })
  | none => some (db, { c with pc := .returned false })
 | .lineItems =>
  if fault then some (db, { c with pc := .returned false })
  else if c.payment.paymentType = .upgrade then some (db, { c with pc := .findVm })
  else some (db, { c with pc := .returned true })
 | .findVm =>
  match if fault then none else db.getVmBySubscription c.payment.subscriptionId with
  | some vm => some (db, { c with pc := .listPending vm.id })
  | none => some (db, { c with pc := .returned true })
 | .listPending vmId =>
  if fault then some (db, { c with pc := .returned false })
  else
   let otherUpgrades := (db.listPendingVmSubscriptionPayments now vmId).filter fun p =>
    p.paymentType = .upgrade ∧ p.id ≠ c.payment.id
   some (db, { c with pc := .expire otherUpgrades })
 | .expire [] => some (db, { c with pc := .returned true })
 | .expire (ugp :: rest) =>
  let expired := { ugp with expires := now }
  let db' := (if fault then none else db.updateSubscriptionPayment expired).getD db
  some (db', { c with
   pc := .expire rest
   expiredCompetingUpgrades := c.expiredCompetingUpgrades ++ [expired] })
 | .returned _ => none

theorem mem_listPending {db : Db} {now : Int} {vmId : Nat} {p : SubscriptionPayment}
  (h : p ∈ db.listPendingVmSubscriptionPayments now vmId) : p ∈ db.payments ∧ p.isPaid = false := by
 unfold Db.listPendingVmSubscriptionPayments at h
 rw [mem_insertionSort, mem_filter] at h
 refine ⟨h.1, ?_⟩
 have h2 := h.2
 simp only [decide_eq_true_eq] at h2
 simpa using h2.2.1

theorem completeStep_cases {db db' : Db} {now : Int} {fault : Bool} {c c' : CompleteCall}
  (h : completeStep db now fault c = some (db', c')) :
  c'.payment = c.payment ∧ c'.pc ≠ .settle ∧
   ((db' = db ∧ (c.pc = .settle → c'.pc = .returned false) ∧
     ∀ p ∈ c'.toExpire, p ∈ c.toExpire ∨ p ∈ db.payments ∧ p.isPaid = false) ∨
    (c.pc = .settle ∧ c'.pc = .lineItems ∧ fault = false ∧
     db.subscriptionPaymentPaid now c.payment = some db') ∨
    ∃ p rest, c.pc = .expire (p :: rest) ∧ c'.pc = .expire rest ∧
     db.updateSubscriptionPayment { p with expires := now } = some db') := by
 unfold completeStep at h
 split at h
 case h_1 hpc =>
  split at h
  · rename_i db₁ hdb
    cases fault
    · obtain ⟨rfl, rfl⟩ := h
      exact ⟨rfl, by simp, .inr (.inl ⟨hpc, rfl, rfl, hdb⟩)⟩
    · cases hdb
  · obtain ⟨rfl, rfl⟩ := h
    exact ⟨rfl, by simp, .inl ⟨rfl, fun _ => rfl, by simp [CompleteCall.toExpire]⟩⟩
 case h_6 ugp rest hpc =>
  obtain ⟨rfl, rfl⟩ := h
  refine ⟨rfl, by simp, ?_⟩
  rcases hu : (if fault then none else db.updateSubscriptionPayment { ugp with expires := now }) with _ | db₁
  · refine .inl ⟨rfl, by simp [hpc], ?_⟩
    intro p hp
    left
    simp only [CompleteCall.toExpire, hpc]
    exact mem_cons_of_mem _ hp
  · right; right
    refine ⟨ugp, rest, hpc, rfl, ?_⟩
    cases fault
    · exact hu
    · cases hu
 case h_7 => cases h
 all_goals
  rename_i hpc
  repeat' split at h
  all_goals
   obtain ⟨rfl, rfl⟩ := h
   refine ⟨rfl, by simp, .inl ⟨rfl, by simp [hpc], fun p hp => ?_⟩⟩
  all_goals first | cases hp | exact .inr (mem_listPending (mem_filter.mp hp).1)

structure Listeners where
 db : Db
 now : Int := 0
 calls : List CompleteCall := []

namespace Listeners

inductive Label
 | deliver (id : Nat)
 | advance (i : Nat) (fault : Bool)
 | create (payment : SubscriptionPayment)
 | tick (d : Nat)

def step (s : Listeners) : Label → Option Listeners
 | .deliver id => do
  let payment ← s.db.getSubscriptionPayment id
  some { s with calls := s.calls ++ [{ payment }] }
 | .advance i fault => do
  let c ← s.calls[i]?
  let (db', c') ← completeStep s.db s.now fault c
  some { s with db := db', calls := s.calls.set i c' }
 | .create payment =>
  if payment.isPaid then none
  else do
   let db' ← s.db.insertSubscriptionPayment payment
   some { s with db := db' }
 | .tick d => some { s with now := s.now + d }

structure Start (s : Listeners) : Prop where
 calls : s.calls = []
 ids : Keyed (·.id) s.db.payments
 extIds : ∀ p ∈ s.db.payments, ∀ q ∈ s.db.payments, p.externalId = q.externalId → p.externalId ≠ none → p.id = q.id
 settlements : s.db.settlements = []

def settlesUnlisted (s : Listeners) : Label → Bool
 | .advance i false => s.calls[i]?.all fun c =>
   c.pc ≠ .settle ∨ ∀ c' ∈ s.calls, ∀ p ∈ c'.toExpire, p.id ≠ c.payment.id
 | _ => true

structure Inv (s : Listeners) : Prop where
 ledger : Ledger s.db
 listed : ∀ c ∈ s.calls, ∀ p ∈ c.toExpire, p.isPaid = false ∧ s.db.UnpaidIn p.id

theorem Start.inv {s : Listeners} (h : Start s) : Inv s := by
 refine ⟨⟨h.ids, h.extIds, ?_, ?_, ?_⟩, ?_⟩
 · simp [Db.credits, h.settlements]
 · simp [Db.credits, h.settlements]
 · simp [h.settlements]
 · simp [h.calls]

theorem step_inv {s t : Listeners} {l : Label} (hi : Inv s) (hok : settlesUnlisted s l = true) (h : step s l = some t) :
  Inv t ∧ s.db.KeepsPaid t.db := by
 cases l with
 | deliver id =>
  obtain ⟨p, -, h⟩ := bind_eq_some_iff.mp h
  cases h
  refine ⟨⟨hi.ledger, ?_⟩, .refl _⟩
  intro c hc q hq
  rcases mem_append.mp hc with hc | hc
  · exact hi.listed c hc q hq
  · rw [mem_singleton.mp hc] at hq
    cases hq
 | tick d =>
  cases h
  exact ⟨⟨hi.ledger, hi.listed⟩, .refl _⟩
 | create p =>
  simp only [step] at h
  split at h
  · cases h
  rename_i hp
  obtain ⟨db', hdb, h⟩ := bind_eq_some_iff.mp h
  cases h
  refine ⟨⟨hi.ledger.insertSubscriptionPayment hdb, ?_⟩, Db.keepsPaid_insert hdb⟩
  intro c hc q hq
  obtain ⟨h1, h2⟩ := hi.listed c hc q hq
  exact ⟨h1, h2.insert hdb (by simpa using hp)⟩
 | advance i fault =>
  obtain ⟨c, hc, h⟩ := bind_eq_some_iff.mp h
  obtain ⟨⟨db', c'⟩, hstep, h⟩ := bind_eq_some_iff.mp h
  cases h
  have hcm : c ∈ s.calls := mem_of_getElem? hc
  obtain ⟨-, -, hcases⟩ := completeStep_cases hstep
  rcases hcases with ⟨rfl, -, hnew⟩ | ⟨hpc, hpc', rfl, hpaid⟩ | ⟨p, rest, hpc, hpc', hupd⟩
  · refine ⟨⟨hi.ledger, ?_⟩, .refl _⟩
    intro c₁ hc₁ q hq
    rcases mem_or_eq_of_mem_set hc₁ with hc₁ | rfl
    · exact hi.listed c₁ hc₁ q hq
    rcases hnew q hq with hq | ⟨hq, hu⟩
    · exact hi.listed c hcm q hq
    · refine ⟨hu, ?_⟩
      intro r hr hid
      rw [hi.ledger.ids.eq_of_key hr hq hid, hu]
  · have hfree : ∀ c' ∈ s.calls, ∀ q ∈ c'.toExpire, q.id ≠ c.payment.id := by
     simp only [settlesUnlisted, hc, all_some, decide_eq_true_eq] at hok
     exact hok.resolve_left (not_not_intro hpc)
    refine ⟨⟨hi.ledger.subscriptionPaymentPaid hpaid, ?_⟩, Db.keepsPaid_settle hpaid⟩
    intro c₁ hc₁ q hq
    rcases mem_or_eq_of_mem_set hc₁ with hc₁ | rfl
    · obtain ⟨h1, h2⟩ := hi.listed c₁ hc₁ q hq
      exact ⟨h1, h2.settle hpaid (hfree c₁ hc₁ q hq)⟩
    · simp [CompleteCall.toExpire, hpc'] at hq
  · have hsub : ∀ q ∈ rest, q ∈ c.toExpire := by
     intro q hq
     simp [CompleteCall.toExpire, hpc, hq]
    obtain ⟨hp, hu⟩ := hi.listed c hcm p (by simp [CompleteCall.toExpire, hpc])
    refine ⟨⟨hi.ledger.updateSubscriptionPayment hupd ?_, ?_⟩, Db.keepsPaid_update hupd hu⟩
    · intro r hr hid hpr
      rw [hu r hr hid] at hpr
      cases hpr
    intro c₁ hc₁ q hq
    have hq' : q.isPaid = false ∧ s.db.UnpaidIn q.id := by
     rcases mem_or_eq_of_mem_set hc₁ with hc₁ | rfl
     · exact hi.listed c₁ hc₁ q hq
     · simp only [CompleteCall.toExpire, hpc'] at hq
       exact hi.listed c hcm q (hsub q hq)
    exact ⟨hq'.1, hq'.2.update hupd hp⟩

theorem run_inv {s t : Listeners} {ls : List Label} (hi : Inv s) (h : RunIf step (settlesUnlisted · ·) s ls t) :
  Inv t :=
 h.invariant (fun _ _ _ hi hok hs => (step_inv hi hok hs).1) hi

def PaidOnce (t u : Listeners) : Prop :=
 (∀ p ∈ t.db.payments, p.isPaid = true → ∃ q ∈ u.db.payments, q.id = p.id ∧ q.isPaid = true) ∧
  ∀ id, u.db.credits id ≤ 1

theorem listeners_paid_once {s t u : Listeners} {ls ls' : List Label} (h0 : Start s)
  (hst : RunIf step (settlesUnlisted · ·) s ls t) (htu : RunIf step (settlesUnlisted · ·) t ls' u) :
  PaidOnce t u := by
 have hk : t.db.KeepsPaid u.db :=
  htu.rel (R := fun v w => v.db.KeepsPaid w.db) (fun _ => .refl _) (fun _ _ _ => .trans)
   (fun _ _ _ hi hok hs => (step_inv hi hok hs).1) (fun _ _ _ hi hok hs => (step_inv hi hok hs).2)
   (run_inv h0.inv hst)
 refine ⟨?_, (run_inv (run_inv h0.inv hst) htu).ledger.once⟩
 intro p hp hpaid
 exact ⟨p, hk p hp hpaid, rfl, hpaid⟩

def twoUpgrades : Listeners where
 db := {
  subscriptions := [{ id := 1, expires := some (30 * day), isActive := true, isSetup := true }]
  lineItems := [{ id := 1, subscriptionId := 1, subscriptionType := .vps }]
  vms := [{ id := 1, subscriptionLineItemId := 1 }]
  payments := [
   { id := 1, subscriptionId := 1, expires := day, paymentType := .upgrade, externalId := some "a",
     timeValue := some 0 },
   { id := 2, subscriptionId := 1, expires := day, paymentType := .upgrade, externalId := some "b",
     timeValue := some 0 }] }

theorem twoUpgrades_start : Start twoUpgrades := ⟨rfl, by decide, by decide, rfl⟩

/-- The first upgrade is completed, its competitor is expired, and a second delivery changes nothing. -/
theorem listeners_paid_once_two_upgrades : ∃ t u,
  RunIf step (settlesUnlisted · ·) twoUpgrades [.deliver 1, .advance 0 false] t ∧
   RunIf step (settlesUnlisted · ·) t (List.replicate 5 (.advance 0 false) ++ [.deliver 1, .advance 1 false]) u ∧
   t.db.credits 1 = 1 ∧ PaidOnce t u := by
 obtain ⟨t, ht, hc, hu⟩ := RunIf.exists_of_execIf (f := step) (c := settlesUnlisted) (s := twoUpgrades)
  (r := [.deliver 1, .advance 0 false]) (P := fun t => t.db.credits 1 = 1 ∧ (execIf step settlesUnlisted t
   (List.replicate 5 (.advance 0 false) ++ [.deliver 1, .advance 1 false])).any (fun _ => True) = true)
  (by decide +kernel)
 obtain ⟨u, hu, -⟩ := RunIf.exists_of_execIf hu
 exact ⟨t, u, ht, hu, hc, listeners_paid_once twoUpgrades_start ht hu⟩

/-- The second upgrade is settled while the call of the first still holds its unpaid row. The call then writes this
row back as unpaid. -/
theorem upgrade_expiry_reverts_paid :
  ¬ ∀ (s t u : Listeners) (ls ls' : List Label), Start s → Run step s ls t → Run step t ls' u → PaidOnce t u := by
 intro h
 obtain ⟨t, ht, ⟨p, hp, hid, hpaid⟩, hu⟩ := Run.exists_of_exec (f := step) (s := twoUpgrades)
  (r := [.deliver 1] ++ List.replicate 4 (.advance 0 false) ++ [.deliver 2, .advance 1 false])
  (P := fun t => (∃ p ∈ t.db.payments, p.id = 2 ∧ p.isPaid = true) ∧ (exec step t [.advance 0 false]).any
   (fun u => ∀ q ∈ u.db.payments, q.id = 2 → q.isPaid = false) = true)
  (by decide +kernel)
 obtain ⟨u, hu, hun⟩ := Run.exists_of_exec hu
 obtain ⟨q, hq, hqid, hqpaid⟩ := (h _ _ _ _ _ twoUpgrades_start ht hu).1 p hp hpaid
 rw [hun q hq (hqid.trans hid)] at hqpaid
 cases hqpaid

end Listeners

end Lnvps
