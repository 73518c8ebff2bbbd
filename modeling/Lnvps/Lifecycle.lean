import Lnvps.Lib.Run
import Lnvps.Ledger

/-! # The lifecycle of a subscription -/

namespace Lnvps

open Table Steps Option

def gracePeriodDaysForSub (sub : Subscription) (now : Int) (deleteAfter : Nat) : Nat :=
 let ageDays := max 0 ((now - sub.created).tdiv day)
 if ageDays ≤ 1 then 1
 else if ageDays ≤ 7 then 2
 else if ageDays ≤ 28 then 7
 else if ageDays ≤ 180 then 14
 else deleteAfter

structure ClockReadings where
 (now tier grace expired : Int)

def subscriptionExpiryAlreadyHandled (db : Db) (expires : Int) (lineItems : List SubscriptionLineItem)
  (lastCheck : Int) : Bool :=
 let vps := lineItems.filter fun li => li.subscriptionType = .vps
 (vps.any fun li => (db.getVmByLineItem li.id).any fun vm => (db.listVmHistory vm.id).any fun h =>
  h.isExpired ∧ expires ≤ h.timestamp) ||
 (vps.isEmpty && expires < lastCheck)

inductive LifecycleBranch
 | expiringSoon
 | cancel (graceDays : Nat)
 | expired
 | none
 deriving DecidableEq

def lifecycleBranch (db : Db) (deleteAfter : Nat) (sub : Subscription) (lastCheck : Int) (r : ClockReadings) :
  LifecycleBranch :=
 match sub.expires with
 | Option.none => .none
 | some expires =>
  let graceDays := gracePeriodDaysForSub sub r.tier deleteAfter
  if r.now < expires ∧ expires < r.now + day ∧ lastCheck + day < expires then .expiringSoon
  else if expires + graceDays * day < r.grace then .cancel graceDays
  else if expires < r.expired ∧
    !subscriptionExpiryAlreadyHandled db expires (db.listSubscriptionLineItems sub.id) lastCheck then .expired
  else .none

theorem lifecycleBranch_cancel {db : Db} {deleteAfter graceDays : Nat} {sub : Subscription} {lastCheck : Int}
  {r : ClockReadings} (h : lifecycleBranch db deleteAfter sub lastCheck r = .cancel graceDays) :
  graceDays = gracePeriodDaysForSub sub r.tier deleteAfter ∧
   ∃ e, sub.expires = some e ∧ e + graceDays * day < r.grace := by
 unfold lifecycleBranch at h
 split at h
 · cases h
 rename_i e he
 dsimp only at h
 split at h
 · cases h
 split at h
 · rename_i hc
   obtain rfl := LifecycleBranch.cancel.inj h
   exact ⟨rfl, e, he, hc⟩
 · split at h <;> cases h

inductive WorkerPc
 | idle
 | looping (lastCheck : Int) (rest : List Subscription)
 | cancelling (lastCheck : Int) (sub : Subscription) (graceDays : Nat) (rest : List Subscription)

structure Lifecycle where
 db : Db
 (now lastCheck : Int := 0)
 pc : WorkerPc := .idle

namespace Lifecycle

inductive Label
 | list
 | handle (fault : Bool) (d₁ d₂ d₃ : Nat)
 | writeBack (fault : Bool)
 | finish
 | pay (id : Nat)
 | create (payment : SubscriptionPayment)
 | tick (d : Nat)

def checkVmsSeconds : Int := 30

def step (deleteAfter : Nat) (s : Lifecycle) : Label → Option Lifecycle
 | .list =>
  match s.pc with
  | .idle =>
   if (s.now - s.lastCheck).tdiv second < checkVmsSeconds then some s
   else some { s with pc := .looping s.lastCheck s.db.listLifecycleSubscriptions }
  | _ => none
 | .handle fault d₁ d₂ d₃ =>
  match s.pc with
  | .looping lastCheck (sub :: rest) =>
   if fault then some { s with pc := .looping lastCheck rest }
   else
    let r := ⟨s.now, s.now + d₁, s.now + d₁ + d₂, s.now + d₁ + d₂ + d₃⟩
    match lifecycleBranch s.db deleteAfter sub lastCheck r with
    | .cancel graceDays => some { s with now := r.grace, pc := .cancelling lastCheck sub graceDays rest }
    | _ => some { s with now := r.expired, pc := .looping lastCheck rest }
  | _ => none
 | .writeBack fault =>
  match s.pc with
  | .cancelling lastCheck sub _ rest =>
   let db' := if fault then s.db else s.db.updateSubscription { sub with isActive := false }
   some { s with db := db', pc := .looping lastCheck rest }
  | _ => none
 | .finish =>
  match s.pc with
  | .looping _ [] => some { s with lastCheck := s.now / second * second, pc := .idle }
  | _ => none
 | .pay id => do
  let payment ← s.db.getSubscriptionPayment id
  let db' ← s.db.subscriptionPaymentPaid s.now payment
  some { s with db := db' }
 | .create payment => do
  let db' ← s.db.insertSubscriptionPayment payment
  some { s with db := db' }
 | .tick d => some { s with now := s.now + d }

structure Start (s : Lifecycle) : Prop where
 settlements : s.db.settlements = []
 pc : s.pc = .idle

def cancelsListed (deleteAfter : Nat) (s : Lifecycle) : Label → Bool
 | .writeBack false =>
  match s.pc with
  | .cancelling _ sub graceDays _ => (s.db.getSubscription sub.id).all fun stored =>
    stored.expires = sub.expires ∧ gracePeriodDaysForSub stored s.now deleteAfter = graceDays
  | _ => true
 | _ => true

def ExtensionsKept (db : Db) : Prop :=
 ∀ st ∈ db.settlements, ∃ sub e, db.getSubscription st.subscriptionId = some sub ∧ sub.expires = some e ∧ st.after ≤ e

def CancelsInTime (deleteAfter : Nat) (s t : Lifecycle) : Prop :=
 ∀ id a b, s.db.getSubscription id = some a → t.db.getSubscription id = some b →
  a.isActive = true → b.isActive = false →
   ∃ e, a.expires = some e ∧ e + gracePeriodDaysForSub a s.now deleteAfter * day ≤ s.now

section Extensions

variable {db db' : Db} {now : Int} {payment : SubscriptionPayment}

theorem le_extensionBase {e : Int} {expires : Option Int} (h : expires = some e) :
  e ≤ Db.extensionBase now expires := by
 subst h
 exact Int.le_max_left _ _

theorem ExtensionsKept.settle (hk : ExtensionsKept db) (h : db.subscriptionPaymentPaid now payment = some db') :
  ExtensionsKept db' := by
 rcases Db.subscriptionPaymentPaid_cases h with ⟨rfl, -⟩ | ⟨-, -, -, -, f, hf, rfl⟩
 · exact hk
 have hle := Db.le_creditedTime hf
 have hget := Db.getSubscription_extendSubscription
  ((db.markPaid now payment).undeleteVms payment.subscriptionId) now payment.id payment.subscriptionId f
 intro st hst
 rcases List.mem_append.mp hst with hst | hst
 · obtain ⟨sub, e, hsub, he, hle'⟩ := hk st hst
   have hsub' : ((db.markPaid now payment).undeleteVms payment.subscriptionId).getSubscription st.subscriptionId =
    some sub := hsub
   rw [hget, hsub', map_some]
   by_cases hid : sub.id = payment.subscriptionId
   · refine ⟨_, _, rfl, by rw [if_pos hid], ?_⟩
     exact hle'.trans ((le_extensionBase he).trans (hle _))
   · exact ⟨_, e, rfl, by rw [if_neg hid]; exact he, hle'⟩
 · obtain ⟨sub, hsub, rfl⟩ := List.mem_map.mp hst
   rw [mem_toList] at hsub
   rw [hget, hsub, map_some]
   exact ⟨_, _, rfl, by rw [if_pos (key_of_lookup hsub)], Int.le_refl _⟩

theorem ExtensionsKept.updateSubscription (hk : ExtensionsKept db) {x : Subscription}
  (hx : ∀ stored, db.getSubscription x.id = some stored → stored.expires = x.expires) :
  ExtensionsKept (db.updateSubscription x) := by
 intro st hst
 obtain ⟨sub, e, hsub, he, hle⟩ := hk st hst
 rw [Db.getSubscription_updateSubscription, hsub, map_some]
 by_cases hid : sub.id = x.id
 · refine ⟨_, e, rfl, ?_, hle⟩
   rw [if_pos hid]
   rw [← key_of_lookup hsub, hid] at hsub
   exact (hx sub hsub).symm.trans he
 · exact ⟨_, e, rfl, by rw [if_neg hid]; exact he, hle⟩

end Extensions

structure Inv (s : Lifecycle) : Prop where
 kept : ExtensionsKept s.db
 decided : ∀ lastCheck sub graceDays rest, s.pc = .cancelling lastCheck sub graceDays rest →
  ∃ e, sub.expires = some e ∧ e + graceDays * day < s.now

theorem Start.inv {s : Lifecycle} (h : Start s) : Inv s := by
 refine ⟨?_, ?_⟩
 · intro st hst
   rw [h.settlements] at hst
   cases hst
 · intro _ _ _ _ hpc
   rw [h.pc] at hpc
   cases hpc

section Steps

variable {deleteAfter : Nat} {s t : Lifecycle}

private theorem cancelsInTime_of_get (h : ∀ id, t.db.getSubscription id = s.db.getSubscription id) :
  CancelsInTime deleteAfter s t := by
 intro id a b ha hb hon hoff
 rw [h, ha] at hb
 cases hb
 rw [hon] at hoff
 cases hoff

theorem step_handle {fault : Bool} {d₁ d₂ d₃ : Nat} (hi : Inv s)
  (h : step deleteAfter s (.handle fault d₁ d₂ d₃) = some t) : Inv t ∧ CancelsInTime deleteAfter s t := by
 simp only [step] at h
 split at h
 · split at h
   · cases h
     exact ⟨⟨hi.kept, by simp⟩, cancelsInTime_of_get fun _ => rfl⟩
   split at h
   · rename_i hbranch
     cases h
     refine ⟨⟨hi.kept, ?_⟩, cancelsInTime_of_get fun _ => rfl⟩
     intro _ _ _ _ hpc
     obtain ⟨-, rfl, rfl, -⟩ := WorkerPc.cancelling.inj hpc
     exact (lifecycleBranch_cancel hbranch).2
   · cases h
     exact ⟨⟨hi.kept, by simp⟩, cancelsInTime_of_get fun _ => rfl⟩
 · cases h

theorem step_writeBack {fault : Bool} (hi : Inv s) (hok : cancelsListed deleteAfter s (.writeBack fault) = true)
  (h : step deleteAfter s (.writeBack fault) = some t) : Inv t ∧ CancelsInTime deleteAfter s t := by
 simp only [step] at h
 split at h
 · rename_i lastCheck sub graceDays rest hpc
   cases h
   cases fault with
   | true => exact ⟨⟨hi.kept, by simp⟩, cancelsInTime_of_get fun _ => rfl⟩
   | false =>
    have hlisted : ∀ stored, s.db.getSubscription sub.id = some stored →
      stored.expires = sub.expires ∧ gracePeriodDaysForSub stored s.now deleteAfter = graceDays := by
     intro stored hstored
     simpa [cancelsListed, hpc, hstored] using hok
    refine ⟨⟨hi.kept.updateSubscription fun stored hst => (hlisted stored hst).1, by simp⟩, ?_⟩
    intro id a b ha hb hon hoff
    rw [show (if false = true then s.db else s.db.updateSubscription { sub with isActive := false }) =
     s.db.updateSubscription { sub with isActive := false } from rfl, Db.getSubscription_updateSubscription, ha,
     map_some] at hb
    cases hb
    by_cases hid : a.id = sub.id
    · rw [← key_of_lookup ha, hid] at ha
      obtain ⟨hexp, hgrace⟩ := hlisted a ha
      obtain ⟨e, he, hlt⟩ := hi.decided _ _ _ _ hpc
      exact ⟨e, hexp.trans he, by rw [hgrace]; omega⟩
    · rw [if_neg hid, hon] at hoff
      cases hoff
 · cases h

theorem step_pay {id : Nat} (hi : Inv s) (h : step deleteAfter s (.pay id) = some t) :
  Inv t ∧ CancelsInTime deleteAfter s t := by
 obtain ⟨payment, -, h⟩ := bind_eq_some_iff.mp h
 obtain ⟨db', hpaid, h⟩ := bind_eq_some_iff.mp h
 cases h
 refine ⟨⟨hi.kept.settle hpaid, hi.decided⟩, ?_⟩
 rcases Db.subscriptionPaymentPaid_cases hpaid with ⟨rfl, -⟩ | ⟨-, -, -, -, f, -, rfl⟩
 · exact cancelsInTime_of_get fun _ => rfl
 intro id a b ha hb hon hoff
 rw [Db.getSubscription_extendSubscription, show ((s.db.markPaid s.now payment).undeleteVms
  payment.subscriptionId).getSubscription id = some a from ha, map_some] at hb
 cases hb
 split at hoff
 · cases hoff
 · rw [hon] at hoff
   cases hoff

theorem step_inv {l : Label} (hi : Inv s) (hok : cancelsListed deleteAfter s l = true)
  (h : step deleteAfter s l = some t) : Inv t ∧ CancelsInTime deleteAfter s t := by
 cases l with
 | list =>
  simp only [step] at h
  split at h
  · split at h <;> obtain rfl := some.inj h
    · exact ⟨hi, cancelsInTime_of_get fun _ => rfl⟩
    · exact ⟨⟨hi.kept, by simp⟩, cancelsInTime_of_get fun _ => rfl⟩
  · cases h
 | handle fault d₁ d₂ d₃ => exact step_handle hi h
 | writeBack fault => exact step_writeBack hi hok h
 | finish =>
  simp only [step] at h
  split at h
  · cases h
    exact ⟨⟨hi.kept, by simp⟩, cancelsInTime_of_get fun _ => rfl⟩
  · cases h
 | pay id => exact step_pay hi h
 | create payment =>
  obtain ⟨db', hins, h⟩ := bind_eq_some_iff.mp h
  cases h
  obtain ⟨-, -, rfl⟩ := Db.insertSubscriptionPayment_eq_some hins
  exact ⟨⟨hi.kept, hi.decided⟩, cancelsInTime_of_get fun _ => rfl⟩
 | tick d =>
  cases h
  refine ⟨⟨hi.kept, ?_⟩, cancelsInTime_of_get fun _ => rfl⟩
  intro lastCheck sub graceDays rest hpc
  obtain ⟨e, he, hlt⟩ := hi.decided lastCheck sub graceDays rest hpc
  exact ⟨e, he, by dsimp only; omega⟩

end Steps

theorem lifecycle_keeps_payments {deleteAfter : Nat} {s t : Lifecycle} {ls : List Label} (h0 : Start s)
  (hrun : RunIf (step deleteAfter) (cancelsListed deleteAfter · ·) s ls t) :
  ExtensionsKept t.db ∧ ∀ l u, cancelsListed deleteAfter t l = true → step deleteAfter t l = some u →
   CancelsInTime deleteAfter t u := by
 have hi : Inv t := hrun.invariant (fun _ _ _ hi hok hs => (step_inv hi hok hs).1) h0.inv
 exact ⟨hi.kept, fun l u hok hs => (step_inv hi hok hs).2⟩

def expiredWithRenewal : Lifecycle where
 db := {
  subscriptions := [{ id := 1, created := 0, expires := some (10 * day), isActive := true, isSetup := true }]
  payments := [{ id := 1, subscriptionId := 1, expires := 19 * day, timeValue := some 2592000 }] }
 now := 18 * day
 lastCheck := 18 * day - 60 * second

/-- The renewal is paid, and 50 days later the subscription is cancelled. -/
theorem lifecycle_keeps_payments_cancelled : ∃ t,
  RunIf (step 3) (cancelsListed 3 · ·) expiredWithRenewal
   [.pay 1, .tick (50 * 86400000000000), .list, .handle false 0 0 0, .writeBack false, .finish] t ∧
   t.db.settlements.length = 1 ∧ ExtensionsKept t.db :=
 RunIf.exists_and_of_execIf (by decide) fun _ ht _ => (lifecycle_keeps_payments ⟨rfl, rfl⟩ ht).1

/-- The renewal is paid between the listing and the cancellation, which writes the old expiry back. -/
theorem cancellation_loses_payment :
  ¬ ∀ (deleteAfter : Nat) (s t : Lifecycle) (ls : List Label), Start s → Run (step deleteAfter) s ls t →
   ExtensionsKept t.db ∧ ∀ l u, step deleteAfter t l = some u → CancelsInTime deleteAfter t u := by
 intro h
 obtain ⟨t, ht, st, hst, hid, hafter, hall⟩ := Run.exists_of_exec (f := step 3) (s := expiredWithRenewal)
  (r := [.list, .handle false 0 0 0, .pay 1, .writeBack false])
  (P := fun t => ∃ st ∈ t.db.settlements, st.subscriptionId = 1 ∧ st.after = 48 * day ∧
   (t.db.getSubscription 1).all (fun sub => sub.expires = some (10 * day)) = true) (by decide)
 obtain ⟨sub, e, hsub, he, hle⟩ := (h 3 _ t _ ⟨rfl, rfl⟩ ht).1 st hst
 rw [hid] at hsub
 rw [hsub, Option.all_some, decide_eq_true_eq, he, Option.some.injEq] at hall
 rw [hafter, hall] at hle
 exact absurd hle (by decide)

end Lifecycle

end Lnvps
