import Lnvps.Lib.Run
import Lnvps.Ledger

/-! # Purging unpaid VMs -/

namespace Lnvps

open Table Steps List Option Db

namespace Db

variable (db : Db)

def listVms : List Vm := db.vms.filter (!·.deleted)

def listVmSubscriptionPayments (vmId : Nat) : List SubscriptionPayment :=
 (db.payments.filter fun sp => db.lineItems.any fun sli => sli.subscriptionId = sp.subscriptionId ∧
  db.vms.any fun v => v.subscriptionLineItemId = sli.id ∧ v.id = vmId).insertionSort fun p q => q.created ≤ p.created

def vmSubscriptionId (vmId : Nat) : Option Nat := do
 let vm ← db.getVm vmId
 let li ← db.getSubscriptionLineItem vm.subscriptionLineItemId
 some li.subscriptionId

def hardDeleteVm (vmId : Nat) : Option Db :=
 let sid := db.vmSubscriptionId vmId
 let vms := db.vms.filter fun v => v.id ≠ vmId
 if vms.any fun v => db.lineItems.any fun li => sid = some li.subscriptionId ∧ li.id = v.subscriptionLineItemId then
  none
 else some { db with
  vms
  vmHistory := db.vmHistory.filter fun h => h.vmId ≠ vmId
  payments := db.payments.filter fun p => sid ≠ some p.subscriptionId
  subscriptions := db.subscriptions.filter fun s => sid ≠ some s.id
  lineItems := db.lineItems.filter fun li => sid ≠ some li.subscriptionId }

end Db

def paymentBlocksUnpaidVmDeletion (p : SubscriptionPayment) (now : Int) : Bool :=
 !p.isPaid ∧ (now < p.expires ∨ (p.paymentMethod = .onChain ∧ p.externalId.isSome))

inductive DeleteStep
 | getVm
 | getHost (hostId : Nat)
 | hostDeleteVm
 | deleteIps
 | deleteVmDb

inductive PurgePhase
 | idle
 | classify (rest toDelete : List Vm)
 | reread (vm : Vm) (rest : List Vm)
 | listPayments (vm : Vm) (rest : List Vm)
 | delete (vm : Vm) (rest : List Vm) (at_ : DeleteStep)

structure Purged where
 time : Int
 subscriptions : List Subscription
 payments : List SubscriptionPayment

structure PurgeState where
 db : Db
 now : Int := 0
 phase : PurgePhase := .idle
 purges : List Purged := []

namespace Purge

def deletions : List Vm → PurgePhase
 | [] => .idle
 | vm :: rest => .reread vm rest

def afterLook (toDelete : List Vm) : List Vm → PurgePhase
 | [] => deletions toDelete
 | rest => .classify rest toDelete

def unpaid (now : Int) (sub : Subscription) : Bool := 3600 * second < now - sub.created ∧ !sub.isSetup

variable (s : PurgeState)

def deleteVm (vm : Vm) (rest : List Vm) : DeleteStep → PurgeState
 | .getVm =>
  match s.db.getVm vm.id with
  | none => { s with phase := deletions rest }
  | some row => { s with phase := .delete vm rest (.getHost row.hostId) }
 | .getHost hostId =>
  match s.db.getHost hostId with
  | none => { s with phase := deletions rest }
  | some _ => { s with phase := .delete vm rest .hostDeleteVm }
 | .hostDeleteVm => { s with phase := .delete vm rest .deleteIps }
 | .deleteIps => { s with phase := .delete vm rest .deleteVmDb }
 | .deleteVmDb =>
  match s.db.hardDeleteVm vm.id with
  | none => { s with phase := deletions rest }
  | some db => { s with
    db
    phase := deletions rest
    purges := s.purges ++ [{
     time := s.now
     subscriptions := s.db.subscriptions.filter fun sub => s.db.vmSubscriptionId vm.id = some sub.id
     payments := s.db.payments.filter fun p => s.db.vmSubscriptionId vm.id = some p.subscriptionId }] }

def query (fails : Bool) : PurgePhase → PurgeState
 | .idle => s
 | .classify [] toDelete => { s with phase := deletions toDelete }
 | .classify (vm :: rest) toDelete =>
  let sub := if fails then none else s.db.getSubscriptionByLineItemId vm.subscriptionLineItemId
  { s with phase := afterLook (if sub.any (unpaid s.now) then toDelete ++ [vm] else toDelete) rest }
 | .reread vm rest =>
  match if fails then none else s.db.getSubscriptionByLineItemId vm.subscriptionLineItemId with
  | none => { s with phase := deletions rest }
  | some sub => { s with phase := if sub.isSetup then deletions rest else .listPayments vm rest }
 | .listPayments vm rest =>
  let blocked := !fails && (s.db.listVmSubscriptionPayments vm.id).any (paymentBlocksUnpaidVmDeletion · s.now)
  { s with phase := if blocked then deletions rest else .delete vm rest .getVm }
 | .delete vm rest at_ => if fails then { s with phase := deletions rest } else deleteVm s vm rest at_

inductive Label
 | checkVms
 | advance (fails : Bool)
 | tick (nanos : Nat)
 | create (payment : SubscriptionPayment)
 | write (payment : SubscriptionPayment)
 | settle (payment : SubscriptionPayment)

variable (db : Db)

def ownSubscription (payment : SubscriptionPayment) : Bool :=
 db.payments.all fun p => p.id ≠ payment.id ∨ p.subscriptionId = payment.subscriptionId

def step : Label → Option PurgeState
 | .checkVms =>
  match s.phase with
  | .idle => some { s with phase := afterLook [] s.db.listVms }
  | _ => none
 | .advance fails => some (query s fails s.phase)
 | .tick nanos => some { s with now := s.now + nanos }
 | .create payment =>
  if payment.isPaid then none else (s.db.insertSubscriptionPayment payment).map fun db => { s with db }
 | .write payment =>
  if payment.isPaid then none else (s.db.updateSubscriptionPayment payment).map fun db => { s with db }
 | .settle payment =>
  if !ownSubscription s.db payment then none
  else (s.db.subscriptionPaymentPaid s.now payment).map fun db => { s with db }

def Purged.Clean (p : Purged) : Prop :=
 (∀ sub ∈ p.subscriptions, sub.isSetup = false) ∧
  ∀ payment ∈ p.payments, payment.isPaid = false ∧ payment.expires ≤ p.time ∧
   ¬ (payment.paymentMethod = .onChain ∧ payment.externalId.isSome = true)

def checked : PurgePhase → Option Vm
 | .listPayments vm _ => some vm
 | .delete vm _ _ => some vm
 | _ => none

def cleared : PurgePhase → Option Vm
 | .delete vm _ _ => some vm
 | _ => none

def billedBy (subscriptionId : Nat) (vm : Vm) : Bool := db.vmSubscriptionId vm.id = some subscriptionId

def undisturbed : Label → Bool
 | .settle payment => !(checked s.phase).any (billedBy s.db payment.subscriptionId)
 | .create payment => !(cleared s.phase).any (billedBy s.db payment.subscriptionId)
 | .write payment => !(cleared s.phase).any (billedBy s.db payment.subscriptionId)
 | .advance fails =>
  match s.phase with
  | .listPayments vm _ =>
   !fails || !(s.db.listVmSubscriptionPayments vm.id).any (paymentBlocksUnpaidVmDeletion · s.now)
  | _ => true
 | _ => true

structure Booked (db : Db) : Prop where
 subs : Keyed (·.id) db.subscriptions
 vms : Keyed (·.id) db.vms
 payments : ∀ p ∈ db.payments, ∃ sub ∈ db.subscriptions, sub.id = p.subscriptionId ∧
  (p.isPaid = true → sub.isSetup = true)

def Snapshot (vm : Vm) : Prop :=
 ∀ v ∈ db.vms, v.id = vm.id → v.subscriptionLineItemId = vm.subscriptionLineItemId

def NotSetUp (vm : Vm) : Prop :=
 ∀ sub ∈ db.subscriptions, db.vmSubscriptionId vm.id = some sub.id → sub.isSetup = false

def Unblocked (now : Int) (db : Db) (vm : Vm) : Prop :=
 ∀ p ∈ db.payments, db.vmSubscriptionId vm.id = some p.subscriptionId → paymentBlocksUnpaidVmDeletion p now = false

def held : PurgePhase → List Vm
 | .idle => []
 | .classify rest toDelete => rest ++ toDelete
 | .reread vm rest => vm :: rest
 | .listPayments vm rest => vm :: rest
 | .delete vm rest _ => vm :: rest

structure Inv (s : PurgeState) : Prop where
 booked : Booked s.db
 snapshots : ∀ vm ∈ held s.phase, Snapshot s.db vm
 notSetUp : ∀ vm, checked s.phase = some vm → NotSetUp s.db vm
 unblocked : ∀ vm, cleared s.phase = some vm → Unblocked s.now s.db vm
 clean : ∀ p ∈ s.purges, Purged.Clean p

section Phases

variable (toDelete rest : List Vm)

@[simp] theorem held_deletions : held (deletions rest) = rest := by
 cases rest <;> rfl

@[simp] theorem checked_deletions : checked (deletions rest) = none := by
 cases rest <;> rfl

@[simp] theorem cleared_deletions : cleared (deletions rest) = none := by
 cases rest <;> rfl

@[simp] theorem held_afterLook : held (afterLook toDelete rest) = rest ++ toDelete := by
 cases rest with
 | nil => exact held_deletions toDelete
 | cons vm rest => rfl

@[simp] theorem checked_afterLook : checked (afterLook toDelete rest) = none := by
 cases rest with
 | nil => exact checked_deletions toDelete
 | cons vm rest => rfl

@[simp] theorem cleared_afterLook : cleared (afterLook toDelete rest) = none := by
 cases rest with
 | nil => exact cleared_deletions toDelete
 | cons vm rest => rfl

end Phases

section Reads

variable {db : Db} {vm : Vm} {now : Int}

theorem vmSubscriptionId_eq_some {vmId sid : Nat} (h : db.vmSubscriptionId vmId = some sid) :
  ∃ v ∈ db.vms, v.id = vmId ∧ ∃ li, db.getSubscriptionLineItem v.subscriptionLineItemId = some li ∧
   li.subscriptionId = sid := by
 obtain ⟨v, hv, h⟩ := bind_eq_some_iff.mp h
 obtain ⟨li, hli, h⟩ := bind_eq_some_iff.mp h
 exact ⟨v, mem_of_lookup hv, key_of_lookup hv, li, hli, Option.some.inj h⟩

theorem notSetUp_of_reread {sub : Subscription} (hb : Booked db) (hs : Snapshot db vm)
  (h : db.getSubscriptionByLineItemId vm.subscriptionLineItemId = some sub) (hsetup : sub.isSetup = false) :
  NotSetUp db vm := by
 intro sub' hsub' hid
 obtain ⟨v, hv, hvid, li, hli, hlisub⟩ := vmSubscriptionId_eq_some hid
 rw [hs v hv hvid] at hli
 obtain ⟨li', hli', hget⟩ := bind_eq_some_iff.mp h
 obtain rfl : li' = li := Option.some.inj (hli'.symm.trans hli)
 have heq : sub = sub' :=
  hb.subs.eq_of_key (mem_of_lookup hget) hsub' ((key_of_lookup hget).trans hlisub)
 exact heq ▸ hsetup

theorem unblocked_of_listing
  (h : (db.listVmSubscriptionPayments vm.id).any (paymentBlocksUnpaidVmDeletion · now) = false) :
  Unblocked now db vm := by
 intro p hp hid
 obtain ⟨v, hv, hvid, li, hli, hlisub⟩ := vmSubscriptionId_eq_some hid
 have hmem : p ∈ db.listVmSubscriptionPayments vm.id := by
  unfold listVmSubscriptionPayments
  simp only [List.mem_insertionSort, List.mem_filter, List.any_eq_true, decide_eq_true_eq]
  exact ⟨hp, li, mem_of_lookup hli, hlisub, v, hv, (key_of_lookup hli).symm, hvid⟩
 simpa using any_eq_false.mp h p hmem

theorem Unblocked.later {nanos : Nat} (h : Unblocked now db vm) : Unblocked (now + nanos) db vm := by
 intro p hp hid
 have hp' := h p hp hid
 simp only [paymentBlocksUnpaidVmDeletion, decide_eq_false_iff_not] at hp' ⊢
 rintro ⟨hunpaid, hexp | hdep⟩
 · exact hp' ⟨hunpaid, .inl (by omega)⟩
 · exact hp' ⟨hunpaid, .inr hdep⟩

end Reads

structure Touches (db : Db) (sid : Nat) (db' : Db) : Prop where
 subs : ∀ sub ∈ db'.subscriptions, sub ∈ db.subscriptions ∨ sub.id = sid
 payments : ∀ p ∈ db'.payments, p ∈ db.payments ∨ p.subscriptionId = sid
 billed : ∀ vmId, db'.vmSubscriptionId vmId = db.vmSubscriptionId vmId
 items : ∀ v' ∈ db'.vms, ∃ v ∈ db.vms, v.id = v'.id ∧ v.subscriptionLineItemId = v'.subscriptionLineItemId
 booked : Booked db → Booked db'

section Touches

variable {db db' : Db} {sid : Nat} {vm : Vm} {now : Int} {payment : SubscriptionPayment}

theorem Touches.snapshot (h : Touches db sid db') (hs : Snapshot db vm) : Snapshot db' vm := by
 intro v' hv' hid
 obtain ⟨v, hv, hvid, hitem⟩ := h.items v' hv'
 exact hitem ▸ hs v hv (hvid.trans hid)

theorem Touches.notSetUp (h : Touches db sid db') (hne : db.vmSubscriptionId vm.id ≠ some sid)
  (hn : NotSetUp db vm) : NotSetUp db' vm := by
 intro sub hsub hid
 rw [h.billed] at hid
 rcases h.subs sub hsub with hold | rfl
 · exact hn sub hold hid
 · exact absurd hid hne

theorem Touches.unblocked (h : Touches db sid db') (hne : db.vmSubscriptionId vm.id ≠ some sid)
  (hu : Unblocked now db vm) : Unblocked now db' vm := by
 intro p hp hid
 rw [h.billed] at hid
 rcases h.payments p hp with hold | rfl
 · exact hu p hold hid
 · exact absurd hid hne

theorem touches_of_payments {rows : List SubscriptionPayment} (hsub : (db.getSubscription sid).isSome = true)
  (hrows : ∀ p ∈ rows, p ∈ db.payments ∨ p.subscriptionId = sid ∧ p.isPaid = false) :
  Touches db sid { db with payments := rows } where
 subs _ hsub := .inl hsub
 payments p hp := (hrows p hp).imp id And.left
 billed _ := rfl
 items v hv := ⟨v, hv, rfl, rfl⟩
 booked hb := by
  refine ⟨hb.subs, hb.vms, ?_⟩
  intro p hp
  rcases hrows p hp with hold | ⟨hid, hunpaid⟩
  · exact hb.payments p hold
  obtain ⟨sub, hget⟩ := isSome_iff_exists.mp hsub
  refine ⟨sub, mem_of_lookup hget, (key_of_lookup hget).trans hid.symm, ?_⟩
  rw [hunpaid]
  exact nofun

theorem touches_insert (hunpaid : payment.isPaid = false) (h : db.insertSubscriptionPayment payment = some db') :
  Touches db payment.subscriptionId db' ∧ db'.subscriptions = db.subscriptions := by
 obtain ⟨-, hallowed, rfl⟩ := insertSubscriptionPayment_eq_some h
 refine ⟨touches_of_payments (paymentAllowed_iff.mp hallowed).2 ?_, rfl⟩
 intro p hp
 rcases mem_snoc.mp hp with hold | rfl
 · exact .inl hold
 · exact .inr ⟨rfl, hunpaid⟩

theorem touches_update (hunpaid : payment.isPaid = false) (h : db.updateSubscriptionPayment payment = some db') :
  Touches db payment.subscriptionId db' ∧ db'.subscriptions = db.subscriptions := by
 obtain ⟨hallowed, rfl⟩ := updateSubscriptionPayment_eq_some h
 refine ⟨touches_of_payments (paymentAllowed_iff.mp hallowed).2 ?_, rfl⟩
 intro p hp
 obtain ⟨r, hr, rfl⟩ := mem_updateWhere.mp hp
 split
 · exact .inr ⟨rfl, hunpaid⟩
 · exact .inl hr

theorem vmSubscriptionId_undeleteVms (vmId : Nat) :
  (db.undeleteVms sid).vmSubscriptionId vmId = db.vmSubscriptionId vmId := by
 rcases hv : db.getVm vmId with _ | v
 · have hnone : (db.undeleteVms sid).getVm vmId = none := by
    unfold getVm undeleteVms at *
    rw [lookup_updateWhere, hv, map_none]
    exact fun _ _ => rfl
   simp only [vmSubscriptionId, hv, hnone, bind_eq_bind, bind_none]
 · obtain ⟨deleted, hv'⟩ := getVm_undeleteVms db sid hv
   simp only [vmSubscriptionId, hv, hv', bind_eq_bind, bind_some]
   rfl

theorem touches_settle (hown : ownSubscription db payment = true)
  (h : db.subscriptionPaymentPaid now payment = some db') : Touches db payment.subscriptionId db' := by
 simp only [ownSubscription, List.all_eq_true, decide_eq_true_eq] at hown
 rcases subscriptionPaymentPaid_cases h with ⟨rfl, -⟩ | ⟨r, -, -, -, f, -, rfl⟩
 · exact ⟨fun _ => .inl, fun _ => .inl, fun _ => rfl, fun v hv => ⟨v, hv, rfl, rfl⟩, id⟩
 have hpaid : ∀ p ∈ (db.markPaid now payment).payments,
   p ∈ db.payments ∨ p.subscriptionId = payment.subscriptionId ∧ ∃ r ∈ db.payments,
    r.subscriptionId = payment.subscriptionId := by
  intro p hp
  obtain ⟨r, hr, rfl⟩ := mem_updateWhere.mp hp
  split
  · rename_i hc
    simp only [Bool.and_eq_true, decide_eq_true_eq] at hc
    have hsub := (hown r hr).resolve_left (not_not_intro hc.1)
    exact .inr ⟨hsub, r, hr, hsub⟩
  · exact .inl hr
 refine ⟨?_, ?_, ?_, ?_, ?_⟩
 · intro sub hsub
   obtain ⟨sub₀, hsub₀, rfl⟩ := mem_updateWhere.mp hsub
   split
   · rename_i hc
     exact .inr (of_decide_eq_true hc)
   · exact .inl hsub₀
 · intro p hp
   exact (hpaid p hp).imp id And.left
 · exact vmSubscriptionId_undeleteVms
 · intro v' hv'
   obtain ⟨v, hv, rfl⟩ := mem_updateWhere.mp hv'
   exact ⟨v, hv, by split <;> rfl, by split <;> rfl⟩
 · intro hb
   refine ⟨hb.subs.updateWhere fun _ _ _ => rfl, hb.vms.updateWhere fun _ _ _ => rfl, ?_⟩
   have hset : ∀ sub ∈ db.subscriptions, ∃ sub' ∈ (((db.markPaid now payment).undeleteVms payment.subscriptionId
     ).extendSubscription now payment.id payment.subscriptionId f).subscriptions, sub'.id = sub.id ∧
     (sub.isSetup = true ∨ sub.id = payment.subscriptionId → sub'.isSetup = true) := by
    intro sub hsub
    refine ⟨_, mem_updateWhere.mpr ⟨sub, hsub, rfl⟩, ?_⟩
    split
    · exact ⟨rfl, fun _ => rfl⟩
    · rename_i hc
      exact ⟨rfl, fun h => h.resolve_right (of_decide_eq_false (Bool.eq_false_iff.mpr hc))⟩
   intro p hp
   rcases hpaid p hp with hold | ⟨hid, r, hr, hrid⟩
   · obtain ⟨sub, hsub, hsid, himp⟩ := hb.payments p hold
     obtain ⟨sub', hsub', hsid', hset'⟩ := hset sub hsub
     exact ⟨sub', hsub', hsid'.trans hsid, fun h => hset' (.inl (himp h))⟩
   · obtain ⟨sub, hsub, hsid, -⟩ := hb.payments r hr
     obtain ⟨sub', hsub', hsid', hset'⟩ := hset sub hsub
     exact ⟨sub', hsub', hsid'.trans (hsid.trans (hrid.trans hid.symm)), fun _ => hset' (.inr (hsid.trans hrid))⟩

end Touches

section Steps

variable {s t : PurgeState} {phase : PurgePhase} {vm : Vm} {rest : List Vm} {at_ : DeleteStep} {db : Db}

theorem Inv.drop (h : Inv s) (hheld : ∀ vm ∈ held phase, Snapshot s.db vm)
  (hchecked : checked phase = none) (hcleared : cleared phase = none) : Inv { s with phase } := by
 refine ⟨h.booked, hheld, ?_, ?_, h.clean⟩
 · intro vm hvm
   rw [hchecked] at hvm
   cases hvm
 · intro vm hvm
   rw [hcleared] at hvm
   cases hvm

theorem Inv.next (h : Inv s) (hs : held s.phase = vm :: rest) : Inv { s with phase := deletions rest } := by
 refine h.drop ?_ (checked_deletions rest) (cleared_deletions rest)
 intro vm' hvm'
 rw [held_deletions] at hvm'
 exact h.snapshots vm' (hs ▸ mem_cons_of_mem _ hvm')

theorem Inv.proceed {at_' : DeleteStep} (h : Inv s)
  (hs : s.phase = .delete vm rest at_) : Inv { s with phase := .delete vm rest at_' } := by
 refine ⟨h.booked, ?_, ?_, ?_, h.clean⟩
 · have hheld := h.snapshots
   rw [hs] at hheld
   exact hheld
 · have hchecked := h.notSetUp
   rw [hs] at hchecked
   exact hchecked
 · have hcleared := h.unblocked
   rw [hs] at hcleared
   exact hcleared

theorem clean_of_unblocked {now : Int} (hb : Booked db) (hn : NotSetUp db vm)
  (hu : Unblocked now db vm) :
  Purged.Clean {
   time := now
   subscriptions := db.subscriptions.filter fun sub => db.vmSubscriptionId vm.id = some sub.id
   payments := db.payments.filter fun p => db.vmSubscriptionId vm.id = some p.subscriptionId } := by
 constructor
 · intro sub hsub
   obtain ⟨hmem, hid⟩ := mem_filter.mp hsub
   exact hn sub hmem (of_decide_eq_true hid)
 intro p hp
 obtain ⟨hmem, hid⟩ := mem_filter.mp hp
 have hid := of_decide_eq_true hid
 have hunpaid : p.isPaid = false := by
  obtain ⟨sub, hsub, hsid, himp⟩ := hb.payments p hmem
  have hnot := hn sub hsub (hsid ▸ hid)
  cases hp : p.isPaid with
  | false => rfl
  | true => exact absurd (himp hp) (by rw [hnot]; exact Bool.false_ne_true)
 have hblock := hu p hmem hid
 simp only [paymentBlocksUnpaidVmDeletion, hunpaid, Bool.not_false, true_and, decide_eq_false_iff_not,
  not_or] at hblock
 exact ⟨hunpaid, Int.not_lt.mp hblock.1, hblock.2⟩

theorem hardDeleteVm_eq_some {db' : Db} {vmId : Nat} (h : db.hardDeleteVm vmId = some db') :
  (∀ v ∈ db'.vms, v ∈ db.vms) ∧ (Booked db → Booked db') := by
 simp only [hardDeleteVm] at h
 split at h
 · cases h
 cases h
 refine ⟨fun v hv => (mem_filter.mp hv).1, ?_⟩
 intro hb
 refine ⟨hb.subs.sublist (filter_sublist.map _), hb.vms.sublist (filter_sublist.map _), ?_⟩
 intro p hp
 obtain ⟨hmem, hkept⟩ := mem_filter.mp hp
 obtain ⟨sub, hsub, hsid, himp⟩ := hb.payments p hmem
 refine ⟨sub, mem_filter.mpr ⟨hsub, ?_⟩, hsid, himp⟩
 rw [hsid]
 exact hkept

theorem deleteVm_inv (h : Inv s) (hs : s.phase = .delete vm rest at_) : Inv (deleteVm s vm rest at_) := by
 have hnext : Inv { s with phase := deletions rest } := h.next (by rw [hs]; rfl)
 cases at_ with
 | getVm | getHost hostId =>
  simp only [deleteVm]
  split
  · exact hnext
  · exact h.proceed hs
 | hostDeleteVm => exact h.proceed hs
 | deleteIps => exact h.proceed hs
 | deleteVmDb =>
  simp only [deleteVm]
  split
  · exact hnext
  rename_i db hdb
  obtain ⟨hvms, hbooked⟩ := hardDeleteVm_eq_some hdb
  refine ⟨hbooked h.booked, ?_, ?_, ?_, ?_⟩
  · intro vm' hvm' v hv
    exact hnext.snapshots vm' hvm' v (hvms v hv)
  · intro vm' hvm'
    rw [checked_deletions] at hvm'
    cases hvm'
  · intro vm' hvm'
    rw [cleared_deletions] at hvm'
    cases hvm'
  · intro p hp
    rcases mem_snoc.mp hp with hold | rfl
    · exact h.clean p hold
    · exact clean_of_unblocked h.booked (h.notSetUp vm (by rw [hs]; rfl)) (h.unblocked vm (by rw [hs]; rfl))

theorem query_inv {fails : Bool} (h : Inv s) (hok : undisturbed s (.advance fails) = true) :
  Inv (query s fails s.phase) := by
 cases hs : s.phase with
 | idle => exact h
 | classify rest toDelete =>
  have hheld := h.snapshots
  rw [hs] at hheld
  cases rest with
  | nil => exact h.drop (by rw [held_deletions]; exact hheld) (checked_deletions _) (cleared_deletions _)
  | cons vm rest =>
   refine h.drop ?_ (checked_afterLook _ _) (cleared_afterLook _ _)
   intro vm' hvm'
   rw [held_afterLook] at hvm'
   have hmark : ∀ b : Bool, (vm' ∈ if b then toDelete ++ [vm] else toDelete) → vm' ∈ vm :: toDelete := by
    intro b
    cases b <;> simp +contextual [or_imp]
   apply hheld
   rcases mem_append.mp hvm' with hrest | hdel
   · exact mem_cons_of_mem _ (mem_append_left _ hrest)
   · rcases mem_cons.mp (hmark _ hdel) with rfl | hold
     · exact mem_cons_self
     · exact mem_cons_of_mem _ (mem_append_right _ hold)
 | reread vm rest =>
  have hnext : Inv { s with phase := deletions rest } := h.next (by rw [hs]; rfl)
  simp only [query]
  split
  · exact hnext
  rename_i sub hsub
  split
  · exact hnext
  rename_i hsetup
  have hheld := h.snapshots
  rw [hs] at hheld
  have hread : s.db.getSubscriptionByLineItemId vm.subscriptionLineItemId = some sub := by
   cases fails with
   | false => exact hsub
   | true => cases hsub
  refine ⟨h.booked, hheld, ?_, nofun, h.clean⟩
  rintro vm' ⟨⟩
  exact notSetUp_of_reread h.booked (hheld vm mem_cons_self) hread (Bool.eq_false_iff.mpr hsetup)
 | listPayments vm rest =>
  simp only [undisturbed, hs] at hok
  simp only [query]
  split
  · exact h.next (by rw [hs]; rfl)
  rename_i hblocked
  have hlisted : (s.db.listVmSubscriptionPayments vm.id).any (paymentBlocksUnpaidVmDeletion · s.now) = false := by
   cases fails with
   | false => simpa using hblocked
   | true => simpa using hok
  have hheld := h.snapshots
  have hchecked := h.notSetUp
  rw [hs] at hheld hchecked
  refine ⟨h.booked, hheld, hchecked, ?_, h.clean⟩
  rintro vm' ⟨⟩
  exact unblocked_of_listing hlisted
 | delete vm rest at_ =>
  simp only [query]
  split
  · exact h.next (by rw [hs]; rfl)
  · exact deleteVm_inv h hs

theorem Inv.touch {sid : Nat} (h : Inv s) (ht : Touches s.db sid db)
  (hchecked : ∀ vm, checked s.phase = some vm → NotSetUp s.db vm → NotSetUp db vm)
  (hcleared : (cleared s.phase).any (billedBy s.db sid) = false) : Inv { s with db } := by
 refine ⟨ht.booked h.booked, fun vm hvm => ht.snapshot (h.snapshots vm hvm), ?_, ?_, h.clean⟩
 · intro vm hvm
   exact hchecked vm hvm (h.notSetUp vm hvm)
 intro vm hvm
 refine ht.unblocked ?_ (h.unblocked vm hvm)
 rw [hvm] at hcleared
 simpa [billedBy] using hcleared

theorem checked_of_cleared (h : cleared phase = some vm) : checked phase = some vm := by
 cases phase with
 | delete => exact h
 | _ => cases h

theorem notSetUp_of_subscriptions {db' : Db} {sid : Nat} (ht : Touches db sid db')
  (hsubs : db'.subscriptions = db.subscriptions) (h : NotSetUp db vm) : NotSetUp db' vm := by
 intro sub hsub hid
 rw [hsubs] at hsub
 rw [ht.billed] at hid
 exact h sub hsub hid

theorem step_inv {l : Label} (h : Inv s) (hok : undisturbed s l = true) (hstep : step s l = some t) : Inv t := by
 cases l with
 | checkVms =>
  simp only [step] at hstep
  split at hstep
  · cases hstep
    refine h.drop ?_ (checked_afterLook _ _) (cleared_afterLook _ _)
    intro vm hvm v hv hid
    rw [held_afterLook, append_nil] at hvm
    rw [h.booked.vms.eq_of_key hv (mem_filter.mp hvm).1 hid]
  · cases hstep
 | advance fails =>
  cases hstep
  exact query_inv h hok
 | tick nanos =>
  cases hstep
  exact ⟨h.booked, h.snapshots, h.notSetUp, fun vm hvm => (h.unblocked vm hvm).later, h.clean⟩
 | create payment =>
  simp only [step, ite_none_left_eq_some, map_eq_some_iff] at hstep
  obtain ⟨hunpaid, db, hdb, rfl⟩ := hstep
  obtain ⟨ht, hsubs⟩ := touches_insert (Bool.eq_false_iff.mpr hunpaid) hdb
  exact h.touch ht (fun vm _ => notSetUp_of_subscriptions ht hsubs) (by simpa [undisturbed] using hok)
 | write payment =>
  simp only [step, ite_none_left_eq_some, map_eq_some_iff] at hstep
  obtain ⟨hunpaid, db, hdb, rfl⟩ := hstep
  obtain ⟨ht, hsubs⟩ := touches_update (Bool.eq_false_iff.mpr hunpaid) hdb
  exact h.touch ht (fun vm _ => notSetUp_of_subscriptions ht hsubs) (by simpa [undisturbed] using hok)
 | settle payment =>
  simp only [step, ite_none_left_eq_some, map_eq_some_iff] at hstep
  obtain ⟨hown, db, hdb, rfl⟩ := hstep
  have ht := touches_settle (by simpa using hown) hdb
  have hother : ∀ vm, checked s.phase = some vm → s.db.vmSubscriptionId vm.id ≠ some payment.subscriptionId := by
   intro vm hvm
   simpa [undisturbed, hvm, billedBy] using hok
  refine h.touch ht (fun vm hvm => ht.notSetUp (hother vm hvm)) ?_
  cases hc : cleared s.phase with
  | none => rfl
  | some vm => simpa [billedBy] using hother vm (checked_of_cleared hc)

theorem purges_clean {db : Db} {now : Int} {ls : List Label} (hsubs : Keyed (·.id) db.subscriptions)
  (hvms : Keyed (·.id) db.vms)
  (hpaid : ∀ p ∈ db.payments, ∃ sub ∈ db.subscriptions, sub.id = p.subscriptionId ∧
   (p.isPaid = true → sub.isSetup = true))
  (hrun : RunIf step (fun s l => undisturbed s l = true) { db, now } ls t) : ∀ p ∈ t.purges, Purged.Clean p := by
 have h0 : Inv { db, now } := ⟨⟨hsubs, hvms, hpaid⟩, nofun, nofun, nofun, nofun⟩
 exact (hrun.invariant (fun _ _ _ => step_inv) h0).clean

end Steps

private def unpaidVm (payments : List SubscriptionPayment) : Db where
 subscriptions := [{ id := 1 }, { id := 2, isSetup := true }]
 lineItems := [{ id := 1, subscriptionId := 1, subscriptionType := .vps }]
 payments := payments
 vms := [{ id := 1, subscriptionLineItemId := 1, hostId := 1 }]
 hosts := [{ id := 1 }]

private def looks (listingFails : Bool) : List Label :=
 [.checkVms, .advance false, .advance false, .advance listingFails]

private def deletion : List Label := List.replicate 5 (.advance false)

/-- An order whose invoice has expired is purged while another customer pays. -/
theorem purges_clean_expired : ∃ ls t, RunIf step (fun s l => undisturbed s l = true)
  { db := unpaidVm [{ id := 7, subscriptionId := 1 }], now := 7200 * second } ls t ∧
  t.purges.map (·.payments.map (·.id)) = [[7]] ∧ ∀ p ∈ t.purges, Purged.Clean p :=
 ⟨looks false ++ [.create { id := 8, subscriptionId := 2 }, .settle { id := 8, subscriptionId := 2 }] ++ deletion,
  RunIf.exists_and_of_execIf (by decide +kernel) fun _ hrun _ =>
   purges_clean (by decide) (by decide) (by decide) hrun⟩

/-- An invoice that is created and paid after the listing of the payments is purged, paid as it is. And if the listing
fails, a deposit that was detected before is purged. -/
theorem purge_of_paid_vm :
  (∃ ls t, Run step { db := unpaidVm [], now := 7200 * second } ls t ∧
   ∃ p ∈ t.purges, ∃ payment ∈ p.payments, payment.isPaid = true) ∧
  ∃ ls t, Run step
   { db := unpaidVm [{ id := 7, subscriptionId := 1, paymentMethod := .onChain, externalId := some "tx:0" }]
     now := 7200 * second } ls t ∧
   ∃ p ∈ t.purges, ∃ payment ∈ p.payments,
    payment.isPaid = false ∧ payment.paymentMethod = .onChain ∧ payment.externalId.isSome = true :=
 ⟨⟨looks false ++ [.create { id := 7, subscriptionId := 1, expires := 7800 * second },
   .settle { id := 7, subscriptionId := 1, expires := 7800 * second }] ++ deletion,
  Run.exists_of_exec (by decide +kernel)⟩, ⟨looks true ++ deletion, Run.exists_of_exec (by decide +kernel)⟩⟩

end Purge

end Lnvps
