import Lnvps.Database

/-! # The payment ledger -/

namespace Lnvps

open Table List Db

structure Ledger (db : Db) : Prop where
 ids : Keyed (·.id) db.payments
 extIds : ∀ r ∈ db.payments, ∀ s ∈ db.payments, r.externalId = s.externalId → r.externalId ≠ none → r.id = s.id
 unpaid : ∀ r ∈ db.payments, r.isPaid = false → db.credits r.id = 0
 once : ∀ id, db.credits id ≤ 1
 known : ∀ s ∈ db.settlements, ∃ r ∈ db.payments, r.id = s.paymentId

namespace Db

section Fields

variable (db : Db) (now : Int) (payment : SubscriptionPayment) (id sid : Nat) (f : Int → Int)

@[simp] theorem undeleteVms_settlements : (db.undeleteVms sid).settlements = db.settlements := rfl

@[simp] theorem markPaid_settlements : (db.markPaid now payment).settlements = db.settlements := rfl

theorem getSubscription_extendSubscription (k : Nat) :
  (db.extendSubscription now id sid f).getSubscription k = (db.getSubscription k).map fun s =>
   if s.id = sid then
    { s with expires := some (f (extensionBase now s.expires)), isActive := true, isSetup := true }
   else s := by
 unfold getSubscription extendSubscription
 rw [lookup_updateWhere]
 · simp only [decide_eq_true_eq]
 · intro s _
   rfl

theorem getSubscription_updateSubscription (x : Subscription) (k : Nat) :
  (db.updateSubscription x).getSubscription k = (db.getSubscription k).map fun s =>
   if s.id = x.id then { x with created := s.created } else s := by
 unfold getSubscription updateSubscription
 rw [lookup_updateWhere]
 · simp only [decide_eq_true_eq]
 · intro s hs
   exact (of_decide_eq_true hs).symm

theorem getVm_undeleteVms {k : Nat} {vm : Vm} (h : db.getVm k = some vm) :
  ∃ deleted, (db.undeleteVms sid).getVm k = some { vm with deleted } := by
 unfold getVm undeleteVms at *
 rw [lookup_updateWhere, h, Option.map_some]
 · split
   · exact ⟨false, rfl⟩
   · exact ⟨vm.deleted, rfl⟩
 · intro v _
   rfl

theorem credits_extendSubscription (pid : Nat) :
  (db.extendSubscription now id sid f).credits pid =
   db.credits pid + if id = pid ∧ (db.getSubscription sid).isSome then 1 else 0 := by
 unfold credits extendSubscription
 rw [countP_append]
 rcases db.getSubscription sid with _ | s
 · simp
 · by_cases h : id = pid <;> simp [h]

end Fields

variable {db db' : Db} {payment r : SubscriptionPayment}

theorem paymentAllowed_iff : db.paymentAllowed payment = true ↔
  (∀ p ∈ db.payments, p.id = payment.id ∨ payment.externalId = none ∨ p.externalId ≠ payment.externalId) ∧
   (db.getSubscription payment.subscriptionId).isSome := by
 simp [paymentAllowed]

theorem insertSubscriptionPayment_eq_some (h : db.insertSubscriptionPayment payment = some db') :
  (∀ p ∈ db.payments, p.id ≠ payment.id) ∧ db.paymentAllowed payment = true ∧
   db' = { db with payments := db.payments ++ [payment] } := by
 unfold insertSubscriptionPayment at h
 split at h
 · rename_i hc
   refine ⟨?_, hc.2, (Option.some.inj h).symm⟩
   simpa using hc.1
 · cases h

theorem insertSubscriptionPayment_of_fresh (hsub : (db.getSubscription payment.subscriptionId).isSome = true)
  (hid : ∀ p ∈ db.payments, p.id ≠ payment.id)
  (hext : ∀ p ∈ db.payments, payment.externalId = none ∨ p.externalId ≠ payment.externalId) :
  db.insertSubscriptionPayment payment = some { db with payments := db.payments ++ [payment] } := by
 have hallowed : db.paymentAllowed payment = true :=
  paymentAllowed_iff.mpr ⟨fun p hp => .inr (hext p hp), hsub⟩
 unfold insertSubscriptionPayment
 rw [if_pos ⟨by simpa using hid, hallowed⟩]

theorem updateSubscriptionPayment_eq_some (h : db.updateSubscriptionPayment payment = some db') :
  db.paymentAllowed payment = true ∧
   db' = { db with
    payments := updateWhere (fun p => p.id = payment.id) (fun p => { payment with paidAt := p.paidAt })
     db.payments } := by
 unfold updateSubscriptionPayment at h
 split at h
 · rename_i hc
   exact ⟨hc, (Option.some.inj h).symm⟩
 · cases h

variable {now : Int}

theorem mem_markPaid (h : r ∈ (db.markPaid now payment).payments) :
  ∃ r₀ ∈ db.payments, r.id = r₀.id ∧ r.externalId = r₀.externalId ∧ r.gross = r₀.gross ∧
   ((r₀.id ≠ payment.id ∨ r₀.isPaid = true) ∧ r = r₀ ∨
    r₀.id = payment.id ∧ r₀.isPaid = false ∧ r.isPaid = true) := by
 obtain ⟨r₀, hr₀, rfl⟩ := mem_updateWhere.mp h
 refine ⟨r₀, hr₀, ?_⟩
 by_cases h1 : r₀.id = payment.id
 · rcases hb : r₀.isPaid with _ | _ <;> simp [h1, hb, SubscriptionPayment.gross]
 · simp [h1]

def UnpaidIn (db : Db) (id : Nat) : Prop := ∀ r ∈ db.payments, r.id = id → r.isPaid = false

def KeepsPaid (db db' : Db) : Prop := ∀ r ∈ db.payments, r.isPaid = true → r ∈ db'.payments

theorem KeepsPaid.refl (db : Db) : db.KeepsPaid db := fun _ hr _ => hr

theorem KeepsPaid.trans {db₁ db₂ db₃ : Db} (h₁ : db₁.KeepsPaid db₂) (h₂ : db₂.KeepsPaid db₃) : db₁.KeepsPaid db₃ :=
 fun r hr hp => h₂ r (h₁ r hr hp) hp

theorem keepsPaid_insert (h : db.insertSubscriptionPayment payment = some db') : db.KeepsPaid db' := by
 obtain ⟨-, -, rfl⟩ := insertSubscriptionPayment_eq_some h
 intro r hr _
 simp [hr]

theorem keepsPaid_update (h : db.updateSubscriptionPayment payment = some db') (hu : db.UnpaidIn payment.id) :
  db.KeepsPaid db' := by
 obtain ⟨-, rfl⟩ := updateSubscriptionPayment_eq_some h
 intro r hr hp
 refine mem_updateWhere_of_not hr (decide_eq_false ?_)
 intro hid
 rw [hu r hr hid] at hp
 cases hp

theorem keepsPaid_settle (h : db.subscriptionPaymentPaid now payment = some db') : db.KeepsPaid db' := by
 rcases subscriptionPaymentPaid_cases h with ⟨rfl, -⟩ | ⟨-, -, -, -, f, -, rfl⟩
 · exact .refl _
 · intro r hr hp
   exact mem_updateWhere_of_not hr (by simp [hp])

theorem UnpaidIn.insert {id : Nat} (hu : db.UnpaidIn id) (h : db.insertSubscriptionPayment payment = some db')
  (hp : payment.isPaid = false) : db'.UnpaidIn id := by
 obtain ⟨-, -, rfl⟩ := insertSubscriptionPayment_eq_some h
 intro r hr hid
 rcases mem_append.mp hr with hr | hr
 · exact hu r hr hid
 · rw [mem_singleton.mp hr, hp]

theorem UnpaidIn.update {id : Nat} (hu : db.UnpaidIn id) (h : db.updateSubscriptionPayment payment = some db')
  (hp : payment.isPaid = false) : db'.UnpaidIn id := by
 obtain ⟨-, rfl⟩ := updateSubscriptionPayment_eq_some h
 intro r hr hid
 obtain ⟨r₀, hr₀, rfl⟩ := mem_updateWhere.mp hr
 split at hid <;> rename_i hc
 · rw [if_pos hc]
   exact hp
 · rw [if_neg hc]
   exact hu r₀ hr₀ hid

theorem UnpaidIn.settle {id : Nat} (hu : db.UnpaidIn id)
  (h : db.subscriptionPaymentPaid now payment = some db') (hne : id ≠ payment.id) : db'.UnpaidIn id := by
 rcases subscriptionPaymentPaid_cases h with ⟨rfl, -⟩ | ⟨-, -, -, -, f, -, rfl⟩
 · exact hu
 intro r hr hid
 obtain ⟨r₀, hr₀, hid₀, -, -, ⟨-, rfl⟩ | ⟨h1, -, -⟩⟩ := mem_markPaid hr
 · exact hu r hr₀ hid
 · exact absurd (hid.symm.trans (hid₀.trans h1)) hne

end Db

namespace Ledger

variable {db db' : Db} {now : Int} {payment : SubscriptionPayment}

theorem insertSubscriptionPayment (hl : Ledger db) (h : db.insertSubscriptionPayment payment = some db') :
  Ledger db' := by
 obtain ⟨hid, hall, rfl⟩ := insertSubscriptionPayment_eq_some h
 have hext := (paymentAllowed_iff.mp hall).1
 refine ⟨hl.ids.snoc hid, ?_, ?_, hl.once, ?_⟩
 · intro r hr s hs he hn
   simp only [mem_append, mem_singleton] at hr hs
   rcases hr with hr | rfl <;> rcases hs with hs | rfl
   · exact hl.extIds r hr s hs he hn
   · rcases hext r hr with h | h | h
     · exact h
     · exact absurd (he.trans h) hn
     · exact absurd he h
   · rcases hext s hs with h | h | h
     · exact h.symm
     · exact absurd h hn
     · exact absurd he.symm h
   · rfl
 · intro r hr hp
   simp only [mem_append, mem_singleton] at hr
   rcases hr with hr | rfl
   · exact hl.unpaid r hr hp
   refine countP_eq_zero.mpr ?_
   intro s hs hsid
   obtain ⟨q, hq, hqid⟩ := hl.known s hs
   exact hid q hq (hqid.trans (by simpa using hsid))
 · intro s hs
   obtain ⟨r, hr, hrs⟩ := hl.known s hs
   exact ⟨r, by simp [hr], hrs⟩

theorem updateSubscriptionPayment (hl : Ledger db) (h : db.updateSubscriptionPayment payment = some db')
  (hpaid : ∀ r ∈ db.payments, r.id = payment.id → r.isPaid = true → payment.isPaid = true) : Ledger db' := by
 obtain ⟨hall, rfl⟩ := updateSubscriptionPayment_eq_some h
 have hext := (paymentAllowed_iff.mp hall).1
 refine ⟨hl.ids.updateWhere ?_, ?_, ?_, hl.once, ?_⟩
 · intro r _ hr
   exact (of_decide_eq_true hr).symm
 · intro r hr s hs he hn
   obtain ⟨r₀, hr₀, rfl⟩ := mem_updateWhere.mp hr
   obtain ⟨s₀, hs₀, rfl⟩ := mem_updateWhere.mp hs
   by_cases h1 : r₀.id = payment.id <;> by_cases h2 : s₀.id = payment.id <;>
    simp only [h1, h2, decide_true, decide_false, if_true, Bool.false_eq_true, if_false] at he hn ⊢
   · rcases hext s₀ hs₀ with h | h | h
     · exact h.symm
     · exact absurd h hn
     · exact absurd he.symm h
   · rcases hext r₀ hr₀ with h | h | h
     · exact absurd h h1
     · exact absurd (he.trans h) hn
     · exact absurd he h
   · exact hl.extIds r₀ hr₀ s₀ hs₀ he hn
 · intro r hr hp
   obtain ⟨r₀, hr₀, rfl⟩ := mem_updateWhere.mp hr
   by_cases h1 : r₀.id = payment.id
   · simp only [h1, decide_true, if_true] at hp ⊢
     rcases hb : r₀.isPaid with _ | _
     · exact h1 ▸ hl.unpaid r₀ hr₀ hb
     · rw [hpaid r₀ hr₀ h1 hb] at hp
       cases hp
   · simp only [h1, decide_false, Bool.false_eq_true, if_false] at hp ⊢
     exact hl.unpaid r₀ hr₀ hp
 · intro s hs
   obtain ⟨r, hr, hrs⟩ := hl.known s hs
   by_cases h1 : r.id = payment.id
   · exact ⟨_, mem_updateWhere_of hr (decide_eq_true h1), h1.symm.trans hrs⟩
   · exact ⟨r, mem_updateWhere_of_not hr (decide_eq_false h1), hrs⟩

theorem subscriptionPaymentPaid (hl : Ledger db) (h : db.subscriptionPaymentPaid now payment = some db') :
  Ledger db' := by
 rcases subscriptionPaymentPaid_cases h with ⟨rfl, -⟩ | ⟨r, hr, hid, hunpaid, f, -, rfl⟩
 · exact hl
 have hzero : db.credits payment.id = 0 := hid ▸ hl.unpaid r hr hunpaid
 have hcred : ∀ pid, (((db.markPaid now payment).undeleteVms payment.subscriptionId).extendSubscription now
   payment.id payment.subscriptionId f).credits pid ≤ db.credits pid + if payment.id = pid then 1 else 0 := by
  intro pid
  rw [credits_extendSubscription]
  simp only [credits, undeleteVms_settlements, markPaid_settlements]
  split_ifs <;> omega
 refine ⟨hl.ids.updateWhere fun _ _ _ => rfl, ?_, ?_, ?_, ?_⟩
 · intro a ha b hb he hn
   obtain ⟨a₀, ha₀, ia, ea, -, -⟩ := mem_markPaid ha
   obtain ⟨b₀, hb₀, ib, eb, -, -⟩ := mem_markPaid hb
   rw [ia, ib]
   exact hl.extIds a₀ ha₀ b₀ hb₀ (by rw [← ea, ← eb, he]) (ea ▸ hn)
 · intro a ha hp
   obtain ⟨a₀, ha₀, ia, -, -, ⟨h1, rfl⟩ | ⟨-, -, h1⟩⟩ := mem_markPaid ha
   · have hne : payment.id ≠ a.id := by
      rintro h2
      rcases h1 with h1 | h1
      · exact h1 h2.symm
      · rw [hp] at h1
        cases h1
     have := hcred a.id
     rw [if_neg hne, hl.unpaid a ha₀ hp] at this
     omega
   · rw [hp] at h1
     cases h1
 · intro pid
   have := hcred pid
   by_cases h1 : payment.id = pid
   · rw [if_pos h1, ← h1, hzero] at this
     exact h1 ▸ this
   · rw [if_neg h1] at this
     exact this.trans (hl.once pid)
 · intro s hs
   have hold : ∀ q ∈ db.payments, ∃ q' ∈ (((db.markPaid now payment).undeleteVms payment.subscriptionId
     ).extendSubscription now payment.id payment.subscriptionId f).payments, q'.id = q.id := by
    intro q hq
    refine ⟨_, mem_updateWhere.mpr ⟨q, hq, rfl⟩, ?_⟩
    split <;> rfl
   simp only [extendSubscription, mem_append, mem_map] at hs
   rcases hs with hs | ⟨sub, -, rfl⟩
   · obtain ⟨q, hq, hqs⟩ := hl.known s hs
     obtain ⟨q', hq', hid'⟩ := hold q hq
     exact ⟨q', hq', hid'.trans hqs⟩
   · obtain ⟨q', hq', hid'⟩ := hold r hr
     exact ⟨q', hq', hid'.trans hid⟩

end Ledger

def Stores (db : Db) (payment : SubscriptionPayment) (db' : Db) : Prop :=
 payment.isPaid = false ∧ (db.UnpaidIn payment.id ∧ db.updateSubscriptionPayment payment = some db' ∨
  db.insertSubscriptionPayment payment = some db')

namespace Stores

variable {db db' : Db} {payment r : SubscriptionPayment}

theorem ledger (h : Stores db payment db') (hl : Ledger db) : Ledger db' := by
 rcases h with ⟨-, ⟨hu, h⟩ | h⟩
 · refine hl.updateSubscriptionPayment h ?_
   intro r hr hid hp
   rw [hu r hr hid] at hp
   cases hp
 · exact hl.insertSubscriptionPayment h

theorem keepsPaid (h : Stores db payment db') : db.KeepsPaid db' := by
 rcases h with ⟨-, ⟨hu, h⟩ | h⟩
 · exact keepsPaid_update h hu
 · exact keepsPaid_insert h

theorem unpaidIn {id : Nat} (h : Stores db payment db') (hu : db.UnpaidIn id) : db'.UnpaidIn id := by
 rcases h with ⟨hp, ⟨-, h⟩ | h⟩
 · exact hu.update h hp
 · exact hu.insert h hp

theorem frame (h : Stores db payment db') : db' = { db with payments := db'.payments } := by
 rcases h with ⟨-, ⟨-, h⟩ | h⟩
 · obtain ⟨-, rfl⟩ := updateSubscriptionPayment_eq_some h
   rfl
 · obtain ⟨-, -, rfl⟩ := insertSubscriptionPayment_eq_some h
   rfl

theorem allowed (h : Stores db payment db') : (db.getSubscription payment.subscriptionId).isSome := by
 rcases h with ⟨-, ⟨-, h⟩ | h⟩
 · exact (paymentAllowed_iff.mp (updateSubscriptionPayment_eq_some h).1).2
 · exact (paymentAllowed_iff.mp (insertSubscriptionPayment_eq_some h).2.1).2

theorem mem (h : Stores db payment db') (hr : r ∈ db'.payments) :
  r ∈ db.payments ∨ ∃ paidAt, r = { payment with paidAt } := by
 rcases h with ⟨-, ⟨-, h⟩ | h⟩
 · obtain ⟨-, rfl⟩ := updateSubscriptionPayment_eq_some h
   obtain ⟨r₀, hr₀, rfl⟩ := mem_updateWhere.mp hr
   split
   · exact .inr ⟨_, rfl⟩
   · exact .inl hr₀
 · obtain ⟨-, -, rfl⟩ := insertSubscriptionPayment_eq_some h
   rcases mem_append.mp hr with hr | hr
   · exact .inl hr
   · exact .inr ⟨payment.paidAt, mem_singleton.mp hr⟩

theorem stored (h : Stores db payment db')
  (hold : (∃ r ∈ db.payments, r.id = payment.id) ∨ db.insertSubscriptionPayment payment = some db') :
  ∃ paidAt, { payment with paidAt } ∈ db'.payments := by
 have hnew : db.insertSubscriptionPayment payment = some db' → ∃ paidAt, { payment with paidAt } ∈ db'.payments := by
  intro h
  obtain ⟨-, -, rfl⟩ := insertSubscriptionPayment_eq_some h
  exact ⟨payment.paidAt, by simp⟩
 rcases h with ⟨-, ⟨-, h⟩ | h⟩
 · rcases hold with ⟨r, hr, hid⟩ | hins
   · obtain ⟨-, rfl⟩ := updateSubscriptionPayment_eq_some h
     exact ⟨r.paidAt, mem_updateWhere_of hr (decide_eq_true hid)⟩
   · exact hnew hins
 · exact hnew h

end Stores

end Lnvps
