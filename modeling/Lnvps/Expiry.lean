import Lnvps.Lifecycle

/-! # The edges of an expiry -/

namespace Lnvps

open Table List Option

structure Cycle where
 db : Db
 start : Int
 readings : ClockReadings
 finish : Int

structure Cycle.Ordered (c : Cycle) : Prop where
 start : c.start ≤ c.readings.now
 now : c.readings.now ≤ c.readings.tier
 tier : c.readings.tier ≤ c.readings.grace
 grace : c.readings.grace ≤ c.readings.expired
 expired : c.readings.expired ≤ c.finish

def Cycle.stored (c : Cycle) : Int := c.finish / second * second

structure Visit where
 lastCheck : Int
 cycle : Cycle

def executed : Int → List Cycle → List Visit
 | _, [] => []
 | lastCheck, c :: cs =>
  if (c.start - lastCheck).tdiv second < Lifecycle.checkVmsSeconds then executed lastCheck cs
  else ⟨lastCheck, c⟩ :: executed c.stored cs

section

variable (deleteAfter : Nat) (sub : Subscription)

def Visit.branch (v : Visit) : LifecycleBranch :=
 lifecycleBranch v.cycle.db deleteAfter sub v.lastCheck v.cycle.readings

def handled : List Visit → List LifecycleBranch
 | [] => []
 | v :: vs =>
  match v.branch deleteAfter sub with
  | .cancel graceDays => [.cancel graceDays]
  | b => b :: handled vs

end

structure Visit.Follows (v w : Visit) : Prop where
 lastCheck : w.lastCheck = v.cycle.stored
 apart : v.cycle.finish ≤ w.cycle.start
 gap : w.cycle.readings.now < v.cycle.readings.now + day

structure Watched (expires lastCheck : Int) (cycles : List Cycle) : Prop where
 ordered : ∀ c ∈ cycles, c.Ordered
 apart : cycles.Pairwise fun c d => c.finish ≤ d.start
 gaps : (executed lastCheck cycles).IsChain fun v w => w.cycle.readings.now < v.cycle.readings.now + day
 after : ∃ v ∈ executed lastCheck cycles, expires < v.cycle.readings.now

section Executed

variable {lastCheck : Int} {cycles : List Cycle} {v : Visit}

theorem mem_of_executed (h : v ∈ executed lastCheck cycles) : v.cycle ∈ cycles := by
 induction cycles generalizing lastCheck with
 | nil => cases h
 | cons c cs ih =>
  rw [executed] at h
  split at h
  · exact mem_cons_of_mem _ (ih h)
  · rcases mem_cons.mp h with rfl | h
    · exact mem_cons_self
    · exact mem_cons_of_mem _ (ih h)

theorem lastCheck_of_head_executed (h : v ∈ (executed lastCheck cycles).head?) : v.lastCheck = lastCheck := by
 induction cycles with
 | nil => cases h
 | cons c cs ih =>
  rw [executed] at h
  split at h
  · exact ih h
  · obtain rfl : (⟨lastCheck, c⟩ : Visit) = v := by simpa using h
    rfl

theorem executed_follows (hapart : cycles.Pairwise fun c d => c.finish ≤ d.start)
  (hgaps : (executed lastCheck cycles).IsChain fun v w => w.cycle.readings.now < v.cycle.readings.now + day) :
  (executed lastCheck cycles).IsChain Visit.Follows := by
 induction cycles generalizing lastCheck with
 | nil => exact .nil
 | cons c cs ih =>
  obtain ⟨hc, hcs⟩ := pairwise_cons.mp hapart
  rw [executed] at hgaps ⊢
  split at hgaps
  · rename_i hskip
    rw [if_pos hskip]
    exact ih hcs hgaps
  rename_i hskip
  rw [if_neg hskip]
  have htail := ih hcs (isChain_of_isChain_cons hgaps)
  rcases hrest : executed c.stored cs with _ | ⟨w, ws⟩
  · exact .singleton _
  rw [hrest] at hgaps htail
  have hw : w ∈ executed c.stored cs := by simp [hrest]
  refine isChain_cons_cons.mpr ⟨⟨?_, ?_, ?_⟩, htail⟩
  · have hhead : w ∈ (executed c.stored cs).head? := by simp [hrest]
    exact lastCheck_of_head_executed hhead
  · exact hc _ (mem_of_executed hw)
  · exact (isChain_cons_cons.mp hgaps).1

theorem lastCheck_le_stored (h : v ∈ executed lastCheck cycles) (hord : v.cycle.Ordered) :
  v.lastCheck ≤ v.cycle.stored := by
 induction cycles generalizing lastCheck with
 | nil => cases h
 | cons c cs ih =>
  rw [executed] at h
  split at h
  · exact ih h
  rename_i hskip
  rcases mem_cons.mp h with rfl | h
  · have hlate : lastCheck + 30 * second ≤ c.start := by
     by_contra hlt
     apply hskip
     unfold Lifecycle.checkVmsSeconds
     rcases le_total 0 (c.start - lastCheck) with hpos | hneg
     · rw [Int.tdiv_eq_ediv_of_nonneg hpos]
       unfold second at hlt ⊢
       omega
     · have hq := Int.tdiv_nonneg (Int.neg_nonneg_of_nonpos hneg) (show 0 ≤ second by decide)
       rw [Int.neg_tdiv] at hq
       omega
    obtain ⟨h1, h2, h3, h4, h5⟩ := hord
    simp only at h1 h2 h3 h4 h5 ⊢
    unfold Cycle.stored
    unfold second at hlate ⊢
    omega
  · exact ih h

end Executed

structure Steady (vs : List Visit) : Prop where
 ordered : ∀ v ∈ vs, v.cycle.Ordered
 follows : vs.IsChain Visit.Follows
 later : ∀ v ∈ vs, v.lastCheck ≤ v.cycle.stored

theorem Steady.tail {v : Visit} {vs : List Visit} (h : Steady (v :: vs)) : Steady vs :=
 ⟨fun w hw => h.ordered w (mem_cons_of_mem _ hw), isChain_of_isChain_cons h.follows,
  fun w hw => h.later w (mem_cons_of_mem _ hw)⟩

theorem Watched.steady {expires lastCheck : Int} {cycles : List Cycle} (h : Watched expires lastCheck cycles) :
  Steady (executed lastCheck cycles) := by
 have hord : ∀ v ∈ executed lastCheck cycles, v.cycle.Ordered := fun v hv => h.ordered _ (mem_of_executed hv)
 exact ⟨hord, executed_follows h.apart h.gaps, fun v hv => lastCheck_le_stored hv (hord v hv)⟩

section Branches

variable {deleteAfter : Nat} {sub : Subscription} {expires : Int} {v : Visit} {vs : List Visit}

theorem branch_soon_iff (he : sub.expires = some expires) : v.branch deleteAfter sub = .expiringSoon ↔
  v.cycle.readings.now < expires ∧ expires < v.cycle.readings.now + day ∧ v.lastCheck + day < expires := by
 unfold Visit.branch lifecycleBranch
 rw [he]
 dsimp only
 split
 · rename_i h
   simp [h]
 rename_i h
 simp only [h, iff_false]
 split
 · nofun
 · split <;> nofun

theorem lt_grace_of_branch_cancel {graceDays : Nat} (he : sub.expires = some expires)
  (h : v.branch deleteAfter sub = .cancel graceDays) : expires < v.cycle.readings.grace := by
 obtain ⟨-, e, hsub, hlt⟩ := lifecycleBranch_cancel h
 cases he.symm.trans hsub
 have := Int.mul_nonneg (Int.natCast_nonneg graceDays) (Int.le_of_lt day_pos)
 omega

theorem branch_expired_iff (he : sub.expires = some expires)
  (hvps : (v.cycle.db.listSubscriptionLineItems sub.id).all (·.subscriptionType ≠ .vps) = true) :
  v.branch deleteAfter sub = .expired ↔ v.branch deleteAfter sub ≠ .expiringSoon ∧
   v.cycle.readings.grace ≤ expires + gracePeriodDaysForSub sub v.cycle.readings.tier deleteAfter * day ∧
   expires < v.cycle.readings.expired ∧ v.lastCheck ≤ expires := by
 have hempty : (v.cycle.db.listSubscriptionLineItems sub.id).filter (fun li => li.subscriptionType = .vps) = [] := by
  rw [filter_eq_nil_iff]
  intro li hli
  simpa using all_eq_true.mp hvps li hli
 rw [ne_eq, branch_soon_iff he]
 unfold Visit.branch lifecycleBranch
 rw [he]
 simp only [subscriptionExpiryAlreadyHandled, hempty, any_nil, isEmpty_nil, Bool.true_and, Bool.false_or]
 split
 · rename_i h
   simp [h]
 rename_i h
 simp only [h, not_false_iff, true_and]
 split
 · rename_i hcancel
   simp only [reduceCtorEq, false_iff]
   omega
 rename_i hcancel
 split
 · rename_i hexp
   simp only [Bool.not_eq_true', decide_eq_false_iff_not] at hexp
   simp only [true_iff]
   omega
 rename_i hexp
 simp only [Bool.not_eq_true', decide_eq_false_iff_not] at hexp
 simp only [reduceCtorEq, false_iff]
 omega

theorem mem_handled_cons {b : LifecycleBranch} (hb : ∀ graceDays, b ≠ .cancel graceDays) :
  b ∈ handled deleteAfter sub (v :: vs) ↔ v.branch deleteAfter sub = b ∨
   (∀ graceDays, v.branch deleteAfter sub ≠ .cancel graceDays) ∧ b ∈ handled deleteAfter sub vs := by
 rw [handled]
 split
 · rename_i graceDays hcancel
   have hne := hb graceDays
   simp [hcancel, hne, eq_comm]
 rename_i hcancel
 rw [mem_cons]
 constructor
 · rintro (rfl | h)
   · exact .inl rfl
   · exact .inr ⟨fun graceDays hc => hcancel graceDays hc, h⟩
 · rintro (rfl | ⟨-, h⟩)
   · exact .inl rfl
   · exact .inr h

end Branches

section Soon

variable {deleteAfter : Nat} {sub : Subscription} {expires : Int} {v : Visit} {vs : List Visit}

def Visit.straddlesWarning (expires : Int) (v : Visit) : Bool :=
 v.cycle.readings.now + day ≤ expires ∧ expires ≤ v.cycle.stored + day

theorem Steady.now_le (hs : Steady (v :: vs)) : ∀ w ∈ vs, v.cycle.readings.expired ≤ w.cycle.readings.now := by
 induction vs generalizing v with
 | nil => nofun
 | cons w ws ih =>
  have hf := (isChain_cons_cons.mp hs.follows).1.apart
  have hv := (hs.ordered v mem_cons_self).expired
  have hw := hs.ordered w (by simp)
  have hvw : v.cycle.readings.expired ≤ w.cycle.readings.now := by
   have := hw.start
   omega
  intro x hx
  rcases mem_cons.mp hx with rfl | hx
  · exact hvw
  have := ih hs.tail x hx
  have h1 := hw.now
  have h2 := hw.tier
  have h3 := hw.grace
  omega

theorem Steady.now_mono (hs : Steady (v :: vs)) {w : Visit} (hw : w ∈ v :: vs) :
  v.cycle.readings.now ≤ w.cycle.readings.now := by
 rcases mem_cons.mp hw with rfl | hw
 · exact le_refl _
 · have h1 := hs.now_le w hw
   obtain ⟨-, h2, h3, h4, -⟩ := hs.ordered v mem_cons_self
   omega

theorem Steady.lastCheck_mono (hs : Steady (v :: vs)) : ∀ w ∈ v :: vs, v.lastCheck ≤ w.lastCheck := by
 induction vs generalizing v with
 | nil => simp
 | cons w ws ih =>
  have hle := hs.later v mem_cons_self
  rw [← (isChain_cons_cons.mp hs.follows).1.lastCheck] at hle
  exact forall_mem_cons.mpr ⟨le_refl _, fun x hx => hle.trans (ih hs.tail x hx)⟩

theorem exists_branch_of_mem_handled {b : LifecycleBranch} (h : b ∈ handled deleteAfter sub vs) :
  ∃ w ∈ vs, w.branch deleteAfter sub = b := by
 induction vs with
 | nil => cases h
 | cons v vs ih =>
  rw [handled] at h
  split at h
  · rename_i hcancel
    exact ⟨v, mem_cons_self, hcancel.trans (mem_singleton.mp h).symm⟩
  rcases mem_cons.mp h with rfl | h
  · exact ⟨v, mem_cons_self, rfl⟩
  · obtain ⟨w, hw, hb⟩ := ih h
    exact ⟨w, mem_cons_of_mem _ hw, hb⟩

theorem soon_not_mem (he : sub.expires = some expires) (hs : Steady (v :: vs))
  (hlate : expires ≤ v.lastCheck + day ∨ expires ≤ v.cycle.readings.now) :
  .expiringSoon ∉ handled deleteAfter sub (v :: vs) := by
 intro h
 obtain ⟨w, hw, hb⟩ := exists_branch_of_mem_handled h
 obtain ⟨hnow, -, hlast⟩ := (branch_soon_iff he).mp hb
 have h1 := hs.lastCheck_mono w hw
 have h2 := hs.now_mono hw
 omega

theorem warning_seen_iff (he : sub.expires = some expires) (hs : Steady (v :: vs))
  (hafter : ∃ w ∈ v :: vs, expires < w.cycle.readings.now) :
  .expiringSoon ∈ handled deleteAfter sub (v :: vs) ↔ v.lastCheck + day < expires ∧
   v.cycle.readings.now < expires ∧ ∀ w ∈ v :: vs, w.straddlesWarning expires = false := by
 induction vs generalizing v with
 | nil =>
  obtain ⟨w, hw, hlt⟩ := hafter
  obtain rfl := mem_singleton.mp hw
  exact iff_of_false (soon_not_mem he hs (.inr hlt.le)) (by omega)
 | cons w ws ih =>
  by_cases hlate : expires ≤ v.lastCheck + day ∨ expires ≤ v.cycle.readings.now
  · exact iff_of_false (soon_not_mem he hs hlate) (by omega)
  rw [not_or, not_le, not_le] at hlate
  obtain ⟨hlast, hnow⟩ := hlate
  simp only [hlast, hnow, true_and]
  by_cases hopen : expires < v.cycle.readings.now + day
  · have hsoon : v.branch deleteAfter sub = .expiringSoon := (branch_soon_iff he).mpr ⟨hnow, hopen, hlast⟩
    refine iff_of_true ((mem_handled_cons (by nofun)).mpr (.inl hsoon)) fun x hx => ?_
    have := hs.now_mono hx
    simp only [Visit.straddlesWarning, decide_eq_false_iff_not]
    omega
  obtain ⟨hf, -⟩ := isChain_cons_cons.mp hs.follows
  have hgap := hf.gap
  have hcancel : ∀ graceDays, v.branch deleteAfter sub ≠ .cancel graceDays := by
   intro graceDays hc
   have h1 := lt_grace_of_branch_cancel he hc
   have h2 := (hs.ordered v mem_cons_self).grace
   have h3 := hs.now_le w mem_cons_self
   omega
  have hhead : v.branch deleteAfter sub ≠ .expiringSoon := by
   rw [ne_eq, branch_soon_iff he]
   omega
  have hafter' : ∃ x ∈ w :: ws, expires < x.cycle.readings.now := by
   obtain ⟨x, hx, hlt⟩ := hafter
   rcases mem_cons.mp hx with rfl | hx
   · omega
   · exact ⟨x, hx, hlt⟩
  have hv : v.straddlesWarning expires = false ↔ w.lastCheck + day < expires := by
   simp only [Visit.straddlesWarning, decide_eq_false_iff_not, hf.lastCheck]
   omega
  have hw : w.cycle.readings.now < expires := by omega
  rw [mem_handled_cons (by nofun), forall_mem_cons, ih hs.tail hafter', hv]
  simp only [hhead, hcancel, hw, ne_eq, not_false_iff, implies_true, true_and, false_or]

end Soon

section Expired

variable {deleteAfter : Nat} {sub : Subscription} {expires : Int} {v : Visit} {vs : List Visit}

def Visit.unaware (expires : Int) (v : Visit) : Bool :=
 (v.cycle.readings.now < expires ∧ expires < v.cycle.readings.now + day ∧ v.lastCheck + day < expires) ∨
  v.cycle.readings.expired ≤ expires

def Visit.withinGrace (deleteAfter : Nat) (sub : Subscription) (expires : Int) (v : Visit) : Bool :=
 v.cycle.readings.grace ≤ expires + gracePeriodDaysForSub sub v.cycle.readings.tier deleteAfter * day

theorem expired_not_mem_of_late (he : sub.expires = some expires)
  (hvps : ∀ w ∈ v :: vs, (w.cycle.db.listSubscriptionLineItems sub.id).all (·.subscriptionType ≠ .vps) = true)
  (hs : Steady (v :: vs)) (hlate : expires < v.lastCheck) : .expired ∉ handled deleteAfter sub (v :: vs) := by
 intro h
 obtain ⟨w, hw, hb⟩ := exists_branch_of_mem_handled h
 have hle := hs.lastCheck_mono w hw
 have hnotice := ((branch_expired_iff he (hvps w hw)).mp hb).2.2.2
 omega

theorem branch_of_unaware (he : sub.expires = some expires)
  (hvps : (v.cycle.db.listSubscriptionLineItems sub.id).all (·.subscriptionType ≠ .vps) = true)
  (hord : v.cycle.Ordered) (h : v.unaware expires = true) :
  v.branch deleteAfter sub ≠ .expired ∧ ∀ graceDays, v.branch deleteAfter sub ≠ .cancel graceDays := by
 rcases of_decide_eq_true h with hsoon | hlast
 · rw [(branch_soon_iff he).mpr hsoon]
   exact ⟨nofun, nofun⟩
 constructor
 · rw [ne_eq, branch_expired_iff he hvps]
   omega
 intro graceDays hc
 have h1 := lt_grace_of_branch_cancel he hc
 have h2 := hord.grace
 omega

theorem expiry_seen_of_aware (he : sub.expires = some expires)
  (hvps : (v.cycle.db.listSubscriptionLineItems sub.id).all (·.subscriptionType ≠ .vps) = true)
  (hs : Steady (v :: vs)) (hlast : v.lastCheck ≤ expires) (h : v.unaware expires = false) :
  .expired ∈ handled deleteAfter sub (v :: vs) ↔
   (∀ w ∈ v :: vs, w.unaware expires = true → w.cycle.stored ≤ expires) ∧
    ((v :: vs).find? fun w => !w.unaware expires).all
     (·.withinGrace deleteAfter sub expires) = true := by
 have haware := of_decide_eq_false h
 rw [not_or, not_le] at haware
 obtain ⟨hsoon, hexp⟩ := haware
 have hlater : ∀ w ∈ v :: vs, w.unaware expires = true → w.cycle.stored ≤ expires := by
  intro w hw hun
  rcases mem_cons.mp hw with rfl | hw
  · rw [h] at hun
    cases hun
  have h1 := hs.now_le w hw
  obtain ⟨-, h2, h3, h4, -⟩ := hs.ordered w (mem_cons_of_mem _ hw)
  rcases of_decide_eq_true hun with hsoon' | hlast'
  · have := hsoon'.1
    omega
  · omega
 rw [List.find?_cons_of_pos (by rw [h]; rfl), all_some, and_iff_right hlater, mem_handled_cons (by nofun)]
 by_cases hgrace : v.withinGrace deleteAfter sub expires = true
 · have hin := of_decide_eq_true hgrace
   rw [branch_expired_iff he hvps, ne_eq, branch_soon_iff he]
   simp only [hgrace, iff_true]
   exact .inl ⟨hsoon, hin, hexp, hlast⟩
 have hover : ∃ graceDays, v.branch deleteAfter sub = .cancel graceDays := by
  have hover := of_decide_eq_false (Bool.eq_false_iff.mpr hgrace)
  unfold Visit.branch lifecycleBranch
  rw [he]
  dsimp only
  rw [if_neg hsoon, if_pos (by omega)]
  exact ⟨_, rfl⟩
 obtain ⟨graceDays, hcancel⟩ := hover
 simp [hgrace, hcancel]

theorem expiry_seen_iff (he : sub.expires = some expires)
  (hvps : ∀ w ∈ v :: vs, (w.cycle.db.listSubscriptionLineItems sub.id).all (·.subscriptionType ≠ .vps) = true)
  (hs : Steady (v :: vs)) (hlast : v.lastCheck ≤ expires) (hafter : ∃ w ∈ v :: vs, expires < w.cycle.readings.now) :
  .expired ∈ handled deleteAfter sub (v :: vs) ↔
   (∀ w ∈ v :: vs, w.unaware expires = true → w.cycle.stored ≤ expires) ∧
    ((v :: vs).find? fun w => !w.unaware expires).all
     (·.withinGrace deleteAfter sub expires) = true := by
 have hord := hs.ordered v mem_cons_self
 have hv := hvps v mem_cons_self
 induction vs generalizing v with
 | nil =>
  obtain ⟨w, hw, hlt⟩ := hafter
  obtain rfl := mem_singleton.mp hw
  refine expiry_seen_of_aware he hv hs hlast ?_
  simp only [Visit.unaware, decide_eq_false_iff_not]
  have h1 := hord.now
  have h2 := hord.tier
  have h3 := hord.grace
  omega
 | cons w ws ih =>
  by_cases hun : v.unaware expires = true
  · have hbranch : v.branch deleteAfter sub ≠ .expired ∧ ∀ graceDays, v.branch deleteAfter sub ≠ .cancel graceDays :=
     branch_of_unaware he hv hord hun
    obtain ⟨hne, hcancel⟩ := hbranch
    have hf := (isChain_cons_cons.mp hs.follows).1
    rw [mem_handled_cons (by nofun), forall_mem_cons, List.find?_cons_of_neg (by simp [hun])]
    simp only [hne, hcancel, hun, ne_eq, not_false_iff, implies_true, true_and, false_or, forall_const]
    by_cases hstored : v.cycle.stored ≤ expires
    · simp only [hstored, true_and]
      have hnext : ∃ x ∈ w :: ws, expires < x.cycle.readings.now := by
       obtain ⟨x, hx, hlt⟩ := hafter
       rcases mem_cons.mp hx with rfl | hx
       · rcases of_decide_eq_true hun with hsoon | hlast'
         · have := hsoon.1
           omega
         · obtain ⟨-, h2, h3, h4, -⟩ := hord
           omega
       · exact ⟨x, hx, hlt⟩
      exact ih (fun x hx => hvps x (mem_cons_of_mem _ hx)) hs.tail (by rw [hf.lastCheck]; exact hstored) hnext
       (hs.ordered w (by simp)) (hvps w (by simp))
    · simp only [hstored, false_and, iff_false]
      refine expired_not_mem_of_late he (fun x hx => hvps x (mem_cons_of_mem _ hx)) hs.tail ?_
      rw [hf.lastCheck]
      omega
  · exact expiry_seen_of_aware he hv hs hlast (Bool.eq_false_iff.mpr hun)

end Expired

theorem edges_seen_iff {deleteAfter : Nat} {sub : Subscription} {expires lastCheck : Int} {cycles : List Cycle}
  (he : sub.expires = some expires) (h : Watched expires lastCheck cycles) :
  (.expiringSoon ∈ handled deleteAfter sub (executed lastCheck cycles) ↔ lastCheck + day < expires ∧
   (∀ v ∈ (executed lastCheck cycles).head?, v.cycle.readings.now < expires) ∧
    ∀ v ∈ executed lastCheck cycles, v.straddlesWarning expires = false) ∧
  ((∀ c ∈ cycles, (c.db.listSubscriptionLineItems sub.id).all (·.subscriptionType ≠ .vps) = true) →
   (.expired ∈ handled deleteAfter sub (executed lastCheck cycles) ↔ lastCheck ≤ expires ∧
    (∀ v ∈ executed lastCheck cycles, v.unaware expires = true → v.cycle.stored ≤ expires) ∧
     ((executed lastCheck cycles).find? fun v => !v.unaware expires).all
      (·.withinGrace deleteAfter sub expires) = true)) := by
 have hs := h.steady
 have hafter := h.after
 have hmem : ∀ v ∈ executed lastCheck cycles, v.cycle ∈ cycles := fun v hv => mem_of_executed hv
 have hhead : ∀ v ∈ (executed lastCheck cycles).head?, v.lastCheck = lastCheck :=
  fun v hv => lastCheck_of_head_executed hv
 generalize executed lastCheck cycles = vs at *
 rcases vs with _ | ⟨v, vs⟩
 · obtain ⟨v, hv, -⟩ := hafter
   cases hv
 obtain rfl := hhead v rfl
 constructor
 · simpa using warning_seen_iff he hs hafter
 intro hvps
 have hvps' := fun w hw => hvps _ (hmem w hw)
 by_cases hlast : v.lastCheck ≤ expires
 · rw [and_iff_right hlast]
   exact expiry_seen_iff he hvps' hs hlast hafter
 · exact iff_of_false (expired_not_mem_of_late he hvps' hs (not_le.mp hlast)) fun h => hlast h.1

def cycleAt (t : Int) (d : Nat) : Cycle where
 db := {}
 start := t
 readings := ⟨t, t, t, t⟩
 finish := t + d * second

theorem cycleAt_ordered (t : Int) (d : Nat) : (cycleAt t d).Ordered := by
 have := Int.mul_nonneg (Int.natCast_nonneg d) (show (0 : Int) ≤ second by decide)
 exact ⟨le_refl t, le_refl t, le_refl t, le_refl t, by simp only [cycleAt]; omega⟩

def expiresDayTen : Subscription := { id := 1, expires := some (10 * day), isActive := true, isSetup := true }

/-- Cycles of five seconds every eighteen hours see both edges. -/
theorem edges_seen_four_cycles :
  let cycles := [cycleAt (8 * day) 5, cycleAt (35 * day / 4) 5, cycleAt (19 * day / 2) 5, cycleAt (41 * day / 4) 5]
  Watched (10 * day) 0 cycles ∧ .expiringSoon ∈ handled 3 expiresDayTen (executed 0 cycles) ∧
   .expired ∈ handled 3 expiresDayTen (executed 0 cycles) := by
 intro cycles
 have h : Watched (10 * day) 0 cycles := by
  refine ⟨?_, by decide, by decide, by decide⟩
  simp only [cycles, forall_mem_cons]
  exact ⟨cycleAt_ordered _ _, cycleAt_ordered _ _, cycleAt_ordered _ _, cycleAt_ordered _ _, nofun⟩
 obtain ⟨hsoon, hexpired⟩ := @edges_seen_iff 3 expiresDayTen _ _ _ rfl h
 exact ⟨h, hsoon.mpr (by decide), (hexpired (by decide)).mpr (by decide)⟩

/-- A cycle looks at the subscription a second before day 9 and ends after that; no cycle sends the warning. -/
theorem long_cycle_misses_warning :
  ¬ ∀ (deleteAfter : Nat) (sub : Subscription) (expires lastCheck : Int) (cycles : List Cycle),
   sub.expires = some expires → Watched expires lastCheck cycles →
    .expiringSoon ∈ handled deleteAfter sub (executed lastCheck cycles) ∧
     ((∀ c ∈ cycles, (c.db.listSubscriptionLineItems sub.id).all (·.subscriptionType ≠ .vps) = true) →
      .expired ∈ handled deleteAfter sub (executed lastCheck cycles)) := by
 intro h
 have hw : Watched (10 * day) 0 [cycleAt (17 * day / 2) 5, cycleAt (9 * day - second) 5, cycleAt (39 * day / 4) 5,
   cycleAt (41 * day / 4) 5] := by
  refine ⟨?_, by decide, by decide, by decide⟩
  simp only [forall_mem_cons]
  exact ⟨cycleAt_ordered _ _, cycleAt_ordered _ _, cycleAt_ordered _ _, cycleAt_ordered _ _, nofun⟩
 exact absurd (h 3 expiresDayTen _ _ _ rfl hw).1 (by decide)

section Promise

variable {deleteAfter : Nat} {sub : Subscription} {t₁ t₂ : Int}

private theorem ageDays_le_iff (x : Int) (k : Nat) : max 0 (x.tdiv day) ≤ k ↔ x < (k + 1) * day := by
 rcases le_total 0 x with hpos | hneg
 · rw [Int.tdiv_eq_ediv_of_nonneg hpos, max_le_iff]
   unfold day second
   omega
 have hq := Int.tdiv_nonneg (Int.neg_nonneg_of_nonpos hneg) (Int.le_of_lt day_pos)
 have hk : 0 < ((k : Int) + 1) * day := Int.mul_pos (by omega) day_pos
 rw [Int.neg_tdiv] at hq
 rw [max_le_iff]
 omega

theorem gracePeriodDaysForSub_eq (now : Int) :
  gracePeriodDaysForSub sub now deleteAfter =
   if now - sub.created < 2 * day then 1
   else if now - sub.created < 8 * day then 2
   else if now - sub.created < 29 * day then 7
   else if now - sub.created < 181 * day then 14
   else deleteAfter := by
 have h1 := ageDays_le_iff (now - sub.created) 1
 have h2 := ageDays_le_iff (now - sub.created) 7
 have h3 := ageDays_le_iff (now - sub.created) 28
 have h4 := ageDays_le_iff (now - sub.created) 180
 unfold gracePeriodDaysForSub
 norm_num at h1 h2 h3 h4 ⊢
 simp only [h1, h2, h3, h4]

theorem gracePeriodDaysForSub_mono (h : t₁ ≤ t₂) (hage : t₂ - sub.created < 181 * day) :
  gracePeriodDaysForSub sub t₁ deleteAfter ≤ gracePeriodDaysForSub sub t₂ deleteAfter := by
 rw [gracePeriodDaysForSub_eq, gracePeriodDaysForSub_eq]
 have := day_pos
 split_ifs <;> omega

theorem gracePeriodDaysForSub_last (hage : 181 * day ≤ t₁ - sub.created) :
  gracePeriodDaysForSub sub t₁ deleteAfter = deleteAfter := by
 rw [gracePeriodDaysForSub_eq]
 have := day_pos
 split_ifs <;> omega

def keepsPromise (deleteAfter : Nat) (sub : Subscription) (expires t₁ : Int) : Bool :=
 let graceDays := gracePeriodDaysForSub sub t₁ deleteAfter
 181 * day ≤ t₁ - sub.created ∨ graceDays ≤ deleteAfter ∨
  expires + graceDays * day < max t₁ (sub.created + 181 * day)

/-- No later cancellation comes before the date that was shown at `t₁`, if and only if the subscription does not enter
its last tier before that date with a shorter grace period. -/
theorem promised_deletion_iff {expires : Int} (he : sub.expires = some expires) (ht : expires ≤ t₁) :
  (∀ (db : Db) (lastCheck : Int) (r : ClockReadings) (graceDays : Nat), t₁ ≤ r.now → r.now ≤ r.tier →
   r.tier ≤ r.grace → lifecycleBranch db deleteAfter sub lastCheck r = .cancel graceDays →
    expires + gracePeriodDaysForSub sub t₁ deleteAfter * day < r.grace) ↔
   keepsPromise deleteAfter sub expires t₁ = true := by
 unfold keepsPromise
 rw [decide_eq_true_eq]
 constructor
 · intro h
   by_contra hno
   rw [not_or, not_or, not_le, not_le, not_lt, max_le_iff] at hno
   obtain ⟨hage, hshort, ht₁, hlast⟩ := hno
   generalize hg : gracePeriodDaysForSub sub t₁ deleteAfter = graceDays at *
   have hgrace : gracePeriodDaysForSub sub (expires + graceDays * day) deleteAfter = deleteAfter :=
    gracePeriodDaysForSub_last (by omega)
   have hpos : (deleteAfter : Int) * day < graceDays * day := Int.mul_lt_mul_of_pos_right (by omega) day_pos
   have hcancel : lifecycleBranch {} deleteAfter sub 0 ⟨expires + graceDays * day, expires + graceDays * day,
     expires + graceDays * day, expires + graceDays * day⟩ = .cancel deleteAfter := by
    unfold lifecycleBranch
    rw [he]
    dsimp only
    rw [hgrace, if_neg (by omega), if_pos (by omega)]
   exact lt_irrefl _ (h _ _ _ _ ht₁ (le_refl _) (le_refl _) hcancel)
 · intro h db lastCheck r graceDays h1 h2 h3 hcancel
   obtain ⟨rfl, e, hsub, hlt⟩ := lifecycleBranch_cancel hcancel
   cases he.symm.trans hsub
   by_cases hlast : 181 * day ≤ r.tier - sub.created
   · rw [gracePeriodDaysForSub_last hlast] at hlt
     rcases h with hage | hlong | hdate
     · rwa [gracePeriodDaysForSub_last hage]
     · have := Int.mul_le_mul_of_nonneg_right (Int.ofNat_le.mpr hlong) (Int.le_of_lt day_pos)
       omega
     · have hmax : max t₁ (sub.created + 181 * day) ≤ r.grace := max_le (by omega) (by omega)
       omega
   · have hmono : gracePeriodDaysForSub sub t₁ deleteAfter ≤ gracePeriodDaysForSub sub r.tier deleteAfter :=
      gracePeriodDaysForSub_mono (h1.trans h2) (by omega)
     have := Int.mul_le_mul_of_nonneg_right (Int.ofNat_le.mpr hmono) (Int.le_of_lt day_pos)
     omega

end Promise

def expiresNearLastTier : Subscription := { id := 1, expires := some (175 * day), isActive := true, isSetup := true }

/-- With a configured grace period of 30 days, the date shown on day 176 is kept by the cancellation on day 206. -/
theorem promised_deletion_thirty_days :
  lifecycleBranch {} 30 expiresNearLastTier 0 ⟨206 * day, 206 * day, 206 * day, 206 * day⟩ = .cancel 30 ∧
   175 * day + gracePeriodDaysForSub expiresNearLastTier (176 * day) 30 * day < 206 * day := by
 have hiff := @promised_deletion_iff 30 expiresNearLastTier (176 * day) _ rfl (by decide)
 have hcancel : lifecycleBranch {} 30 expiresNearLastTier 0 ⟨206 * day, 206 * day, 206 * day, 206 * day⟩ =
   .cancel 30 := by decide
 have hkeeps : keepsPromise 30 expiresNearLastTier (175 * day) (176 * day) = true := by decide
 have hlate := hiff.mpr hkeeps {} 0 ⟨206 * day, 206 * day, 206 * day, 206 * day⟩ 30 (by decide) (by decide) (by decide)
  hcancel
 exact ⟨hcancel, hlate⟩

/-- With a configured grace period of 3 days, day 189 is shown on day 176, and the VM is deleted on day 181. -/
theorem last_tier_breaks_promise :
  ¬ ∀ (deleteAfter : Nat) (sub : Subscription) (expires t₁ : Int) (db : Db) (lastCheck : Int) (r : ClockReadings)
   (graceDays : Nat), sub.expires = some expires → expires ≤ t₁ → t₁ ≤ r.now → r.now ≤ r.tier →
    r.tier ≤ r.grace → lifecycleBranch db deleteAfter sub lastCheck r = .cancel graceDays →
     expires + gracePeriodDaysForSub sub t₁ deleteAfter * day < r.grace := by
 intro h
 have := h 3 expiresNearLastTier (175 * day) (176 * day) {} 0 ⟨181 * day, 181 * day, 181 * day, 181 * day⟩ 3 rfl
  (by decide) (by decide) (by decide) (by decide) (by decide)
 exact absurd this (by decide)

end Lnvps
