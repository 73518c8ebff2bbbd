import Lnvps.Upgrade

/-! # Upgrades that are delivered again -/

namespace Lnvps

open Table List Option

structure Execution where
 limit : Option Nat := none
 later : Bool := true

section Jobs

variable (text : IpText) (vmId : Nat) (cfg : UpgradeConfig)

def processVmUpgrade (u : CustomDb) (e : Execution) : Bool × CustomDb :=
 let (ok, v) := updateTemplate text u vmId cfg e.limit
 (ok && e.later, v)

def processAll (u : CustomDb) (es : List Execution) : CustomDb :=
 es.foldl (fun u e => (processVmUpgrade text vmId cfg u e).2) u

end Jobs

def hasStandardTemplate (u : CustomDb) (vmId : Nat) : Bool :=
 (u.db.getVm vmId).any fun vm => vm.customTemplateId = none

def billedByMonth (subscription : Subscription) : Bool :=
 subscription.intervalAmount = 1 ∧ subscription.intervalType = .month

variable (text : IpText)

def converged (u v : CustomDb) (vmId : Nat) (cfg : UpgradeConfig) : Bool :=
 (v.vmCustomTemplate vmId).any (fun t => cfg.reached t && billedAt text v vmId t) &&
  (!hasStandardTemplate u vmId || (v.vmSubscription vmId).any billedByMonth)

def getsPrice (u : CustomDb) (vmId : Nat) (t : VmCustomTemplate) (written : Bool) : Bool :=
 if written then (getCustomVmCostAmount text u vmId t).isSome else billedAt text u vmId t

def completes (u : CustomDb) (vmId : Nat) (cfg : UpgradeConfig) (es : List Execution) : Bool :=
 (u.db.getVm vmId).any fun vm =>
  match vm.customTemplateId with
  | none => (VmProvisioner.createUpgradeTemplate u vm cfg).any fun t =>
    (es.find? fun e => writes e.limit 1).any fun e =>
     (writes e.limit 2 || (u.vmSubscription vmId).any billedByMonth) &&
      getsPrice text u vmId t (writes e.limit 3)
  | some id => (u.getCustomVmTemplate id).any fun t =>
    if cfg.reached t then billedAt text u vmId t
    else (es.find? fun e => writes e.limit 0).any fun e => getsPrice text u vmId (cfg.apply t) (writes e.limit 1)

section Runs

variable {text : IpText} {u v : CustomDb} {vmId : Nat} {cfg : UpgradeConfig} {vm : Vm} {t : VmCustomTemplate}
 {item : SubscriptionLineItem} {subscription : Subscription} {price : PricingData} {e : Execution}
 {es : List Execution} {limit : Option Nat}

def Settled (cfg : UpgradeConfig) (v : CustomDb) (vmId : Nat) : Prop :=
 ∃ t, v.vmCustomTemplate vmId = some t ∧ cfg.reached t = true

theorem noDowngrade_of_reached (h : cfg.reached t = true) : cfg.noDowngrade t = true := by
 rw [← UpgradeConfig.apply_of_reached h]
 exact UpgradeConfig.noDowngrade_apply cfg t

theorem updateTemplate_of_settled (h : Settled cfg v vmId) : updateTemplate text v vmId cfg limit = (true, v) := by
 obtain ⟨t, ht, hreached⟩ := h
 obtain ⟨vm, hvm, ht⟩ := bind_eq_some_iff.mp ht
 obtain ⟨id, hid, ht⟩ := bind_eq_some_iff.mp ht
 simp [updateTemplate, hvm, hid, ht, noDowngrade_of_reached hreached, hreached]

theorem processAll_of_settled (h : Settled cfg v vmId) : processAll text vmId cfg v es = v := by
 induction es with
 | nil => rfl
 | cons e es ih =>
  unfold processAll at ih ⊢
  rw [foldl_cons, processVmUpgrade, updateTemplate_of_settled h]
  exact ih

theorem processVmUpgrade_of_settled (h : Settled cfg v vmId) : processVmUpgrade text vmId cfg v e = (e.later, v) := by
 rw [processVmUpgrade, updateTemplate_of_settled h]
 rfl

theorem converged_iff {t' : VmCustomTemplate} (ht : v.vmCustomTemplate vmId = some t')
  (hreached : cfg.reached t' = true) (hprices : SamePrices u v) (hspecs : t'.specs = t.specs)
  (hitem : v.vmLineItem vmId = some item) :
  converged text u v vmId cfg = true ↔
   ((getCustomVmCostAmount text u vmId t).any fun price => item.amount = price.total) = true ∧
    (hasStandardTemplate u vmId = true → (v.vmSubscription vmId).any billedByMonth = true) := by
 simp only [converged, ht, any_some, hreached, Bool.true_and, billedAt, hitem,
  getCustomVmCostAmount_congr hprices hspecs, Bool.and_eq_true, Bool.or_eq_true, Bool.not_eq_true']
 rcases hasStandardTemplate u vmId <;> simp

theorem vmLineItem_eq (hvm : u.db.getVm vmId = some vm)
  (hitem : u.db.getSubscriptionLineItem vm.subscriptionLineItemId = some item) : u.vmLineItem vmId = some item := by
 simp [CustomDb.vmLineItem, hvm, hitem]

theorem vmSubscription_eq (hitem : u.vmLineItem vmId = some item)
  (hsub : u.db.getSubscription item.subscriptionId = some subscription) :
  u.vmSubscription vmId = some subscription := by
 simp [CustomDb.vmSubscription, hitem, hsub]

theorem getSubscription_billedMonthly (hsub : u.db.getSubscription item.subscriptionId = some subscription) :
  (billedMonthly u vm t subscription).db.getSubscription item.subscriptionId =
   some { subscription with intervalAmount := 1, intervalType := .month } := by
 unfold billedMonthly
 rw [Db.getSubscription_updateSubscription,
  show (assigned u vm t).db.getSubscription item.subscriptionId = some subscription from hsub, map_some,
  if_pos rfl]

theorem reached_of_create (ht : VmProvisioner.createUpgradeTemplate u vm cfg = some t) : cfg.reached t = true := by
 obtain ⟨id, -, ht⟩ := bind_eq_some_iff.mp ht
 obtain ⟨template, -, ht⟩ := bind_eq_some_iff.mp ht
 obtain ⟨pricing, -, ht⟩ := bind_eq_some_iff.mp ht
 split at ht
 · cases ht
   exact UpgradeConfig.reached_apply cfg template.base
 · cases ht

theorem standard_not_visible (hvm : u.db.getVm vmId = some vm) (hcustom : vm.customTemplateId = none)
  (ht : VmProvisioner.createUpgradeTemplate u vm cfg = some t)
  (hitem : u.db.getSubscriptionLineItem vm.subscriptionLineItemId = some item)
  (hsub : u.db.getSubscription item.subscriptionId = some subscription) (hw : writes limit 1 = false) :
  updateTemplate text u vmId cfg limit = (false, u) ∨
   updateTemplate text u vmId cfg limit = (false, inserted u t) := by
 rw [updateTemplate_standard hvm hcustom ht hitem hsub, hw]
 cases writes limit 0
 · exact .inl rfl
 · exact .inr rfl

theorem standard_visible (hu : u.WellFormed) (hvm : u.db.getVm vmId = some vm) (hcustom : vm.customTemplateId = none)
  (ht : VmProvisioner.createUpgradeTemplate u vm cfg = some t)
  (hitem : u.db.getSubscriptionLineItem vm.subscriptionLineItemId = some item)
  (hsub : u.db.getSubscription item.subscriptionId = some subscription) (hw : writes limit 1 = true)
  (hv : v = (updateTemplate text u vmId cfg limit).2) :
  Settled cfg v vmId ∧ (converged text u v vmId cfg = true ↔
   ((writes limit 2 || (u.vmSubscription vmId).any billedByMonth) &&
    getsPrice text u vmId t (writes limit 3)) = true) := by
 have hline := vmLineItem_eq hvm hitem
 have hstandard : hasStandardTemplate u vmId = true := by simp [hasStandardTemplate, hvm, hcustom]
 have hsizes := reached_of_create ht
 have hreached : cfg.reached { t with id := u.nextTemplateId, firewallRuleLimit := none } = true := hsizes
 have hread := vmCustomTemplate_assigned (t := t) hu hvm
 have hassigned : (assigned u vm t).vmLineItem vmId = some item := vmLineItem_assigned hvm hitem
 have hbilled : billedAt text u vmId t =
   (getCustomVmCostAmount text u vmId t).any fun price => item.amount = price.total := by
  simp [billedAt, hline]
 rw [updateTemplate_standard hvm hcustom ht hitem hsub, writes_of_succ hw, hw] at hv
 simp only [Bool.not_true, Bool.false_eq_true, if_false] at hv
 by_cases h2 : writes limit 2 = true
 swap
 · have h3 : writes limit 3 = false := by
    rw [← Bool.not_eq_true]
    exact fun h => h2 (writes_of_succ h)
   simp only [h2, Bool.not_false, if_true] at hv
   subst hv
   refine ⟨⟨_, hread, hreached⟩, ?_⟩
   rw [converged_iff (u := u) (t := t) hread hreached ⟨rfl, rfl, rfl⟩ rfl hassigned, vmSubscription_eq hline hsub,
    vmSubscription_eq hassigned hsub]
   simp [h2, h3, getsPrice, hbilled, hstandard, and_comm]
 simp only [h2, Bool.not_true, Bool.false_eq_true, if_false] at hv
 have hmonthly : (billedMonthly u vm t subscription).vmSubscription vmId =
   some { subscription with intervalAmount := 1, intervalType := .month } :=
  vmSubscription_eq hassigned (getSubscription_billedMonthly hsub)
 have hbehind : Settled cfg (billedMonthly u vm t subscription) vmId ∧
   (converged text u (billedMonthly u vm t subscription) vmId cfg = true ↔ billedAt text u vmId t = true) := by
  refine ⟨⟨_, hread, hreached⟩, ?_⟩
  rw [converged_iff (u := u) (v := billedMonthly u vm t subscription) (t := t) hread hreached ⟨rfl, rfl, rfl⟩ rfl
   hassigned, hmonthly, hbilled]
  simp [billedByMonth]
 rcases hcost : getCustomVmCostAmount text u vmId t with _ | price
 · rw [hcost] at hv
   subst hv
   refine ⟨hbehind.1, ?_⟩
   rw [hbehind.2, hbilled]
   simp [getsPrice, hbilled, hcost]
 rw [hcost] at hv
 by_cases h3 : writes limit 3 = true
 swap
 · simp only [h3, Bool.not_false, if_true] at hv
   subst hv
   refine ⟨hbehind.1, ?_⟩
   rw [hbehind.2]
   simp [h2, h3, getsPrice]
 simp only [h3, Bool.not_true, Bool.false_eq_true, if_false] at hv
 subst hv
 have hnew : (converted u vm t item subscription price).vmLineItem vmId = _ := vmLineItem_converted hvm hitem
 refine ⟨⟨_, hread, hreached⟩, ?_⟩
 rw [converged_iff (u := u) (v := converted u vm t item subscription price) (t := t) hread hreached ⟨rfl, rfl, rfl⟩ rfl
  hnew, vmSubscription_eq hnew (getSubscription_billedMonthly hsub)]
 simp [h2, h3, getsPrice, hcost, billedByMonth]

theorem custom_visible {id : Nat} (hvm : u.db.getVm vmId = some vm) (hcustom : vm.customTemplateId = some id)
  (ht : u.getCustomVmTemplate id = some t)
  (hitem : u.db.getSubscriptionLineItem vm.subscriptionLineItemId = some item) (hdown : cfg.noDowngrade t = true)
  (hreached : cfg.reached t = false) (hw : writes limit 0 = true)
  (hv : v = (updateTemplate text u vmId cfg limit).2) :
  Settled cfg v vmId ∧ (converged text u v vmId cfg = true ↔
   getsPrice text u vmId (cfg.apply t) (writes limit 1) = true) := by
 have hline := vmLineItem_eq hvm hitem
 have hstandard : hasStandardTemplate u vmId = false := by simp [hasStandardTemplate, hvm, hcustom]
 have hsizes := UpgradeConfig.reached_apply cfg t
 have hread : (u.updateCustomVmTemplate (cfg.apply t)).vmCustomTemplate vmId = some (cfg.apply t) :=
  vmCustomTemplate_update hvm hcustom ht rfl rfl
 have hbilled : billedAt text u vmId (cfg.apply t) =
   (getCustomVmCostAmount text u vmId (cfg.apply t)).any fun price => item.amount = price.total := by
  simp [billedAt, hline]
 have hbehind : Settled cfg (u.updateCustomVmTemplate (cfg.apply t)) vmId ∧
   (converged text u (u.updateCustomVmTemplate (cfg.apply t)) vmId cfg = true ↔
    billedAt text u vmId (cfg.apply t) = true) := by
  refine ⟨⟨_, hread, hsizes⟩, ?_⟩
  rw [converged_iff (u := u) hread hsizes ⟨rfl, rfl, rfl⟩ rfl hline, hbilled]
  simp [hstandard]
 rw [updateTemplate_custom hvm hcustom ht hitem, hdown, hreached, hw] at hv
 simp only [Bool.not_true, Bool.false_eq_true, if_false] at hv
 rcases hcost : getCustomVmCostAmount text u vmId (cfg.apply t) with _ | price
 · rw [hcost] at hv
   subst hv
   refine ⟨hbehind.1, ?_⟩
   rw [hbehind.2]
   simp [getsPrice, hbilled, hcost]
 rw [hcost] at hv
 by_cases h1 : writes limit 1 = true
 swap
 · simp only [h1, Bool.not_false, if_true] at hv
   subst hv
   refine ⟨hbehind.1, ?_⟩
   rw [hbehind.2]
   simp [h1, getsPrice]
 simp only [h1, Bool.not_true, Bool.false_eq_true, if_false] at hv
 subst hv
 have hnew : (repriced u (cfg.apply t) item price).vmLineItem vmId = _ := vmLineItem_repriced hvm hitem
 refine ⟨⟨_, hread, hsizes⟩, ?_⟩
 rw [converged_iff (u := u) (v := repriced u (cfg.apply t) item price) hread hsizes ⟨rfl, rfl, rfl⟩ rfl hnew]
 simp [h1, getsPrice, hcost, hstandard]

theorem converged_of_visible {Waiting : CustomDb → Prop} {visible decides : Execution → Bool}
  (hbefore : ∀ v e, Waiting v → visible e = false →
   (updateTemplate text v vmId cfg e.limit).1 = false ∧ Waiting (updateTemplate text v vmId cfg e.limit).2)
  (hvisible : ∀ v e, Waiting v → visible e = true → Settled cfg (updateTemplate text v vmId cfg e.limit).2 vmId ∧
   (converged text u (updateTemplate text v vmId cfg e.limit).2 vmId cfg = true ↔ decides e = true))
  (hv : Waiting v) (hok : (processVmUpgrade text vmId cfg (processAll text vmId cfg v es) e).1 = true) :
  converged text u (processVmUpgrade text vmId cfg (processAll text vmId cfg v es) e).2 vmId cfg = true ↔
   ((es ++ [e]).find? visible).any decides = true := by
 induction es generalizing v with
 | nil =>
  change ((updateTemplate text v vmId cfg e.limit).1 && e.later) = true at hok
  rcases hvis : visible e with _ | _
  · rw [(hbefore v e hv hvis).1] at hok
    cases hok
  · simp only [nil_append, find?_cons, hvis, any_some]
    exact (hvisible v e hv hvis).2
 | cons a es ih =>
  have hcons : processAll text vmId cfg v (a :: es) =
    processAll text vmId cfg (updateTemplate text v vmId cfg a.limit).2 es := rfl
  rw [hcons] at hok ⊢
  rcases hvis : visible a with _ | _
  · simp only [cons_append, find?_cons, hvis]
    exact ih (hbefore v a hv hvis).2 hok
  obtain ⟨hsettled, hdecides⟩ := hvisible v a hv hvis
  simp only [cons_append, find?_cons, hvis, any_some]
  rw [processAll_of_settled hsettled, processVmUpgrade_of_settled hsettled]
  exact hdecides

structure SpareTemplates (u v : CustomDb) : Prop where
 wellFormed : v.WellFormed
 frame : ∃ templates next, v = { u with customTemplates := templates, nextTemplateId := next }

theorem SpareTemplates.insert (h : SpareTemplates u v) : SpareTemplates u (inserted v t) := by
 obtain ⟨hv, templates, next, rfl⟩ := h
 refine ⟨⟨?_, hv.pricings, hv.lineItems, hv.subscriptions⟩, _, _, rfl⟩
 intro r hr
 rcases mem_snoc.mp hr with hr | rfl
 · exact (hv.fresh r hr).trans (Nat.lt_succ_self _)
 · exact Nat.lt_succ_self _

theorem not_ok_of_refused (hrefused : ∀ limit, updateTemplate text u vmId cfg limit = (false, u)) :
  (processVmUpgrade text vmId cfg (processAll text vmId cfg u es) e).1 = false := by
 have hsame : processAll text vmId cfg u es = u := by
  induction es with
  | nil => rfl
  | cons a es ih =>
   unfold processAll at ih ⊢
   rw [foldl_cons, processVmUpgrade, hrefused]
   exact ih
 rw [hsame, processVmUpgrade, hrefused]
 rfl

end Runs

/-- The execution that succeeds at last leaves the upgrade complete exactly if the first one that changed the template
of the VM made all its writes, or those it missed would have changed nothing. -/
theorem upgrade_converges_iff {text : IpText} {u : CustomDb} {vmId : Nat} {cfg : UpgradeConfig} {es : List Execution}
  {e : Execution} (hu : u.WellFormed)
  (hok : (processVmUpgrade text vmId cfg (processAll text vmId cfg u es) e).1 = true) :
  converged text u (processVmUpgrade text vmId cfg (processAll text vmId cfg u es) e).2 vmId cfg = true ↔
   completes text u vmId cfg (es ++ [e]) = true := by
 have hnot (hrefused : ∀ limit, updateTemplate text u vmId cfg limit = (false, u)) : False := by
  rw [not_ok_of_refused hrefused] at hok
  cases hok
 rcases hvm : u.db.getVm vmId with _ | vm
 · exact (hnot fun limit => by simp [updateTemplate, hvm]).elim
 obtain ⟨item, hitem⟩ := Option.isSome_iff_exists.mp (hu.lineItems vm (mem_of_lookup hvm))
 rcases hcustom : vm.customTemplateId with _ | id
 · obtain ⟨subscription, hsub⟩ := Option.isSome_iff_exists.mp (hu.subscriptions item (mem_of_lookup hitem))
   rcases ht : VmProvisioner.createUpgradeTemplate u vm cfg with _ | t
   · exact (hnot fun limit => updateTemplate_refused hvm hcustom ht).elim
   simp only [completes, hvm, hcustom, ht, Option.any_some]
   apply converged_of_visible ?_ ?_ (show SpareTemplates u u from ⟨hu, _, _, rfl⟩) hok
   · intro v e hv hw
     have hspare := hv.insert (t := t)
     obtain ⟨templates, next, hframe⟩ := hv.frame
     have hstep : updateTemplate text v vmId cfg e.limit = (false, v) ∨
       updateTemplate text v vmId cfg e.limit = (false, inserted v t) := by
      subst hframe
      exact standard_not_visible (u := { u with customTemplates := templates, nextTemplateId := next }) hvm hcustom ht
       hitem hsub hw
     rcases hstep with h | h
     · rw [h]
       exact ⟨rfl, hv⟩
     · rw [h]
       exact ⟨rfl, hspare⟩
   · rintro v e ⟨hv, templates, next, rfl⟩ hw
     exact standard_visible (u := { u with customTemplates := templates, nextTemplateId := next }) hv hvm hcustom ht
      hitem hsub hw rfl
 · rcases ht : u.getCustomVmTemplate id with _ | t
   · exact (hnot fun limit => by simp [updateTemplate, hvm, hcustom, ht]).elim
   have hstep (limit : Option Nat) : updateTemplate text u vmId cfg limit = _ :=
    updateTemplate_custom hvm hcustom ht hitem
   by_cases hdown : cfg.noDowngrade t = true
   swap
   · exact (hnot fun limit => by simp [hstep, hdown]).elim
   simp only [completes, hvm, hcustom, ht, Option.any_some]
   by_cases hreached : cfg.reached t = true
   · have hread : u.vmCustomTemplate vmId = some t := by simp [CustomDb.vmCustomTemplate, hvm, hcustom, ht]
     have hsettled : Settled cfg u vmId := ⟨t, hread, hreached⟩
     rw [processAll_of_settled hsettled, processVmUpgrade_of_settled hsettled, if_pos hreached]
     simp [converged, hread, hreached, hasStandardTemplate, hvm, hcustom]
   rw [Bool.not_eq_true] at hreached
   simp only [hreached, Bool.false_eq_true, if_false]
   apply converged_of_visible ?_ ?_ (rfl : u = u) hok
   · rintro v e rfl hw
     rw [hstep, hdown, hreached, hw]
     exact ⟨rfl, rfl⟩
   · rintro v e rfl hw
     exact custom_visible hvm hcustom ht hitem hdown hreached hw rfl

/-- The database fails before the VM is changed, and the next execution makes all its writes. -/
theorem upgrade_converges_second_execution :
  converged Provisioning.plainText (twoPriceLists .x86_64) (processVmUpgrade Provisioning.plainText 1
   { newCpu := some 4 } (processAll Provisioning.plainText 1 { newCpu := some 4 } (twoPriceLists .x86_64)
     [{ limit := some 1 }]) {}).2 1 { newCpu := some 4 } = true :=
 (upgrade_converges_iff (twoPriceLists_wellFormed _) (by decide +kernel)).mpr (by decide +kernel)

/-- The database fails after the VM is changed. The next execution succeeds, and the VM with four cores is still billed
by the year at the old price. -/
theorem upgrade_stays_unbilled :
  ¬ ∀ (text : IpText) (u : CustomDb) (vmId : Nat) (cfg : UpgradeConfig) (es : List Execution) (e : Execution),
   u.WellFormed → (processVmUpgrade text vmId cfg (processAll text vmId cfg u es) e).1 = true →
    converged text u (processVmUpgrade text vmId cfg (processAll text vmId cfg u es) e).2 vmId cfg = true := by
 intro h
 have hconverged := h Provisioning.plainText (twoPriceLists .x86_64) 1 { newCpu := some 4 } [{ limit := some 2 }] {}
  (twoPriceLists_wellFormed _) (by decide +kernel)
 exact absurd hconverged (by decide +kernel)

end Lnvps
