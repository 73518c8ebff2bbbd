import Lnvps.Network
import Lnvps.Pricing

/-! # Upgrading a VM -/

namespace Lnvps

open Table Net Option

structure ResourceLimits where
 (diskIopsRead diskIopsWrite diskMbpsRead diskMbpsWrite networkMbps : Option Nat := none)
 cpuLimit : Option Rat := none

structure VmCustomTemplate where
 id : Nat := 0
 (cpu memory diskSize : Nat)
 diskType : DiskType
 diskInterface : DiskInterface
 pricingId : Nat
 cpuMfg : CpuMfg := .unknown
 cpuArch : CpuArch := .unknown
 cpuFeatures : List CpuFeature := []
 limits : ResourceLimits := {}
 firewallRuleLimit : Option Nat := none

structure VmCustomPricing where
 id : Nat
 enabled : Bool := true
 expires : Option Int := none
 regionId : Nat := 0
 currency : Option Currency := some .eur
 cpuMfg : CpuMfg := .unknown
 cpuArch : CpuArch := .unknown
 cpuFeatures : List CpuFeature := []
 (cpuCost memoryCost : Nat)
 (ip4Cost ip6Cost minCpu : Nat := 0)
 maxCpu : Nat
 minMemory : Nat := 0
 maxMemory : Nat
 limits : ResourceLimits := {}

structure VmCustomPricingDisk where
 pricingId : Nat
 kind : DiskType
 interface : DiskInterface
 cost : Nat
 minDiskSize : Nat := 0
 maxDiskSize : Nat

structure CustomDb extends NetworkDb where
 customPricings : List VmCustomPricing := []
 customPricingDisks : List VmCustomPricingDisk := []
 customTemplates : List VmCustomTemplate := []
 nextTemplateId : Nat := 1

namespace CustomDb

variable (u : CustomDb)

def getCustomPricing (id : Nat) : Option VmCustomPricing := lookup (·.id) id u.customPricings

def listCustomPricing (regionId : Nat) : List VmCustomPricing := u.customPricings.filter fun p => p.regionId = regionId

def listCustomPricingDisk (pricingId : Nat) : List VmCustomPricingDisk :=
 u.customPricingDisks.filter fun d => d.pricingId = pricingId

def getCustomVmTemplate (id : Nat) : Option VmCustomTemplate := lookup (·.id) id u.customTemplates

def insertCustomVmTemplate (template : VmCustomTemplate) : Nat × CustomDb :=
 (u.nextTemplateId, { u with
  customTemplates := u.customTemplates ++ [{ template with id := u.nextTemplateId, firewallRuleLimit := none }]
  nextTemplateId := u.nextTemplateId + 1 })

def updateCustomVmTemplate (template : VmCustomTemplate) : CustomDb := { u with
 customTemplates := updateWhere (fun t => t.id = template.id)
  (fun t => { template with firewallRuleLimit := t.firewallRuleLimit }) u.customTemplates }

end CustomDb

def gb : Nat := 1024 ^ 3

structure PricingData where
 currency : Currency
 (cpuCost memoryCost ip4Cost ip6Cost diskCost : Nat)

def PricingData.total (p : PricingData) : Nat := p.cpuCost + p.memoryCost + p.ip4Cost + p.ip6Cost + p.diskCost

def findDisk (u : CustomDb) (pricingId : Nat) (kind : DiskType) (interface : DiskInterface) :
  Option VmCustomPricingDisk :=
 (u.listCustomPricingDisk pricingId).find? fun d => d.kind = kind ∧ d.interface = interface

variable (text : IpText)

def countIps (u : CustomDb) (vmId : Nat) (kind : Kind) : Nat :=
 max 1 ((u.listVmIpAssignments vmId).countP fun i => (text.parse i.ip).any fun a => a.kind = kind)

def getCustomVmCostAmount (u : CustomDb) (vmId : Nat) (template : VmCustomTemplate) :
  Option PricingData := do
 let pricing ← u.getCustomPricing template.pricingId
 let disk ← findDisk u pricing.id template.diskType template.diskInterface
 let currency ← pricing.currency
 some {
  currency
  cpuCost := pricing.cpuCost * template.cpu
  memoryCost := pricing.memoryCost * ((template.memory + gb - 1) / gb)
  ip4Cost := pricing.ip4Cost * countIps text u vmId .v4
  ip6Cost := pricing.ip6Cost * countIps text u vmId .v6
  diskCost := (template.diskSize + gb - 1) / gb * disk.cost }

def validateCustomVmSpec (u : CustomDb) (template : VmCustomTemplate) : Bool :=
 (u.getCustomPricing template.pricingId).any fun pricing =>
  (findDisk u pricing.id template.diskType template.diskInterface).any fun disk =>
   pricing.minCpu ≤ template.cpu ∧ template.cpu ≤ pricing.maxCpu ∧
    pricing.minMemory ≤ template.memory ∧ template.memory ≤ pricing.maxMemory ∧
    disk.minDiskSize ≤ template.diskSize ∧ template.diskSize ≤ disk.maxDiskSize

def hasCompatibleDisk (u : CustomDb) (kind : DiskType) (interface : DiskInterface) (pricing : VmCustomPricing) : Bool :=
 (u.listCustomPricingDisk pricing.id).any fun d => d.kind = kind ∧ d.interface = interface

def VmTemplate.base (template : VmTemplate) : VmCustomTemplate where
 cpu := template.cpu
 memory := template.memory
 diskSize := template.diskSize
 diskType := template.diskType
 diskInterface := template.diskInterface
 pricingId := 0
 cpuMfg := template.cpuMfg
 cpuArch := template.cpuArch
 cpuFeatures := template.cpuFeatures

variable (cfg : UpgradeConfig) (template : VmCustomTemplate)

def UpgradeConfig.apply : VmCustomTemplate := { template with
 cpu := cfg.newCpu.getD template.cpu
 memory := cfg.newMemory.getD template.memory
 diskSize := cfg.newDisk.getD template.diskSize }

def UpgradeConfig.upgraded (pricing : VmCustomPricing) (template : VmCustomTemplate) :
  VmCustomTemplate := { cfg.apply template with
 id := 0
 pricingId := pricing.id
 limits := pricing.limits
 firewallRuleLimit := none }

def UpgradeConfig.noDowngrade : Bool :=
 template.cpu ≤ cfg.newCpu.getD template.cpu ∧ template.memory ≤ cfg.newMemory.getD template.memory ∧
  template.diskSize ≤ cfg.newDisk.getD template.diskSize

def UpgradeConfig.reached : Bool :=
 template.cpu = cfg.newCpu.getD template.cpu ∧ template.memory = cfg.newMemory.getD template.memory ∧
  template.diskSize = cfg.newDisk.getD template.diskSize

namespace PricingEngine

def suitsCpu (template : VmTemplate) (pricing : VmCustomPricing) : Bool :=
 (template.cpuMfg = .unknown ∨ pricing.cpuMfg = .unknown ∨ pricing.cpuMfg = template.cpuMfg) ∧
  (template.cpuArch = .unknown ∨ pricing.cpuArch = .unknown ∨ pricing.cpuArch = template.cpuArch) ∧
  (template.cpuFeatures = [] ∨ pricing.cpuFeatures = [] ∨
   ∀ f ∈ template.cpuFeatures, f ∈ pricing.cpuFeatures)

def findCustomPricing (u : CustomDb) (template : VmTemplate) : Option VmCustomPricing :=
 (u.listCustomPricing template.regionId).find? fun pricing =>
  pricing.enabled && suitsCpu template pricing &&
   hasCompatibleDisk u template.diskType template.diskInterface pricing

def createUpgradeTemplate (u : CustomDb) (vmId : Nat) (cfg : UpgradeConfig) : Option VmCustomTemplate := do
 let vm ← u.db.getVm vmId
 match vm.templateId with
 | some templateId => do
  let template ← u.db.getVmTemplate templateId
  let pricing ← findCustomPricing u template
  some (cfg.upgraded pricing template.base)
 | none => do
  let customTemplateId ← vm.customTemplateId
  let template ← u.getCustomVmTemplate customTemplateId
  let pricing ← u.getCustomPricing template.pricingId
  some (cfg.upgraded pricing template)

def costPlanIntervalToSeconds (intervalType : IntervalType) (intervalAmount : Nat) : Nat :=
 (match intervalType with
  | .day => 24 * 60 * 60
  | .month => 30 * 24 * 60 * 60
  | .year => 365 * 24 * 60 * 60) * intervalAmount

def currentCost (text : IpText) (u : CustomDb) (vm : Vm) : Option (Currency × Nat × Nat) :=
 match vm.templateId with
 | some templateId => do
  let template ← u.db.getVmTemplate templateId
  let plan ← u.db.getCostPlan template.costPlanId
  some (plan.currency, plan.amount, costPlanIntervalToSeconds plan.intervalType plan.intervalAmount)
 | none => do
  let customTemplateId ← vm.customTemplateId
  let template ← u.getCustomVmTemplate customTemplateId
  let price ← getCustomVmCostAmount text u vm.id template
  some (price.currency, price.total, costPlanIntervalToSeconds .month 1)

structure UpgradeCostQuote where
 currency : Currency
 rate : Rat
 (upgrade renewal discount tax processingFee : Nat)

structure QuoteMath where
 prorate : (cost interval seconds : Nat) → Nat
 subtract : Nat → Nat → Option Nat

def calculateVmUpgradeCost (text : IpText) (mk : Market) (qm : QuoteMath) (u : CustomDb) (now : Int) (vmId : Nat)
    (cfg : UpgradeConfig) (method : PaymentMethod) : Option UpgradeCostQuote := do
  let vm ← u.db.getVm vmId
  let expires ← vmSubscriptionExpires u.db vm
  if vm.deleted ∨ expires ≤ now then none
  else do
    let secondsRemaining := secondsBetween now expires
    let (oldCurrency, oldCost, oldSeconds) ← currentCost text u vm
    let template ← createUpgradeTemplate u vmId cfg
    if !validateCustomVmSpec u template then none
    else do
      let price ← getCustomVmCostAmount text u vmId template
      let newCost := qm.prorate price.total (costPlanIntervalToSeconds .month 1) secondsRemaining
      let (currency, newAmount, rate) ← getAmountAndRate mk price.currency newCost method
      let (_, discount, _) ← getAmountAndRate mk oldCurrency (qm.prorate oldCost oldSeconds secondsRemaining) method
      let (_, renewal, _) ← getAmountAndRate mk price.currency price.total method
      if oldCurrency ≠ price.currency then none
      else do
        let upgrade ← qm.subtract newAmount discount
        let companyId ← u.db.getVmCompanyId vmId
        let tax ← mk.determineTax vm.userId upgrade companyId
        some {
          currency, rate, upgrade, renewal, discount, tax
          processingFee := calculateProcessingFee f64 mk u.db companyId method currency (upgrade + tax) }

end PricingEngine

def writes (limit : Option Nat) (k : Nat) : Bool := limit.all fun n => k < n

namespace VmProvisioner

def compatiblePricing (u : CustomDb) (template : VmTemplate) : Option VmCustomPricing :=
 (u.listCustomPricing template.regionId).find? fun pricing =>
  pricing.enabled && hasCompatibleDisk u template.diskType template.diskInterface pricing

def createUpgradeTemplate (u : CustomDb) (vm : Vm) (cfg : UpgradeConfig) : Option VmCustomTemplate := do
 let templateId ← vm.templateId
 let template ← u.db.getVmTemplate templateId
 let pricing ← compatiblePricing u template
 if cfg.noDowngrade template.base then
  some (cfg.upgraded pricing template.base)
 else none

def convertToCustomTemplate (text : IpText) (u : CustomDb) (vm : Vm) (cfg : UpgradeConfig) (limit : Option Nat) :
  Bool × CustomDb :=
 match createUpgradeTemplate u vm cfg with
 | none => (false, u)
 | some template =>
  if !writes limit 0 then (false, u)
  else
   let (id, u) := u.insertCustomVmTemplate template
   if !writes limit 1 then (false, u)
   else
    let u := { u with db := u.db.updateVm { vm with templateId := none, customTemplateId := some id } }
    match u.db.getSubscriptionLineItem vm.subscriptionLineItemId with
    | none => (false, u)
    | some item =>
     match u.db.getSubscription item.subscriptionId with
     | none => (false, u)
     | some subscription =>
      if !writes limit 2 then (false, u)
      else
       let u := { u with
        db := u.db.updateSubscription { subscription with intervalAmount := 1, intervalType := .month } }
       match getCustomVmCostAmount text u vm.id template with
       | none => (false, u)
       | some price =>
        if !writes limit 3 then (false, u)
        else (true, { u with
         db := u.db.updateSubscriptionLineItem { item with subscriptionType := .vps, amount := price.total } })

def updateLineItemCostForCustomVm (text : IpText) (u : CustomDb) (vmId : Nat) (ok : Bool) : Bool × CustomDb :=
 match u.db.getVm vmId with
 | none => (false, u)
 | some vm =>
  match vm.customTemplateId.bind u.getCustomVmTemplate with
  | none => (false, u)
  | some template =>
   match getCustomVmCostAmount text u vmId template, u.db.getSubscriptionLineItem vm.subscriptionLineItemId with
   | some price, some item =>
    if ok then (true, { u with db := u.db.updateSubscriptionLineItem { item with amount := price.total } })
    else (false, u)
   | _, _ => (false, u)

end VmProvisioner

def updateTemplate (u : CustomDb) (vmId : Nat) (cfg : UpgradeConfig) (limit : Option Nat) : Bool × CustomDb :=
 match u.db.getVm vmId with
 | none => (false, u)
 | some vm =>
  match vm.customTemplateId with
  | none => VmProvisioner.convertToCustomTemplate text u vm cfg limit
  | some customTemplateId =>
   match u.getCustomVmTemplate customTemplateId with
   | none => (false, u)
   | some template =>
    if !cfg.noDowngrade template then (false, u)
    else if cfg.reached template then (true, u)
    else if !writes limit 0 then (false, u)
    else
     VmProvisioner.updateLineItemCostForCustomVm text (u.updateCustomVmTemplate (cfg.apply template)) vmId
      (writes limit 1)

namespace CustomDb

variable (u : CustomDb) (vmId : Nat)

def vmCustomTemplate : Option VmCustomTemplate := do
 let vm ← u.db.getVm vmId
 let customTemplateId ← vm.customTemplateId
 u.getCustomVmTemplate customTemplateId

def vmLineItem : Option SubscriptionLineItem := do
 let vm ← u.db.getVm vmId
 u.db.getSubscriptionLineItem vm.subscriptionLineItemId

def vmSubscription : Option Subscription := do
 let item ← u.vmLineItem vmId
 u.db.getSubscription item.subscriptionId

structure WellFormed : Prop where
 fresh : ∀ t ∈ u.customTemplates, t.id < u.nextTemplateId
 pricings : Keyed (·.id) u.customPricings
 lineItems : ∀ vm ∈ u.db.vms, (u.db.getSubscriptionLineItem vm.subscriptionLineItemId).isSome
 subscriptions : ∀ item ∈ u.db.lineItems, (u.db.getSubscription item.subscriptionId).isSome

end CustomDb

def VmCustomTemplate.specs (t : VmCustomTemplate) : (Nat × Nat × Nat) × (DiskType × DiskInterface) × Nat :=
 ((t.cpu, t.memory, t.diskSize), (t.diskType, t.diskInterface), t.pricingId)

section Cost

variable {text : IpText} {u v : CustomDb} {vmId : Nat} {t t' : VmCustomTemplate}

structure SamePrices (u v : CustomDb) : Prop where
 pricings : v.customPricings = u.customPricings
 disks : v.customPricingDisks = u.customPricingDisks
 ips : v.vmIpAssignments = u.vmIpAssignments

theorem getCustomVmCostAmount_congr (h : SamePrices u v) (hs : t'.specs = t.specs) :
  getCustomVmCostAmount text v vmId t' = getCustomVmCostAmount text u vmId t := by
 simp only [VmCustomTemplate.specs, Prod.mk.injEq] at hs
 obtain ⟨⟨hcpu, hmem, hdisk⟩, ⟨hkind, hif⟩, hpricing⟩ := hs
 simp only [getCustomVmCostAmount, CustomDb.getCustomPricing, findDisk, CustomDb.listCustomPricingDisk, countIps,
  NetworkDb.listVmIpAssignments, h.pricings, h.disks, h.ips, hcpu, hmem, hdisk, hkind, hif, hpricing]

end Cost

namespace UpgradeConfig

variable (cfg : UpgradeConfig) (t : VmCustomTemplate)

theorem apply_of_reached {cfg : UpgradeConfig} {t : VmCustomTemplate} (h : cfg.reached t = true) : cfg.apply t = t := by
 simp only [reached, decide_eq_true_eq] at h
 unfold apply
 rw [← h.1, ← h.2.1, ← h.2.2]

theorem reached_apply : cfg.reached (cfg.apply t) = true := by
 rcases cfg with ⟨_ | _, _ | _, _ | _⟩ <;> simp [reached, apply]

theorem noDowngrade_apply : cfg.noDowngrade (cfg.apply t) = true := by
 rcases cfg with ⟨_ | _, _ | _, _ | _⟩ <;> simp [noDowngrade, apply]

theorem specs_upgraded (pricing : VmCustomPricing) :
  (cfg.upgraded pricing t).specs = ((cfg.apply t).specs.1, (t.diskType, t.diskInterface), pricing.id) := rfl

end UpgradeConfig

section Writes

variable (text : IpText) (u : CustomDb) (vm : Vm) (t : VmCustomTemplate) (item : SubscriptionLineItem)
 (subscription : Subscription) (price : PricingData)

def inserted : CustomDb := (u.insertCustomVmTemplate t).2

def assigned : CustomDb := { inserted u t with
 db := u.db.updateVm { vm with templateId := none, customTemplateId := some u.nextTemplateId } }

def billedMonthly : CustomDb := { assigned u vm t with
 db := (assigned u vm t).db.updateSubscription { subscription with intervalAmount := 1, intervalType := .month } }

def converted : CustomDb := { billedMonthly u vm t subscription with
 db := (billedMonthly u vm t subscription).db.updateSubscriptionLineItem
  { item with subscriptionType := .vps, amount := price.total } }

def repriced : CustomDb := { u.updateCustomVmTemplate t with
 db := u.db.updateSubscriptionLineItem { item with amount := price.total } }

variable {text u vm t item subscription price} {vmId : Nat} {cfg : UpgradeConfig} {limit : Option Nat}

theorem writes_of_succ {k : Nat} (h : writes limit (k + 1) = true) : writes limit k = true := by
 cases limit with
 | none => rfl
 | some n =>
  simp only [writes, all_some, decide_eq_true_eq] at h ⊢
  omega

variable {t' : VmCustomTemplate}

theorem getCustomVmTemplate_update {id : Nat} (ht : u.getCustomVmTemplate id = some t)
  (hid : t'.id = t.id) (hlimit : t'.firewallRuleLimit = t.firewallRuleLimit) :
  (u.updateCustomVmTemplate t').getCustomVmTemplate id = some t' := by
 unfold CustomDb.getCustomVmTemplate CustomDb.updateCustomVmTemplate at *
 rw [lookup_updateWhere, ht, map_some, if_pos (by simp [hid])]
 · rw [← hlimit]
 · intro r hr
   exact (of_decide_eq_true hr).symm

theorem updateTemplate_standard (hvm : u.db.getVm vmId = some vm) (hcustom : vm.customTemplateId = none)
  (ht : VmProvisioner.createUpgradeTemplate u vm cfg = some t)
  (hitem : u.db.getSubscriptionLineItem vm.subscriptionLineItemId = some item)
  (hsub : u.db.getSubscription item.subscriptionId = some subscription) :
  updateTemplate text u vmId cfg limit =
   if !writes limit 0 then (false, u)
   else if !writes limit 1 then (false, inserted u t)
   else if !writes limit 2 then (false, assigned u vm t)
   else
    match getCustomVmCostAmount text u vmId t with
    | none => (false, billedMonthly u vm t subscription)
    | some price =>
     if !writes limit 3 then (false, billedMonthly u vm t subscription)
     else (true, converted u vm t item subscription price) := by
 obtain rfl : vm.id = vmId := key_of_lookup hvm
 have hcost : getCustomVmCostAmount text (billedMonthly u vm t subscription) vm.id t =
   getCustomVmCostAmount text u vm.id t := getCustomVmCostAmount_congr ⟨rfl, rfl, rfl⟩ rfl
 have hdb : (u.insertCustomVmTemplate t).2.db = u.db := rfl
 have hitem' row : (u.db.updateVm row).getSubscriptionLineItem vm.subscriptionLineItemId = some item := hitem
 have hsub' row : (u.db.updateVm row).getSubscription item.subscriptionId = some subscription := hsub
 simp only [updateTemplate, VmProvisioner.convertToCustomTemplate, hvm, hcustom, ht, hdb, hitem', hsub', ← hcost]
 rfl

theorem updateTemplate_refused (hvm : u.db.getVm vmId = some vm) (hcustom : vm.customTemplateId = none)
  (ht : VmProvisioner.createUpgradeTemplate u vm cfg = none) : updateTemplate text u vmId cfg limit = (false, u) := by
 simp [updateTemplate, hvm, hcustom, VmProvisioner.convertToCustomTemplate, ht]

variable {customTemplateId : Nat}

theorem updateTemplate_custom (hvm : u.db.getVm vmId = some vm)
  (hcustom : vm.customTemplateId = some customTemplateId)
  (ht : u.getCustomVmTemplate customTemplateId = some t)
  (hitem : u.db.getSubscriptionLineItem vm.subscriptionLineItemId = some item) :
  updateTemplate text u vmId cfg limit =
   if !cfg.noDowngrade t then (false, u)
   else if cfg.reached t then (true, u)
   else if !writes limit 0 then (false, u)
   else
    match getCustomVmCostAmount text u vmId (cfg.apply t) with
    | none => (false, u.updateCustomVmTemplate (cfg.apply t))
    | some price =>
     if !writes limit 1 then (false, u.updateCustomVmTemplate (cfg.apply t))
     else (true, repriced u (cfg.apply t) item price) := by
 have hid : t.id = customTemplateId := key_of_lookup ht
 have hread : (u.updateCustomVmTemplate (cfg.apply t)).getCustomVmTemplate customTemplateId = some (cfg.apply t) :=
  getCustomVmTemplate_update ht rfl rfl
 have hcost : getCustomVmCostAmount text (u.updateCustomVmTemplate (cfg.apply t)) vmId (cfg.apply t) =
   getCustomVmCostAmount text u vmId (cfg.apply t) := getCustomVmCostAmount_congr ⟨rfl, rfl, rfl⟩ rfl
 have hvm' : (u.updateCustomVmTemplate (cfg.apply t)).db.getVm vmId = some vm := hvm
 have hitem' : (u.updateCustomVmTemplate (cfg.apply t)).db.getSubscriptionLineItem vm.subscriptionLineItemId =
  some item := hitem
 simp only [updateTemplate, VmProvisioner.updateLineItemCostForCustomVm, hvm, hvm', hcustom, ht, bind_some,
  hread, hcost, hitem']
 cases getCustomVmCostAmount text u vmId (cfg.apply t) with
 | none => rfl
 | some price => cases writes limit 1 <;> rfl

theorem getSubscriptionLineItem_update {db : Db} {id : Nat} {item' : SubscriptionLineItem}
  (h : db.getSubscriptionLineItem id = some item) (hid : item'.id = item.id) :
  (db.updateSubscriptionLineItem item').getSubscriptionLineItem id = some item' := by
 unfold Db.getSubscriptionLineItem Db.updateSubscriptionLineItem at *
 rw [lookup_updateWhere, h, map_some, if_pos (by simp [hid])]
 intro r hr
 exact (of_decide_eq_true hr).symm

theorem getVm_assigned (hvm : u.db.getVm vmId = some vm) : (assigned u vm t).db.getVm vmId =
  some { vm with templateId := none, customTemplateId := some u.nextTemplateId } := by
 change lookup (·.id) vmId (updateWhere _ _ u.db.vms) = _
 rw [lookup_updateWhere, show lookup (·.id) vmId u.db.vms = some vm from hvm, map_some, if_pos (by simp)]
 intro _ _
 rfl

theorem vmCustomTemplate_assigned (hu : u.WellFormed) (hvm : u.db.getVm vmId = some vm) :
  (assigned u vm t).vmCustomTemplate vmId =
   some { t with id := u.nextTemplateId, firewallRuleLimit := none } := by
 have hold : lookup (·.id) u.nextTemplateId u.customTemplates = none :=
  lookup_eq_none.mpr fun r hr => (hu.fresh r hr).ne
 unfold CustomDb.vmCustomTemplate
 rw [getVm_assigned hvm, bind_eq_bind, bind_some, bind_eq_bind, bind_some]
 unfold CustomDb.getCustomVmTemplate lookup assigned inserted CustomDb.insertCustomVmTemplate at *
 simp [List.find?_append, hold]

theorem vmLineItem_assigned (hvm : u.db.getVm vmId = some vm)
  (hitem : u.db.getSubscriptionLineItem vm.subscriptionLineItemId = some item) :
  (assigned u vm t).vmLineItem vmId = some item := by
 unfold CustomDb.vmLineItem
 rw [getVm_assigned hvm, bind_eq_bind, bind_some]
 exact hitem

theorem vmLineItem_converted (hvm : u.db.getVm vmId = some vm)
  (hitem : u.db.getSubscriptionLineItem vm.subscriptionLineItemId = some item) :
  (converted u vm t item subscription price).vmLineItem vmId =
   some { item with subscriptionType := .vps, amount := price.total } := by
 unfold CustomDb.vmLineItem
 rw [show (converted u vm t item subscription price).db.getVm vmId = _ from getVm_assigned (t := t) hvm,
  bind_eq_bind, bind_some]
 exact getSubscriptionLineItem_update hitem rfl

theorem vmCustomTemplate_update (hvm : u.db.getVm vmId = some vm)
  (hcustom : vm.customTemplateId = some customTemplateId) (ht : u.getCustomVmTemplate customTemplateId = some t)
  (hid : t'.id = t.id) (hlimit : t'.firewallRuleLimit = t.firewallRuleLimit) :
  (u.updateCustomVmTemplate t').vmCustomTemplate vmId = some t' := by
 unfold CustomDb.vmCustomTemplate
 rw [show (u.updateCustomVmTemplate t').db.getVm vmId = some vm from hvm, bind_eq_bind, bind_some,
  hcustom, bind_eq_bind, bind_some]
 exact getCustomVmTemplate_update ht hid hlimit

theorem vmLineItem_repriced (hvm : u.db.getVm vmId = some vm)
  (hitem : u.db.getSubscriptionLineItem vm.subscriptionLineItemId = some item) :
  (repriced u t item price).vmLineItem vmId = some { item with amount := price.total } := by
 unfold CustomDb.vmLineItem
 rw [show (repriced u t item price).db.getVm vmId = some vm from hvm, bind_eq_bind, bind_some]
 exact getSubscriptionLineItem_update hitem rfl

end Writes

def appliedAsQuoted (u : CustomDb) (vmId : Nat) (cfg : UpgradeConfig) : Bool :=
 let (ok, v) := updateTemplate text u vmId cfg none
 ok && (PricingEngine.createUpgradeTemplate u vmId cfg).any fun quoted =>
  (v.vmCustomTemplate vmId).any (fun t => t.specs = quoted.specs) &&
   (getCustomVmCostAmount text u vmId quoted).any fun price =>
    (v.vmLineItem vmId).any fun item => item.amount = price.total

def billedAt (u : CustomDb) (vmId : Nat) (t : VmCustomTemplate) : Bool :=
 (getCustomVmCostAmount text u vmId t).any fun price =>
  (u.vmLineItem vmId).any fun item => item.amount = price.total

def quotedAlike (u : CustomDb) (cfg : UpgradeConfig) (template : VmTemplate) (t : VmCustomTemplate) : Bool :=
 (PricingEngine.findCustomPricing u template).any fun pricing =>
  (cfg.upgraded pricing template.base).specs = (cfg.apply t).specs

def quoteApplies (u : CustomDb) (vmId : Nat) (cfg : UpgradeConfig) : Bool :=
 (u.db.getVm vmId).any fun vm =>
  match vm.customTemplateId with
  | none => (vm.templateId.bind u.db.getVmTemplate).any fun template =>
    cfg.noDowngrade template.base &&
     (VmProvisioner.compatiblePricing u template).any (PricingEngine.suitsCpu template)
  | some id => (u.getCustomVmTemplate id).any fun t =>
    cfg.noDowngrade t && (!cfg.reached t || billedAt text u vmId t) &&
     (vm.templateId.bind u.db.getVmTemplate).all fun template => quotedAlike u cfg template t

section Applied

variable {text : IpText} {mk : Market} {qm : PricingEngine.QuoteMath} {u : CustomDb} {now : Int} {vmId : Nat}
 {cfg : UpgradeConfig} {method : PaymentMethod} {vm : Vm} {template : VmTemplate} {pricing : VmCustomPricing}

theorem quote_spec (h : (PricingEngine.calculateVmUpgradeCost text mk qm u now vmId cfg method).isSome = true) :
    ∃ quoted price, PricingEngine.createUpgradeTemplate u vmId cfg = some quoted ∧
      getCustomVmCostAmount text u vmId quoted = some price := by
  obtain ⟨q, h⟩ := isSome_iff_exists.mp h
  obtain ⟨vm, -, h⟩ := bind_eq_some_iff.mp h
  obtain ⟨expires, -, h⟩ := bind_eq_some_iff.mp h
  split at h
  · cases h
  obtain ⟨⟨c, cost, seconds⟩, -, h⟩ := bind_eq_some_iff.mp h
  obtain ⟨quoted, hquoted, h⟩ := bind_eq_some_iff.mp h
  split at h
  · cases h
  obtain ⟨price, hprice, -⟩ := bind_eq_some_iff.mp h
  exact ⟨quoted, price, hquoted, hprice⟩

variable {quoted t : VmCustomTemplate} {price : PricingData}

theorem applied_iff {ok : Bool} {v : CustomDb}
  {item : SubscriptionLineItem} (hrun : updateTemplate text u vmId cfg none = (ok, v))
  (hquoted : PricingEngine.createUpgradeTemplate u vmId cfg = some quoted)
  (hprice : getCustomVmCostAmount text u vmId quoted = some price) (ht : v.vmCustomTemplate vmId = some t)
  (hitem : v.vmLineItem vmId = some item) :
  appliedAsQuoted text u vmId cfg = true ↔ ok = true ∧ t.specs = quoted.specs ∧ item.amount = price.total := by
 simp [appliedAsQuoted, hrun, hquoted, hprice, ht, hitem]

theorem findCustomPricing_of_compatible (h : VmProvisioner.compatiblePricing u template = some pricing)
  (hcpu : PricingEngine.suitsCpu template pricing = true) :
  PricingEngine.findCustomPricing u template = some pricing := by
 unfold VmProvisioner.compatiblePricing at h
 unfold PricingEngine.findCustomPricing
 rw [List.find?_eq_some_iff_append] at h ⊢
 obtain ⟨hp, before, after, hlist, hbefore⟩ := h
 rw [Bool.and_eq_true] at hp
 refine ⟨by simp [hp.1, hp.2, hcpu], before, after, hlist, ?_⟩
 intro p hmem
 have hnot := hbefore p hmem
 simp only [Bool.not_eq_true', Bool.and_eq_false_iff] at hnot ⊢
 tauto

theorem suitsCpu_of_same_id (hu : u.WellFormed) {p : VmCustomPricing}
  (hfind : PricingEngine.findCustomPricing u template = some pricing)
  (hcompat : VmProvisioner.compatiblePricing u template = some p) (hid : p.id = pricing.id) :
  PricingEngine.suitsCpu template p = true := by
 have hmem := List.mem_of_find?_eq_some hfind
 have hmem' := List.mem_of_find?_eq_some hcompat
 unfold CustomDb.listCustomPricing at hmem hmem'
 rw [hu.pricings.eq_of_key (List.mem_of_mem_filter hmem') (List.mem_of_mem_filter hmem) hid]
 have hp := List.find?_some hfind
 rw [Bool.and_eq_true, Bool.and_eq_true] at hp
 exact hp.1.2

theorem applied_iff_of_standard (hu : u.WellFormed) (hvm : u.db.getVm vmId = some vm)
  (hcustom : vm.customTemplateId = none)
  (hquoted : PricingEngine.createUpgradeTemplate u vmId cfg = some quoted)
  (hprice : getCustomVmCostAmount text u vmId quoted = some price) :
  appliedAsQuoted text u vmId cfg = true ↔ quoteApplies text u vmId cfg = true := by
 obtain ⟨item, hitem⟩ := isSome_iff_exists.mp (hu.lineItems vm (mem_of_lookup hvm))
 obtain ⟨subscription, hsub⟩ := isSome_iff_exists.mp (hu.subscriptions item (mem_of_lookup hitem))
 obtain ⟨id, htid⟩ : ∃ id, vm.templateId = some id := by
  cases htid : vm.templateId with
  | none => simp [PricingEngine.createUpgradeTemplate, hvm, htid, hcustom] at hquoted
  | some id => exact ⟨id, rfl⟩
 simp only [PricingEngine.createUpgradeTemplate, hvm, htid, bind_eq_bind, bind_some] at hquoted
 obtain ⟨template, htemplate, hquoted⟩ := bind_eq_some_iff.mp hquoted
 obtain ⟨pricing, hpricing, hquoted⟩ := bind_eq_some_iff.mp hquoted
 cases hquoted
 have happlies : quoteApplies text u vmId cfg = (cfg.noDowngrade template.base &&
   (VmProvisioner.compatiblePricing u template).any (PricingEngine.suitsCpu template)) := by
  simp [quoteApplies, hvm, hcustom, htid, htemplate]
 have hengine : PricingEngine.createUpgradeTemplate u vmId cfg = some (cfg.upgraded pricing template.base) := by
  simp [PricingEngine.createUpgradeTemplate, hvm, htid, htemplate, hpricing]
 have hcreate : VmProvisioner.createUpgradeTemplate u vm cfg =
   (VmProvisioner.compatiblePricing u template).bind fun p =>
    if cfg.noDowngrade template.base then some (cfg.upgraded p template.base) else none := by
  simp [VmProvisioner.createUpgradeTemplate, htid, htemplate]
 rw [happlies]
 rcases hcompat : VmProvisioner.compatiblePricing u template with _ | p
 · rw [hcompat, bind_none] at hcreate
   simp [appliedAsQuoted, updateTemplate_refused hvm hcustom hcreate]
 by_cases hdown : cfg.noDowngrade template.base = true
 swap
 · rw [hcompat, bind_some, if_neg hdown] at hcreate
   simp [appliedAsQuoted, updateTemplate_refused hvm hcustom hcreate, hdown]
 rw [hcompat, bind_some, if_pos hdown] at hcreate
 rw [hdown, Bool.true_and, any_some]
 have hrun : updateTemplate text u vmId cfg none = _ := updateTemplate_standard hvm hcustom hcreate hitem hsub
 constructor
 · intro h
   rcases hcost : getCustomVmCostAmount text u vmId (cfg.upgraded p template.base) with _ | price'
   · rw [hcost] at hrun
     rw [appliedAsQuoted, hrun] at h
     cases h
   rw [hcost] at hrun
   rw [applied_iff hrun hengine hprice (vmCustomTemplate_assigned hu hvm) (vmLineItem_converted hvm hitem)] at h
   have hid := congrArg (fun s => s.2.2) h.2.1
   exact suitsCpu_of_same_id hu hpricing hcompat hid
 · intro hcpu
   cases hpricing.symm.trans (findCustomPricing_of_compatible hcompat hcpu)
   rw [hprice] at hrun
   rw [applied_iff hrun hengine hprice (vmCustomTemplate_assigned hu hvm) (vmLineItem_converted hvm hitem)]
   exact ⟨rfl, rfl, rfl⟩

theorem quotedAlike_iff (hvm : u.db.getVm vmId = some vm) {id : Nat} (hcustom : vm.customTemplateId = some id)
  (ht : u.getCustomVmTemplate id = some t)
  (hquoted : PricingEngine.createUpgradeTemplate u vmId cfg = some quoted) :
  ((vm.templateId.bind u.db.getVmTemplate).all fun template => quotedAlike u cfg template t) = true ↔
   (cfg.apply t).specs = quoted.specs := by
 rcases htid : vm.templateId with _ | tid
 · simp only [PricingEngine.createUpgradeTemplate, hvm, htid, hcustom, ht, bind_eq_bind,
    bind_some] at hquoted
   obtain ⟨pricing, hpricing, hquoted⟩ := bind_eq_some_iff.mp hquoted
   cases hquoted
   have hid : pricing.id = t.pricingId := key_of_lookup hpricing
   simp only [bind_none, all_none, true_iff]
   rw [UpgradeConfig.specs_upgraded, hid]
   rfl
 · simp only [PricingEngine.createUpgradeTemplate, hvm, htid, bind_eq_bind, bind_some] at hquoted
   obtain ⟨template, htemplate, hquoted⟩ := bind_eq_some_iff.mp hquoted
   obtain ⟨pricing, hpricing, hquoted⟩ := bind_eq_some_iff.mp hquoted
   cases hquoted
   simp [htemplate, quotedAlike, hpricing, eq_comm]

theorem applied_iff_of_custom (hu : u.WellFormed) (hvm : u.db.getVm vmId = some vm) {id : Nat}
  (hcustom : vm.customTemplateId = some id)
  (hquoted : PricingEngine.createUpgradeTemplate u vmId cfg = some quoted)
  (hprice : getCustomVmCostAmount text u vmId quoted = some price) :
  appliedAsQuoted text u vmId cfg = true ↔ quoteApplies text u vmId cfg = true := by
 obtain ⟨item, hitem⟩ := isSome_iff_exists.mp (hu.lineItems vm (mem_of_lookup hvm))
 rcases ht : u.getCustomVmTemplate id with _ | t
 · simp [appliedAsQuoted, updateTemplate, quoteApplies, hvm, hcustom, ht]
 have hline : u.vmLineItem vmId = some item := by simp [CustomDb.vmLineItem, hvm, hitem]
 have htemplate : u.vmCustomTemplate vmId = some t := by simp [CustomDb.vmCustomTemplate, hvm, hcustom, ht]
 have hspecs := quotedAlike_iff hvm hcustom ht hquoted
 have happlies : quoteApplies text u vmId cfg = true ↔ cfg.noDowngrade t = true ∧
   (cfg.reached t = false ∨ billedAt text u vmId t = true) ∧ (cfg.apply t).specs = quoted.specs := by
  rw [← hspecs]
  simp [quoteApplies, hvm, hcustom, ht, and_assoc]
 have hrun : updateTemplate text u vmId cfg none = _ := updateTemplate_custom hvm hcustom ht hitem
 rw [happlies]
 by_cases hdown : cfg.noDowngrade t = true
 swap
 · simp [appliedAsQuoted, hrun, hdown]
 rw [hdown, Bool.not_true, if_neg (by simp)] at hrun
 by_cases hreached : cfg.reached t = true
 · rw [if_pos hreached] at hrun
   rw [applied_iff hrun hquoted hprice htemplate hline, UpgradeConfig.apply_of_reached hreached]
   have hcost (hs : t.specs = quoted.specs) : getCustomVmCostAmount text u vmId t = some price := by
    rw [← hprice]
    exact getCustomVmCostAmount_congr ⟨rfl, rfl, rfl⟩ hs
   have hbilled (hs : t.specs = quoted.specs) : billedAt text u vmId t = true ↔ item.amount = price.total := by
    simp [billedAt, hcost hs, hline]
   constructor
   · rintro ⟨-, hs, hamount⟩
     exact ⟨hdown, .inr ((hbilled hs).mpr hamount), hs⟩
   · rintro ⟨-, hbill, hs⟩
     exact ⟨rfl, hs, (hbilled hs).mp (hbill.resolve_left (by simp [hreached]))⟩
 · rw [if_neg hreached] at hrun
   have hread : (u.updateCustomVmTemplate (cfg.apply t)).vmCustomTemplate vmId = some (cfg.apply t) :=
    vmCustomTemplate_update hvm hcustom ht rfl rfl
   have hstep : ∀ price', getCustomVmCostAmount text u vmId (cfg.apply t) = some price' →
     (appliedAsQuoted text u vmId cfg = true ↔
      (cfg.apply t).specs = quoted.specs ∧ price'.total = price.total) := by
    intro price' hprice'
    rw [hprice'] at hrun
    rw [applied_iff hrun hquoted hprice hread (vmLineItem_repriced hvm hitem)]
    simp
   constructor
   · intro h
     rcases hcost : getCustomVmCostAmount text u vmId (cfg.apply t) with _ | price'
     · rw [hcost] at hrun
       rw [appliedAsQuoted, hrun] at h
       cases h
     · exact ⟨hdown, .inl (by simpa using hreached), ((hstep price' hcost).mp h).1⟩
   · rintro ⟨-, -, hs⟩
     refine (hstep price ?_).mpr ⟨hs, rfl⟩
     rw [← hprice]
     exact getCustomVmCostAmount_congr ⟨rfl, rfl, rfl⟩ hs

end Applied

/-- A quoted upgrade is applied as quoted exactly under `quoteApplies`. -/
theorem upgrade_applied_iff {text : IpText} {mk : Market} {qm : PricingEngine.QuoteMath} {u : CustomDb} {now : Int}
    {vmId : Nat} {cfg : UpgradeConfig} {method : PaymentMethod} (hu : u.WellFormed)
    (hquote : (PricingEngine.calculateVmUpgradeCost text mk qm u now vmId cfg method).isSome = true) :
    appliedAsQuoted text u vmId cfg = true ↔ quoteApplies text u vmId cfg = true := by
  obtain ⟨quoted, price, hquoted, hprice⟩ := quote_spec hquote
  obtain ⟨vm, hvm, -⟩ := Option.bind_eq_some_iff.mp hquoted
  rcases hcustom : vm.customTemplateId with _ | id
  · exact applied_iff_of_standard hu hvm hcustom hquoted hprice
  · exact applied_iff_of_custom hu hvm hcustom hquoted hprice

def twoPriceLists (arch : CpuArch) : CustomDb where
 db := {
  subscriptions := [{ id := 1, expires := some (30 * day), isActive := true, isSetup := true, intervalType := .year }]
  lineItems := [{ id := 1, subscriptionId := 1, subscriptionType := .vps, amount := 1000 }]
  vms := [{ id := 1, hostId := 1, templateId := some 1, subscriptionLineItemId := 1 }]
  hosts := [{ id := 1 }]
  templates := [{
   id := 1, costPlanId := 1, cpu := 2, cpuArch := .x86_64, memory := 2 * gb, diskSize := 40 * gb, diskType := .ssd }]
  costPlans := [{ id := 1, amount := 1000, intervalType := .year }] }
 customPricings := [
  { id := 1, cpuArch := arch, cpuCost := 100, memoryCost := 50, maxCpu := 16, maxMemory := 64 * gb },
  { id := 2, cpuArch := .x86_64, cpuCost := 200, memoryCost := 100, maxCpu := 16, maxMemory := 64 * gb }]
 customPricingDisks := [
  { pricingId := 1, kind := .ssd, interface := .sata, cost := 1, maxDiskSize := 1000 * gb },
  { pricingId := 2, kind := .ssd, interface := .sata, cost := 2, maxDiskSize := 1000 * gb }]

theorem twoPriceLists_wellFormed (arch : CpuArch) : (twoPriceLists arch).WellFormed where
 fresh := by simp [twoPriceLists]
 pricings := by simp [twoPriceLists, Keyed]
 lineItems := by simp [twoPriceLists, Db.getSubscriptionLineItem, lookup]
 subscriptions := by simp [twoPriceLists, Db.getSubscription, lookup]

def exactMath : PricingEngine.QuoteMath where
 prorate cost interval seconds := cost * seconds / interval
 subtract a b := if b ≤ a then some (a - b) else none

/-- Four cores from a price list that suits the CPU. -/
theorem upgrade_applied_x86 :
    (PricingEngine.calculateVmUpgradeCost Provisioning.plainText flatMarket exactMath (twoPriceLists .x86_64) 0 1
        { newCpu := some 4 } .lightning).isSome = true ∧
      appliedAsQuoted Provisioning.plainText (twoPriceLists .x86_64) 1 { newCpu := some 4 } = true := by
  have hquote : (PricingEngine.calculateVmUpgradeCost Provisioning.plainText flatMarket exactMath
      (twoPriceLists .x86_64) 0 1 { newCpu := some 4 } .lightning).isSome = true := by decide +kernel
  exact ⟨hquote, (upgrade_applied_iff (twoPriceLists_wellFormed _) hquote).mpr (by decide +kernel)⟩

/-- Four cores where the first price list is for another architecture: the VM is quoted at the second one and gets the
first one. -/
theorem upgrade_applies_other_pricing :
    ¬ ∀ (text : IpText) (mk : Market) (qm : PricingEngine.QuoteMath) (u : CustomDb) (now : Int) (vmId : Nat)
      (cfg : UpgradeConfig) (method : PaymentMethod), u.WellFormed →
        (PricingEngine.calculateVmUpgradeCost text mk qm u now vmId cfg method).isSome = true →
          appliedAsQuoted text u vmId cfg = true := by
  intro h
  have happlied := h Provisioning.plainText flatMarket exactMath (twoPriceLists .arm64) 0 1 { newCpu := some 4 }
    .lightning (twoPriceLists_wellFormed _) (by decide +kernel)
  exact absurd happlied (by decide +kernel)

end Lnvps
