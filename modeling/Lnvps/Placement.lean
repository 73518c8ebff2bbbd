import Lnvps.Capacity
import Lnvps.Lib.Outcome

/-! # The placement of VMs -/

namespace Lnvps

open Table Net Outcome List Option CapacityDb

structure User where
 id : Nat

structure VmOsImage where
 id : Nat
 enabled : Bool := true
 cpuArch : CpuArch := .unknown

structure UserSshKey where
 (id userId : Nat)

structure PlacementDb extends CapacityDb where
 users : List User := []
 osImages : List VmOsImage := []
 sshKeys : List UserSshKey := []
 (nextVmId nextSubscriptionId nextLineItemId : Nat := 1)

inductive VmOrder
 | standard (templateId : Nat)
 | custom (template : VmCustomTemplate)

structure VmRequest where
 userId : Nat
 order : VmOrder
 (imageId sshKeyId : Nat)
 refCode : Option String := none

inductive ProvisionError
 | rowNotFound
 | bail (message : String)
 | invalidSpec
 | capacity (e : CapacityDb.PlacementError)
 | pricing

namespace PlacementDb

variable (p : PlacementDb)

def getUser (id : Nat) : Option User := lookup (·.id) id p.users

def getOsImage (id : Nat) : Option VmOsImage := lookup (·.id) id p.osImages

def getUserSshKey (id : Nat) : Option UserSshKey := lookup (·.id) id p.sshKeys

def insertSubscriptionWithLineItems (subscription : Subscription) (lineItem : SubscriptionLineItem) :
  Nat × PlacementDb :=
 (p.nextLineItemId, { p with
  db := { p.db with
   subscriptions := p.db.subscriptions ++ [{ subscription with id := p.nextSubscriptionId }]
   lineItems := p.db.lineItems ++
    [{ lineItem with id := p.nextLineItemId, subscriptionId := p.nextSubscriptionId }] }
  nextSubscriptionId := p.nextSubscriptionId + 1
  nextLineItemId := p.nextLineItemId + 1 })

def insertVm (vm : Vm) : Nat × PlacementDb :=
 (p.nextVmId, { p with
  db := { p.db with vms := p.db.vms ++ [{ vm with id := p.nextVmId }] }
  nextVmId := p.nextVmId + 1 })

end PlacementDb

structure Offer where
 what : String
 enabled : Bool
 expires : Option Int
 cpuArch : CpuArch

def VmTemplate.offer (t : VmTemplate) : Offer where
 what := "template"
 enabled := t.enabled
 expires := t.expires
 cpuArch := t.cpuArch

def VmCustomPricing.offer (pricing : VmCustomPricing) (template : VmCustomTemplate) : Offer where
 what := "custom pricing"
 enabled := pricing.enabled
 expires := pricing.expires
 cpuArch := template.cpuArch

def CpuArch.text : CpuArch → String
 | .unknown => "unknown"
 | .x86_64 => "x86_64"
 | .arm64 => "arm64"

def ensureImageArchCompatible (imageArch templateArch : CpuArch) : Except ProvisionError Unit :=
 ensure (imageArch = .unknown ∨ templateArch = .unknown ∨ imageArch = templateArch)
  (.bail ("OS image architecture (" ++ imageArch.text ++ ") is not compatible with the template architecture (" ++
   templateArch.text ++ ")"))

namespace PlacementDb

variable (p : PlacementDb)

def checkOrder (now : Int) (req : VmRequest) (offer : Option Offer) : Except ProvisionError Unit := do
 let user ← ofOption .rowNotFound (p.getUser req.userId)
 let offer ← ofOption .rowNotFound offer
 let image ← ofOption .rowNotFound (p.getOsImage req.imageId)
 let sshKey ← ofOption .rowNotFound (p.getUserSshKey req.sshKeyId)
 ensure (sshKey.userId = user.id) (.bail "SSH key does not belong to this user")
 ensure offer.enabled (.bail ("Cant create VM from disabled " ++ offer.what))
 ensure (!offer.expires.any (· < now)) (.bail ("Cant create VM from expired " ++ offer.what))
 ensure image.enabled (.bail "Cant create VM from disabled os image")
 ensureImageArchCompatible image.cpuArch offer.cpuArch

def pick (m : LoadMath) (p : PlacementDb) (regionId : Nat) (spec : VmSpec) :
  Except ProvisionError (HostCapacity × DiskCapacity) := do
 let host ← (p.getHostForTemplate m regionId spec).mapError .capacity
 let disk ← ofOption (.bail "No host disk found") host.disks.head?
 .ok (host, disk)

def insertOrder (subscription : Subscription) (amount : Nat) (vm : Vm) : Vm × PlacementDb :=
 let (lineItemId, p) := p.insertSubscriptionWithLineItems subscription
  { id := 0, subscriptionId := 0, subscriptionType := .vps, amount }
 let vm := { vm with subscriptionLineItemId := lineItemId }
 let (vmId, p) := p.insertVm vm
 ({ vm with id := vmId }, p)

def planTemplate (m : LoadMath) (p : PlacementDb) (now : Int) (req : VmRequest) (templateId : Nat) :
  Except ProvisionError (VmTemplate × (HostCapacity × DiskCapacity) × Region × VmCostPlan) := do
 p.checkOrder now req ((p.db.getVmTemplate templateId).map (·.offer))
 let template ← ofOption .rowNotFound (p.db.getVmTemplate templateId)
 let picked ← p.pick m template.regionId template.spec
 let region ← ofOption .rowNotFound (p.getHostRegion template.regionId)
 let costPlan ← ofOption .rowNotFound (p.db.getCostPlan template.costPlanId)
 .ok (template, picked, region, costPlan)

def provision (m : LoadMath) (p : PlacementDb) (now : Int) (req : VmRequest) (templateId : Nat) :
  Except ProvisionError Vm × PlacementDb :=
 match p.planTemplate m now req templateId with
 | .error e => (.error e, p)
 | .ok (template, (host, disk), region, costPlan) =>
  let (vm, p) := p.insertOrder
   { id := 0, userId := req.userId, companyId := region.companyId, created := now, currency := costPlan.currency,
     intervalAmount := costPlan.intervalAmount, intervalType := costPlan.intervalType, autoRenewalEnabled := true }
   costPlan.amount
   { id := 0, hostId := host.host.id, userId := req.userId, templateId := some template.id,
     subscriptionLineItemId := 0, diskId := disk.disk.id, refCode := req.refCode }
  (.ok vm, p)

def planCustom (m : LoadMath) (p : PlacementDb) (now : Int) (req : VmRequest) (template : VmCustomTemplate) :
  Except ProvisionError (VmCustomPricing × HostCapacity × DiskCapacity) := do
 p.checkOrder now req ((p.getCustomPricing template.pricingId).map (·.offer template))
 let pricing ← ofOption .rowNotFound (p.getCustomPricing template.pricingId)
 ensure (validateCustomVmSpec p.toCustomDb template) .invalidSpec
 let picked ← p.pick m pricing.regionId template.spec
 .ok (pricing, picked)

def insertCustomTemplate (template : VmCustomTemplate) : Nat × PlacementDb :=
 let (templateId, u) := p.insertCustomVmTemplate template
 (templateId, { p with customTemplates := u.customTemplates, nextTemplateId := u.nextTemplateId })

def writeCustom (text : IpText) (p : PlacementDb) (now : Int) (req : VmRequest) (template : VmCustomTemplate)
    (templateId : Nat) (pricing : VmCustomPricing) (region : Region) (host : HostCapacity) (disk : DiskCapacity) :
    Except ProvisionError Vm × PlacementDb :=
  let (vm, p) := p.insertOrder
    { id := 0, userId := req.userId, companyId := region.companyId, created := now,
      currency := pricing.currency.getD .eur, intervalAmount := 1, intervalType := .month, autoRenewalEnabled := true }
    0
    { id := 0, hostId := host.host.id, userId := req.userId, customTemplateId := some templateId,
      subscriptionLineItemId := 0, diskId := disk.disk.id, refCode := req.refCode }
  match getCustomVmCostAmount text p.toCustomDb vm.id template with
  | none => (.error .pricing, p)
  | some price => (.ok vm, { p with db := { p.db with
      lineItems := updateWhere (fun li => li.id = vm.subscriptionLineItemId)
        (fun li => { li with amount := price.total }) p.db.lineItems } })

def provisionCustom (m : LoadMath) (text : IpText) (p : PlacementDb) (now : Int) (req : VmRequest)
  (template : VmCustomTemplate) : Except ProvisionError Vm × PlacementDb :=
 match p.planCustom m now req template with
 | .error e => (.error e, p)
 | .ok (pricing, host, disk) =>
  let template := { template with limits := pricing.limits }
  let (templateId, p) := p.insertCustomTemplate template
  match p.getHostRegion pricing.regionId with
  | none => (.error .rowNotFound, p)
  | some region => p.writeCustom text now req template templateId pricing region host disk

def place (m : LoadMath) (text : IpText) (p : PlacementDb) (now : Int) (req : VmRequest) :
  Except ProvisionError Vm × PlacementDb :=
 match req.order with
 | .standard templateId => p.provision m now req templateId
 | .custom template => p.provisionCustom m text now req template

variable {m : LoadMath} {text : IpText} {p p' : PlacementDb} {now : Int} {req : VmRequest} {regionId : Nat}
 {spec : VmSpec} {cap : HostCapacity} {d : DiskCapacity} {vm : Vm}

def ordered : VmOrder → Option (Nat × VmSpec)
 | .standard templateId => (p.db.getVmTemplate templateId).map fun t => (t.regionId, t.spec)
 | .custom template => (p.getCustomPricing template.pricingId).map fun pricing => (pricing.regionId, template.spec)

def Passes (now : Int) (req : VmRequest) : Prop :=
 match req.order with
 | .standard templateId =>
  p.checkOrder now req ((p.db.getVmTemplate templateId).map (·.offer)) = .ok () ∧
   ∃ t, p.db.getVmTemplate templateId = some t ∧ (p.getHostRegion t.regionId).isSome = true ∧
    (p.db.getCostPlan t.costPlanId).isSome = true
 | .custom template =>
  p.checkOrder now req ((p.getCustomPricing template.pricingId).map (·.offer template)) = .ok () ∧
   validateCustomVmSpec p.toCustomDb template = true ∧
   ∃ pricing, p.getCustomPricing template.pricingId = some pricing ∧
    (p.getHostRegion pricing.regionId).isSome = true

def Picks (m : LoadMath) (p : PlacementDb) (req : VmRequest) (spec : VmSpec) (cap : HostCapacity) (d : DiskCapacity) :
  Prop :=
 ∃ regionId, p.ordered req.order = some (regionId, spec) ∧ p.getHostForTemplate m regionId spec = .ok cap ∧
  cap.disks.head? = some d

def picked (m : LoadMath) (p : PlacementDb) (req : VmRequest) : Option (VmSpec × HostCapacity × DiskCapacity) :=
 (p.ordered req.order).bind fun x => (p.getHostForTemplate m x.1 x.2).toOption.bind fun cap =>
  cap.disks.head?.map fun d => (x.2, cap, d)

theorem Picks.picked (h : p.Picks m req spec cap d) : p.picked m req = some (spec, cap, d) := by
 obtain ⟨regionId, hordered, hhost, hdisk⟩ := h
 simp [PlacementDb.picked, hordered, hhost, hdisk, Except.toOption]

structure Places (p p' : PlacementDb) (order : VmOrder) (cap : HostCapacity) (d : DiskCapacity) (vm : Vm) :
  Prop where
 vms : p'.db.vms = p.db.vms ++ [vm]
 host : vm.hostId = cap.host.id
 disk : vm.diskId = d.disk.id
 live : vm.deleted = false
 template : match order with
  | .standard templateId => vm.templateId = some templateId ∧ vm.customTemplateId = none
  | .custom template => vm.templateId = none ∧ vm.customTemplateId = some p.nextTemplateId ∧
   p'.nextTemplateId = p.nextTemplateId + 1 ∧
   ∃ row, row.id = p.nextTemplateId ∧ row.spec = template.spec ∧ p'.customTemplates = p.customTemplates ++ [row]

structure Frame (p p' : PlacementDb) (order : VmOrder) : Prop where
 templates : p'.db.templates = p.db.templates
 hosts : p'.db.hosts = p.db.hosts
 hostDisks : p'.hostDisks = p.hostDisks
 customTemplates : p'.customTemplates = p.customTemplates ∧ p'.nextTemplateId = p.nextTemplateId ∨
  ∃ template row, order = .custom template ∧ row.id = p.nextTemplateId ∧ row.spec = template.spec ∧
   p'.customTemplates = p.customTemplates ++ [row] ∧ p'.nextTemplateId = p.nextTemplateId + 1

theorem pick_eq_ok : p.pick m regionId spec = .ok (cap, d) ↔
  p.getHostForTemplate m regionId spec = .ok cap ∧ cap.disks.head? = some d := by
 unfold pick
 cases hhost : p.getHostForTemplate m regionId spec with
 | error e => simp [bind_eq_ok, Except.mapError]
 | ok host =>
  simp only [bind_eq_ok, Except.mapError, ofOption_eq_ok, Except.ok.injEq, Prod.mk.injEq]
  constructor
  · rintro ⟨_, rfl, _, hdisk, rfl, rfl⟩
    exact ⟨rfl, hdisk⟩
  · rintro ⟨rfl, hdisk⟩
    exact ⟨host, rfl, d, hdisk, rfl, rfl⟩

theorem planTemplate_eq_ok {templateId : Nat} {template : VmTemplate} {region : Region} {costPlan : VmCostPlan} :
  p.planTemplate m now req templateId = .ok (template, (cap, d), region, costPlan) ↔
   p.checkOrder now req ((p.db.getVmTemplate templateId).map (·.offer)) = .ok () ∧
    p.db.getVmTemplate templateId = some template ∧
    p.getHostForTemplate m template.regionId template.spec = .ok cap ∧
    cap.disks.head? = some d ∧ p.getHostRegion template.regionId = some region ∧
    p.db.getCostPlan template.costPlanId = some costPlan := by
 unfold planTemplate
 simp only [bind_eq_ok, ofOption_eq_ok, Except.ok.injEq, Prod.mk.injEq]
 constructor
 · rintro ⟨_, hcheck, _, htemplate, _, hpick, _, hregion, _, hplan, rfl, rfl, rfl, rfl⟩
   exact ⟨hcheck, htemplate, (pick_eq_ok.mp hpick).1, (pick_eq_ok.mp hpick).2, hregion, hplan⟩
 · rintro ⟨hcheck, htemplate, hhost, hdisk, hregion, hplan⟩
   exact ⟨(), hcheck, template, htemplate, (cap, d), pick_eq_ok.mpr ⟨hhost, hdisk⟩, region, hregion, costPlan, hplan,
    rfl, rfl, rfl, rfl⟩

variable {template : VmCustomTemplate}

theorem planCustom_eq_ok {pricing : VmCustomPricing} :
  p.planCustom m now req template = .ok (pricing, cap, d) ↔
   p.checkOrder now req ((p.getCustomPricing template.pricingId).map (·.offer template)) = .ok () ∧
    p.getCustomPricing template.pricingId = some pricing ∧ validateCustomVmSpec p.toCustomDb template = true ∧
    p.getHostForTemplate m pricing.regionId template.spec = .ok cap ∧ cap.disks.head? = some d := by
 unfold planCustom
 simp only [bind_eq_ok, ofOption_eq_ok, ensure_eq_ok, Except.ok.injEq, Prod.mk.injEq]
 constructor
 · rintro ⟨_, hcheck, _, hpricing, _, hvalid, _, hpick, rfl, rfl⟩
   exact ⟨hcheck, hpricing, hvalid, pick_eq_ok.mp hpick⟩
 · rintro ⟨hcheck, hpricing, hvalid, hpick⟩
   exact ⟨(), hcheck, pricing, hpricing, (), hvalid, (cap, d), pick_eq_ok.mpr hpick, rfl, rfl⟩

def Effect (m : LoadMath) (p p' : PlacementDb) (now : Int) (req : VmRequest) : Prop :=
 p.Passes now req ∧ ∃ spec cap d vm, p.Picks m req spec cap d ∧ Places p p' req.order cap d vm

theorem provision_effect {templateId : Nat} (horder : req.order = .standard templateId) :
  Frame p (p.provision m now req templateId).2 req.order ∧
   ((p.provision m now req templateId).2.db.vms = p.db.vms ∧
     ¬ (p.Passes now req ∧ ∃ spec cap d, p.Picks m req spec cap d) ∨
    Effect m p (p.provision m now req templateId).2 now req) := by
 unfold provision
 rcases hplan : p.planTemplate m now req templateId with e | ⟨template, ⟨cap, d⟩, region, costPlan⟩
 · refine ⟨⟨rfl, rfl, rfl, .inl ⟨rfl, rfl⟩⟩, .inl ⟨rfl, ?_⟩⟩
   rintro ⟨hpasses, spec, cap, d, regionId, hordered, hhost, hdisk⟩
   simp only [Passes, horder] at hpasses
   obtain ⟨hcheck, t, ht, hregion, hcost⟩ := hpasses
   obtain ⟨region, hregion⟩ := isSome_iff_exists.mp hregion
   obtain ⟨costPlan, hcost⟩ := isSome_iff_exists.mp hcost
   simp only [ordered, horder, ht, map_some, some.injEq, Prod.mk.injEq] at hordered
   obtain ⟨rfl, rfl⟩ := hordered
   rw [planTemplate_eq_ok.mpr ⟨hcheck, ht, hhost, hdisk, hregion, hcost⟩] at hplan
   cases hplan
 · obtain ⟨hcheck, ht, hhost, hdisk, hregion, hcost⟩ := planTemplate_eq_ok.mp hplan
   refine ⟨⟨rfl, rfl, rfl, .inl ⟨rfl, rfl⟩⟩,
    .inr ⟨?_, template.spec, cap, d, _, ⟨template.regionId, ?_, hhost, hdisk⟩, ⟨rfl, rfl, rfl, rfl, ?_⟩⟩⟩
   · simp only [Passes, horder]
     exact ⟨hcheck, template, ht, by simp [hregion], by simp [hcost]⟩
   · simp [ordered, horder, ht]
   · rw [horder]
     exact ⟨congrArg some (key_of_lookup ht), rfl⟩

theorem writeCustom_effect (text : IpText) (p : PlacementDb) (now : Int) (req : VmRequest) (template : VmCustomTemplate)
  (templateId : Nat) (pricing : VmCustomPricing) (region : Region) (host : HostCapacity) (disk : DiskCapacity) :
  let p' := (p.writeCustom text now req template templateId pricing region host disk).2
  p'.db.vms = p.db.vms ++ [{
    id := p.nextVmId, hostId := host.host.id, userId := req.userId, customTemplateId := some templateId,
    subscriptionLineItemId := p.nextLineItemId, diskId := disk.disk.id, refCode := req.refCode }] ∧
   p'.db.templates = p.db.templates ∧ p'.db.hosts = p.db.hosts ∧ p'.hostDisks = p.hostDisks ∧
   p'.customTemplates = p.customTemplates ∧ p'.nextTemplateId = p.nextTemplateId := by
 simp only [writeCustom]
 split <;> exact ⟨rfl, rfl, rfl, rfl, rfl, rfl⟩

theorem frame_of_insertCustomTemplate {limits : ResourceLimits}
  (horder : req.order = .custom template) (htemplates : p'.db.templates = p.db.templates)
  (hhosts : p'.db.hosts = p.db.hosts) (hdisks : p'.hostDisks = p.hostDisks)
  (hcustom : p'.customTemplates = (p.insertCustomTemplate { template with limits }).2.customTemplates ∧
   p'.nextTemplateId = p.nextTemplateId + 1) : Frame p p' req.order :=
 ⟨htemplates, hhosts, hdisks,
  .inr ⟨template, { template with id := p.nextTemplateId, limits, firewallRuleLimit := none },
   horder, rfl, rfl, hcustom⟩⟩

theorem provisionCustom_effect (horder : req.order = .custom template) :
  Frame p (p.provisionCustom m text now req template).2 req.order ∧
   ((p.provisionCustom m text now req template).2.db.vms = p.db.vms ∧
     ¬ (p.Passes now req ∧ ∃ spec cap d, p.Picks m req spec cap d) ∨
    Effect m p (p.provisionCustom m text now req template).2 now req) := by
 unfold provisionCustom
 rcases hplan : p.planCustom m now req template with e | ⟨pricing, cap, d⟩
 · refine ⟨⟨rfl, rfl, rfl, .inl ⟨rfl, rfl⟩⟩, .inl ⟨rfl, ?_⟩⟩
   rintro ⟨hpasses, spec, cap, d, regionId, hordered, hhost, hdisk⟩
   simp only [Passes, horder] at hpasses
   obtain ⟨hcheck, hvalid, pricing, hpricing, _⟩ := hpasses
   simp only [ordered, horder, hpricing, map_some, some.injEq, Prod.mk.injEq] at hordered
   obtain ⟨rfl, rfl⟩ := hordered
   rw [planCustom_eq_ok.mpr ⟨hcheck, hpricing, hvalid, hhost, hdisk⟩] at hplan
   cases hplan
 · obtain ⟨hcheck, hpricing, hvalid, hhost, hdisk⟩ := planCustom_eq_ok.mp hplan
   have hregion' : (p.insertCustomTemplate { template with limits := pricing.limits }).2.getHostRegion
     pricing.regionId = p.getHostRegion pricing.regionId := rfl
   simp only [hregion']
   cases hregion : p.getHostRegion pricing.regionId with
   | none =>
    refine ⟨frame_of_insertCustomTemplate horder rfl rfl rfl ⟨rfl, rfl⟩, .inl ⟨rfl, ?_⟩⟩
    rintro ⟨hpasses, _⟩
    simp only [Passes, horder] at hpasses
    obtain ⟨_, _, pricing', hpricing', hsome⟩ := hpasses
    rw [hpricing] at hpricing'
    cases hpricing'
    simp [hregion] at hsome
   | some region =>
    obtain ⟨hvms, htemplates, hhosts, hdisks, hcustom⟩ := writeCustom_effect text
     (p.insertCustomTemplate { template with limits := pricing.limits }).2 now req
     { template with limits := pricing.limits } p.nextTemplateId pricing region cap d
    refine ⟨frame_of_insertCustomTemplate horder htemplates hhosts hdisks hcustom,
     .inr ⟨?_, template.spec, cap, d, _, ⟨pricing.regionId, ?_, hhost, hdisk⟩, ⟨hvms, rfl, rfl, rfl, ?_⟩⟩⟩
    · simp only [Passes, horder]
      exact ⟨hcheck, hvalid, pricing, hpricing, by simp [hregion]⟩
    · simp [ordered, horder, hpricing]
    rw [horder]
    exact ⟨rfl, rfl, hcustom.2,
     { template with id := p.nextTemplateId, limits := pricing.limits, firewallRuleLimit := none },
     rfl, rfl, hcustom.1⟩

theorem place_effect (m : LoadMath) (text : IpText) (p : PlacementDb) (now : Int) (req : VmRequest) :
  Frame p (p.place m text now req).2 req.order ∧
  ((p.place m text now req).2.db.vms = p.db.vms ∧
    ¬ (p.Passes now req ∧ ∃ spec cap d, p.Picks m req spec cap d) ∨
   Effect m p (p.place m text now req).2 now req) := by
 rcases horder : req.order with templateId | template
 · have hplace : p.place m text now req = p.provision m now req templateId := by simp only [place, horder]
   rw [hplace, ← horder]
   exact provision_effect horder
 · have hplace : p.place m text now req = p.provisionCustom m text now req template := by simp only [place, horder]
   rw [hplace, ← horder]
   exact provisionCustom_effect horder

def HasRoom (c : CapacityDb) (m : LoadMath) (vm : Vm) (spec : VmSpec) : Prop :=
 ∃ host ∈ c.db.hosts, host.id = vm.hostId ∧ spec.cpu ≤ (c.getHostCapacity host none none).availableCpu m ∧
  spec.memory ≤ (c.getHostCapacity host none none).availableMemory m ∧
  ∃ d ∈ (c.getHostCapacity host none none).disks, d.disk.id = vm.diskId ∧ spec.diskSize ≤ d.availableCapacity m

theorem getHostForTemplate_host (h : p.getHostForTemplate m regionId spec = .ok cap) :
  cap.host ∈ p.db.hosts ∧ cap = p.getHostCapacity cap.host (some spec.diskType) (some spec.diskInterface) ∧
   cap.canAccommodate m spec = true := by
 obtain ⟨haccept, host, hmem, _, rfl⟩ := mem_hostsFor.mp (mem_of_pickHost h)
 exact ⟨mem_of_mem_filter hmem, rfl, haccept⟩

theorem Picks.disk_mem_cap (h : p.Picks m req spec cap d) : d ∈ cap.disks := by
 obtain ⟨_, _, _, hdisk⟩ := h
 exact mem_of_mem_head? hdisk

theorem Picks.disk_mem (h : p.Picks m req spec cap d) :
  d.disk ∈ (p.listHostDisks cap.host.id).filter
    (ofKind (some spec.diskType) (some spec.diskInterface)) ∧
   d ∈ (p.getHostCapacity cap.host none none).disks := by
 have hmem := h.disk_mem_cap
 obtain ⟨_, _, hhost, _⟩ := h
 rw [(getHostForTemplate_host hhost).2.1] at hmem
 obtain ⟨row, hrow, heq⟩ := mem_map.mp hmem
 refine ⟨?_, disks_subset hmem⟩
 rw [← heq]
 exact hrow

theorem Picks.loadFactor (h : p.Picks m req spec cap d) : d.loadFactor = cap.host.loadDisk := by
 obtain ⟨row, _, heq⟩ := mem_map.mp h.disk_mem.2
 rw [← heq]

theorem Picks.unique {spec' : VmSpec} {cap' : HostCapacity} {d' : DiskCapacity} (h : p.Picks m req spec cap d)
  (h' : p.Picks m req spec' cap' d') : spec = spec' ∧ cap = cap' ∧ d = d' := by
 have heq := h.picked.symm.trans h'.picked
 simpa using heq

theorem hasRoom_iff (hhosts : Keyed (·.id) p.db.hosts) (hdisks : Keyed (·.id) p.hostDisks)
  (hpick : p.Picks m req spec cap d) (hplaces : Places p p' req.order cap d vm) :
  HasRoom p.toCapacityDb m vm spec ↔ spec.diskSize ≤ d.availableCapacity m := by
 obtain ⟨regionId, _, hhost, _⟩ := id hpick
 obtain ⟨hmem, hcap, haccept⟩ := getHostForTemplate_host hhost
 constructor
 · rintro ⟨host, hhost', hid, _, _, d', hd', hdiskId, hroom⟩
   have heq : host = cap.host := hhosts.eq_of_key hhost' hmem (hid.trans hplaces.host)
   subst heq
   obtain ⟨row, hrow, rfl⟩ := mem_map.mp hd'
   obtain ⟨row', hrow', rfl⟩ := mem_map.mp hpick.disk_mem.2
   have hsame : row = row' := hdisks.eq_of_key (mem_of_mem_filter (mem_of_mem_filter hrow))
    (mem_of_mem_filter (mem_of_mem_filter hrow')) (hdiskId.trans hplaces.disk)
   rw [← hsame]
   exact hroom
 · intro hroom
   obtain ⟨_, hcpu, hmemory, _, _⟩ := canAccommodate_iff.mp haccept
   rw [hcap] at hcpu hmemory
   exact ⟨cap.host, hmem, hplaces.host.symm, hcpu, hmemory, d, hpick.disk_mem.2, hplaces.disk.symm, hroom⟩

/-- A VM is placed where it fits just if the first disk of the kind, on the host that is picked for the order, has room
for it. -/
theorem placed_vm_fits (m : LoadMath) (text : IpText) (p : PlacementDb) (now : Int) (req : VmRequest)
  (hhosts : Keyed (·.id) p.db.hosts) (hdisks : Keyed (·.id) p.hostDisks) :
  (∀ vm regionId spec, (p.place m text now req).2.db.vms = p.db.vms ++ [vm] →
    p.ordered req.order = some (regionId, spec) → HasRoom p.toCapacityDb m vm spec) ↔
   (p.Passes now req → ∀ spec cap d, p.Picks m req spec cap d → spec.diskSize ≤ d.availableCapacity m) := by
 rcases (place_effect m text p now req).2 with ⟨hvms, hnone⟩ | ⟨hpasses, spec, cap, d, vm, hpick, hplaces⟩
 · constructor
   · intro _ hpasses spec cap d hpick
     exact absurd ⟨hpasses, spec, cap, d, hpick⟩ hnone
   · intro _ vm _ _ hsnoc
     rw [hvms] at hsnoc
     simp at hsnoc
 · have hiff := hasRoom_iff hhosts hdisks hpick hplaces
   constructor
   · intro hall _ spec' cap' d' hpick'
     obtain ⟨rfl, rfl, rfl⟩ := hpick.unique hpick'
     obtain ⟨regionId, hordered, _⟩ := hpick
     exact hiff.mp (hall vm regionId spec hplaces.vms hordered)
   intro hall vm' regionId' spec' hvms hordered'
   obtain ⟨regionId, hordered, _⟩ := id hpick
   rw [hordered] at hordered'
   cases hordered'
   have hsame := hplaces.vms.symm.trans hvms
   rw [List.append_cancel_left_eq, List.cons.injEq] at hsame
   rw [← hsame.1]
   exact hiff.mpr (hall hpasses spec cap d hpick)

def hostWithDisks (sizes : List Nat) : PlacementDb where
 users := [{ id := 1 }]
 osImages := [{ id := 1 }]
 sshKeys := [{ id := 1, userId := 1 }]
 regions := [{ id := 1 }]
 hostDisks := sizes.zipIdx.map fun (size, i) => { id := i + 1, hostId := 1, size, kind := .ssd }
 ipRanges := [plainRange]
 db := {
  hosts := [{ id := 1, regionId := 1, cpu := 8, memory := 64 }]
  costPlans := [{ id := 1, amount := 500 }]
  templates := [{
   id := 1, costPlanId := 1, regionId := 1, cpu := 6, memory := 4, diskSize := 20, diskType := .ssd }] }

def oneOrder : VmRequest where
 userId := 1
 order := .standard 1
 imageId := 1
 sshKeyId := 1

theorem placed_vm_fits_one_disk : ∃ vm,
    ((hostWithDisks [100]).place .plain Provisioning.plainText 0 oneOrder).2.db.vms =
      (hostWithDisks [100]).db.vms ++ [vm] ∧
    ∀ regionId spec, (hostWithDisks [100]).ordered oneOrder.order = some (regionId, spec) →
      HasRoom (hostWithDisks [100]).toCapacityDb .plain vm spec := by
  have hfits := (placed_vm_fits .plain Provisioning.plainText (hostWithDisks [100]) 0 oneOrder (by decide)
    (by decide)).mpr (by
      intro _ spec cap d hpick
      have hroom : ∀ x ∈ (hostWithDisks [100]).picked .plain oneOrder,
          x.1.diskSize ≤ x.2.2.availableCapacity .plain := by
        decide +kernel
      exact hroom _ hpick.picked)
  have hplaced : ((hostWithDisks [100]).place .plain Provisioning.plainText 0 oneOrder).2.db.vms =
      (hostWithDisks [100]).db.vms ++ [{
        id := 1, hostId := 1, userId := 1, templateId := some 1, subscriptionLineItemId := 1, diskId := 1 }] := by
    decide +kernel
  exact ⟨_, hplaced, fun regionId spec hordered => hfits _ regionId spec hplaced hordered⟩

/-- The second disk has room, and the VM is put on the first one. -/
theorem vm_placed_on_full_disk : ∃ vm regionId spec,
  ((hostWithDisks [10, 100]).place .plain Provisioning.plainText 0 oneOrder).2.db.vms =
    (hostWithDisks [10, 100]).db.vms ++ [vm] ∧
   (hostWithDisks [10, 100]).ordered oneOrder.order = some (regionId, spec) ∧
   ¬ HasRoom (hostWithDisks [10, 100]).toCapacityDb .plain vm spec :=
 ⟨{ id := 1, hostId := 1, userId := 1, templateId := some 1, subscriptionLineItemId := 1, diskId := 1 }, 1,
  { cpu := 6, memory := 4, diskSize := 20, diskType := .ssd, diskInterface := .sata },
  by decide +kernel, by decide +kernel, by unfold HasRoom; decide +kernel⟩

end PlacementDb

end Lnvps
