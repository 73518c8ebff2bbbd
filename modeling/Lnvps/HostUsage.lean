import Lnvps.Placement

/-! # The usage of hosts over time -/

namespace Lnvps

open Table Net Steps Option CapacityDb

namespace CapacityDb

variable (c : CapacityDb)

def paidSum (hostId : Nat) (q : Vm → Bool) (use : VmSpec → Nat) : Nat :=
 total q (fun vm => ((c.usedSpec vm).map use).getD 0) (c.countedVms hostId)

def committedSum (hostId : Nat) (q : Vm → Bool) (use : VmSpec → Nat) : Nat :=
 total q (fun vm => ((c.usedSpec vm).map use).getD 0) (c.listVmsOnHost hostId)

def Within (m : LoadMath) (sum : Nat → (Vm → Bool) → (VmSpec → Nat) → Nat) : Prop :=
 ∀ host ∈ c.db.hosts,
  sum host.id (fun _ => true) (·.cpu) ≤ m.cpuLimit host.cpu host.loadCpu ∧
   sum host.id (fun _ => true) (·.memory) ≤ m.bytesLimit host.memory host.loadMemory ∧
   ∀ d ∈ c.hostDisks, d.hostId = host.id →
    sum host.id (fun vm => vm.diskId = d.id) (·.diskSize) ≤ m.bytesLimit d.size host.loadDisk

instance (m : LoadMath) (sum : Nat → (Vm → Bool) → (VmSpec → Nat) → Nat) : Decidable (c.Within m sum) :=
 inferInstanceAs (Decidable (∀ _ ∈ _, _))

variable {c} {m : LoadMath} {hostId : Nat} {q : Vm → Bool} {use : VmSpec → Nat}

theorem paidSum_le : c.paidSum hostId q use ≤ c.committedSum hostId q use := total_filter_le

theorem paidSum_eq (hpaid : ∀ vm ∈ c.listVmsOnHost hostId, c.isPaid vm = true) :
  c.paidSum hostId q use = c.committedSum hostId q use := by
 unfold paidSum committedSum countedVms
 rw [List.filter_eq_self.mpr hpaid]

theorem Within.mono {sum sum' : Nat → (Vm → Bool) → (VmSpec → Nat) → Nat} (h : c.Within m sum')
  (hle : ∀ hostId q use, sum hostId q use ≤ sum' hostId q use) : c.Within m sum := by
 intro host hhost
 obtain ⟨hcpu, hmemory, hdisks⟩ := h host hhost
 exact ⟨(hle _ _ _).trans hcpu, (hle _ _ _).trans hmemory, fun d hd hon => (hle _ _ _).trans (hdisks d hd hon)⟩

theorem Within.of_le {c' : CapacityDb} (hwithin : c.Within m c.committedSum) (hhosts : c'.db.hosts = c.db.hosts)
  (hdisks : c'.hostDisks = c.hostDisks)
  (hle : ∀ hostId q use, c'.committedSum hostId q use ≤ c.committedSum hostId q use) :
  c'.Within m c'.committedSum := by
 intro host hhost
 rw [hhosts] at hhost
 rw [hdisks]
 exact (hwithin.mono hle) host hhost

end CapacityDb

inductive PlacementStep
 | order (now : Int) (req : VmRequest)
 | setUp (subscriptionId : Nat)
 | setEnabled (templateId : Nat) (enabled : Bool)
 | deleteVm (vmId : Nat)

namespace PlacementDb

variable (p : PlacementDb)

def setUp (subscriptionId : Nat) : PlacementDb := { p with db := { p.db with
  subscriptions := updateWhere (fun s => s.id = subscriptionId) (fun s => { s with isSetup := true })
    p.db.subscriptions } }

def setEnabled (templateId : Nat) (enabled : Bool) : PlacementDb := { p with db := { p.db with
  templates := updateWhere (fun t => t.id = templateId) (fun t => { t with enabled }) p.db.templates } }

def deleteVm (vmId : Nat) : PlacementDb := { p with db := { p.db with
  vms := updateWhere (fun v => v.id = vmId) (fun v => { v with deleted := true }) p.db.vms } }

def step (m : LoadMath) (text : IpText) (p : PlacementDb) : PlacementStep → Option PlacementDb
 | .order now req => some (p.place m text now req).2
 | .setUp subscriptionId => some (p.setUp subscriptionId)
 | .setEnabled templateId enabled => some (p.setEnabled templateId enabled)
 | .deleteVm vmId => some (p.deleteVm vmId)

def careful (m : LoadMath) (p : PlacementDb) : PlacementStep → Bool
 | .order _ req => (p.picked m req).all fun (spec, cap, d) =>
   spec.diskSize ≤ d.availableCapacity m ∧ (p.listVmsOnHost cap.host.id).all p.isPaid ∧
    p.Accounted cap.host ((p.listHostDisks cap.host.id).filter
     (CapacityDb.ofKind (some spec.diskType) (some spec.diskInterface)))
 | _ => true

structure Tidy (p : PlacementDb) : Prop where
 hosts : Keyed (·.id) p.db.hosts
 hostDisks : Keyed (·.id) p.hostDisks
 templates : Keyed (·.id) p.db.templates
 customTemplates : ∀ t ∈ p.customTemplates, t.id < p.nextTemplateId
 vms : ∀ vm ∈ p.db.vms, ∀ id ∈ vm.customTemplateId, id < p.nextTemplateId

variable {m : LoadMath} {text : IpText} {p p' : PlacementDb} {now : Int} {req : VmRequest} {spec : VmSpec}
 {cap : HostCapacity} {d : DiskCapacity} {vm : Vm} {hostId : Nat} {q : Vm → Bool} {use : VmSpec → Nat}

theorem Frame.usedSpec (hframe : Frame p p' req.order) (htidy : p.Tidy) (hvm : vm ∈ p.db.vms) :
  p'.usedSpec vm = p.usedSpec vm := by
 unfold CapacityDb.usedSpec
 cases htemplate : vm.templateId with
 | some id => simp only [Db.getVmTemplate, hframe.templates]
 | none =>
  cases hcustom : vm.customTemplateId with
  | none => rfl
  | some id =>
   simp only [bind_some, CustomDb.getCustomVmTemplate]
   rcases hframe.customTemplates with ⟨heq, _⟩ | ⟨_, row, _, hrow, _, heq, _⟩
   · rw [heq]
   have hlt := htidy.vms vm hvm id hcustom
   have hne : row.id ≠ id := by omega
   rw [heq]
   simp [lookup, List.find?_append, hne]

theorem Places.usedSpec (hplaces : Places p p' req.order cap d vm) (hframe : Frame p p' req.order) (htidy : p.Tidy)
  (hpick : p.Picks m req spec cap d) : p'.usedSpec vm = some spec := by
 obtain ⟨regionId, hordered, _⟩ := hpick
 have htemplate := hplaces.template
 unfold CapacityDb.usedSpec
 cases horder : req.order with
 | standard templateId =>
  simp only [horder] at htemplate
  simp only [ordered, horder, map_eq_some_iff, Prod.mk.injEq] at hordered
  obtain ⟨t, ht, _, rfl⟩ := hordered
  rw [Db.getVmTemplate, ← hframe.templates] at ht
  simp only [htemplate.1, Db.getVmTemplate, ht, map_some]
 | custom template =>
  simp only [horder] at htemplate
  obtain ⟨hnone, hsome, _, row, hid, hspec, hrows⟩ := htemplate
  simp only [ordered, horder, map_eq_some_iff, Prod.mk.injEq] at hordered
  obtain ⟨pricing, _, _, rfl⟩ := hordered
  have hfresh : lookup (·.id) p.nextTemplateId p.customTemplates = none :=
   lookup_eq_none.mpr fun t ht => (htidy.customTemplates t ht).ne
  simp only [hnone, hsome, bind_some, CustomDb.getCustomVmTemplate, hrows]
  unfold lookup at hfresh ⊢
  rw [List.find?_append, hfresh]
  simp [hid, hspec]

theorem committedSum_snoc (hvms : p'.db.vms = p.db.vms ++ [vm]) (hlive : vm.deleted = false)
  (hused : ∀ v ∈ p.db.vms, p'.usedSpec v = p.usedSpec v) (hspec : p'.usedSpec vm = some spec) :
  p'.committedSum hostId q use =
   p.committedSum hostId q use + if vm.hostId = hostId ∧ q vm = true then use spec else 0 := by
 have hold : total q (fun v => ((p'.usedSpec v).map use).getD 0) (p.listVmsOnHost hostId) =
   p.committedSum hostId q use :=
  total_congr fun v hv => by rw [hused v (List.mem_of_mem_filter hv)]
 unfold committedSum listVmsOnHost at hold ⊢
 rw [hvms, List.filter_append, ← hold]
 by_cases hhost : vm.hostId = hostId
 · simp only [List.filter_cons, hlive, hhost, Bool.not_false, and_self, decide_true, ↓reduceIte, List.filter_nil,
    total_snoc, hspec, map_some, getD_some, true_and]
 · simp [hhost]

theorem order_within (htidy : p.Tidy) (hwithin : p.Within m p.committedSum)
  (hcareful : p.careful m (.order now req) = true) (hframe : Frame p p' req.order)
  (hpick : p.Picks m req spec cap d) (hplaces : Places p p' req.order cap d vm) : p'.Within m p'.committedSum := by
 have hspec := hplaces.usedSpec hframe htidy hpick
 have hsum : ∀ hostId q use, p'.committedSum hostId q use =
   p.committedSum hostId q use + if cap.host.id = hostId ∧ q vm = true then use spec else 0 := by
  intro hostId q use
  rw [committedSum_snoc hplaces.vms hplaces.live (fun v hv => hframe.usedSpec htidy hv) hspec, hplaces.host]
 simp only [careful, hpick.picked, all_some, decide_eq_true_eq, List.all_eq_true] at hcareful
 obtain ⟨hroom, hpaid, haccounted⟩ := hcareful
 obtain ⟨regionId, _, hhost, _⟩ := id hpick
 obtain ⟨hmem, hcap, haccept⟩ := getHostForTemplate_host hhost
 obtain ⟨_, hcpu, hmemory, _, _⟩ := canAccommodate_iff.mp haccept
 have hexact := (usage_exact_iff htidy.templates _ _ _).mpr haccounted
 rw [← hcap] at hexact
 obtain ⟨hcpuExact, hmemoryExact, hdiskExact⟩ := hexact
 have hfull : ∀ q use, p.paidSum cap.host.id q use = p.committedSum cap.host.id q use :=
  fun q use => paidSum_eq hpaid
 intro host hhost'
 rw [hframe.hosts] at hhost'
 obtain ⟨hcpuWithin, hmemoryWithin, hdiskWithin⟩ := hwithin host hhost'
 rw [hframe.hostDisks]
 simp only [hsum]
 by_cases hsame : cap.host.id = host.id
 · obtain rfl : host = cap.host := htidy.hosts.eq_of_key hhost' hmem hsame.symm
   have hcpuHeld : cap.cpu = p.committedSum cap.host.id (fun _ => true) (·.cpu) := hcpuExact.trans (hfull _ _)
   have hmemoryHeld : cap.memory = p.committedSum cap.host.id (fun _ => true) (·.memory) :=
    hmemoryExact.trans (hfull _ _)
   rw [HostCapacity.availableCpu, hcpuHeld] at hcpu
   rw [HostCapacity.availableMemory, hmemoryHeld] at hmemory
   simp only [and_self, ↓reduceIte, true_and, decide_eq_true_eq]
   refine ⟨by omega, by omega, fun row hrow hon => ?_⟩
   have hrowWithin := hdiskWithin row hrow hon
   by_cases hdisk : vm.diskId = row.id
   · obtain rfl : row = d.disk := htidy.hostDisks.eq_of_key hrow
      (List.mem_of_mem_filter (List.mem_of_mem_filter hpick.disk_mem.1)) (hdisk.symm.trans hplaces.disk)
     have hdiskHeld : d.usage = p.committedSum cap.host.id (fun vm => vm.diskId = d.disk.id) (·.diskSize) :=
      (hdiskExact d hpick.disk_mem_cap).trans (hfull _ _)
     rw [DiskCapacity.availableCapacity, hdiskHeld, hpick.loadFactor] at hroom
     rw [if_pos hdisk]
     omega
   · rw [if_neg hdisk]
     exact hrowWithin
 · simpa [hsame] using ⟨hcpuWithin, hmemoryWithin, hdiskWithin⟩

theorem committedSum_congr (hvms : p'.db.vms = p.db.vms) (hused : ∀ v ∈ p.db.vms, p'.usedSpec v = p.usedSpec v) :
  p'.committedSum hostId q use = p.committedSum hostId q use := by
 unfold committedSum listVmsOnHost
 rw [hvms]
 exact total_congr fun v hv => by rw [hused v (List.mem_of_mem_filter hv)]

theorem usedSpec_setEnabled {templateId : Nat} {enabled : Bool} :
  (p.setEnabled templateId enabled).usedSpec vm = p.usedSpec vm := by
 unfold usedSpec
 cases vm.templateId with
 | none => rfl
 | some id =>
  have hlookup : (p.setEnabled templateId enabled).db.getVmTemplate id =
    (p.db.getVmTemplate id).map fun t => if decide (t.id = templateId) then { t with enabled } else t :=
   lookup_updateWhere fun _ _ => rfl
  simp only [hlookup, map_map]
  congr 1
  funext t
  simp only [Function.comp_apply]
  split <;> rfl

theorem committedSum_deleteVm {vmId : Nat} :
  (p.deleteVm vmId).committedSum hostId q use ≤ p.committedSum hostId q use := by
 unfold committedSum listVmsOnHost
 rw [total_filter, total_filter]
 exact total_updateWhere_le fun v _ _ hlive => by simp at hlive

theorem Frame.tidy (hframe : Frame p p' req.order) (htidy : p.Tidy)
  (hvms : p'.db.vms = p.db.vms ∨ ∃ cap d vm, Places p p' req.order cap d vm) : p'.Tidy := by
 have hnext : p.nextTemplateId ≤ p'.nextTemplateId := by
  rcases hframe.customTemplates with ⟨_, heq⟩ | ⟨_, _, _, _, _, _, heq⟩ <;> omega
 have hold : ∀ vm ∈ p.db.vms, ∀ id ∈ vm.customTemplateId, id < p'.nextTemplateId :=
  fun vm hvm id hid => (htidy.vms vm hvm id hid).trans_le hnext
 refine ⟨hframe.hosts ▸ htidy.hosts, hframe.hostDisks ▸ htidy.hostDisks, hframe.templates ▸ htidy.templates, ?_, ?_⟩
 · intro t ht
   rcases hframe.customTemplates with ⟨heq, _⟩ | ⟨_, row, _, hrow, _, heq, hnext'⟩
   · rw [heq] at ht
     exact (htidy.customTemplates t ht).trans_le hnext
   rw [heq, List.mem_append, List.mem_singleton] at ht
   rcases ht with ht | rfl
   · exact (htidy.customTemplates t ht).trans_le hnext
   · omega
 · rcases hvms with heq | ⟨cap, d, vm, hplaces⟩
   · rw [heq]
     exact hold
   rw [hplaces.vms, List.forall_mem_append]
   refine ⟨hold, List.forall_mem_singleton.mpr fun id hid => ?_⟩
   have htemplate := hplaces.template
   split at htemplate
   · rw [htemplate.2] at hid
     cases hid
   obtain ⟨_, hsome, hnext', _⟩ := htemplate
   rw [hsome] at hid
   cases hid
   omega

def Sound (m : LoadMath) (p : PlacementDb) : Prop := p.Tidy ∧ p.Within m p.committedSum

theorem step_sound {l : PlacementStep} (hsound : p.Sound m) (hcareful : p.careful m l = true)
  (hstep : p.step m text l = some p') : p'.Sound m := by
 obtain ⟨htidy, hwithin⟩ := hsound
 cases l with
 | order now req =>
  cases hstep
  obtain ⟨hframe, ⟨hvms, _⟩ | ⟨_, spec, cap, d, vm, hpick, hplaces⟩⟩ := place_effect m text p now req
  · refine ⟨hframe.tidy htidy (.inl hvms), hwithin.of_le hframe.hosts hframe.hostDisks fun _ _ _ => ?_⟩
    exact (committedSum_congr hvms fun v hv => hframe.usedSpec htidy hv).le
  · exact ⟨hframe.tidy htidy (.inr ⟨cap, d, vm, hplaces⟩),
     order_within htidy hwithin hcareful hframe hpick hplaces⟩
 | setUp subscriptionId =>
  cases hstep
  exact ⟨⟨htidy.hosts, htidy.hostDisks, htidy.templates, htidy.customTemplates, htidy.vms⟩, hwithin⟩
 | setEnabled templateId enabled =>
  cases hstep
  have htemplates : Keyed (·.id) (p.setEnabled templateId enabled).db.templates :=
   htidy.templates.updateWhere fun _ _ _ => rfl
  refine ⟨⟨htidy.hosts, htidy.hostDisks, htemplates, htidy.customTemplates, htidy.vms⟩,
   hwithin.of_le rfl rfl fun _ _ _ => ?_⟩
  have hvms : (p.setEnabled templateId enabled).db.vms = p.db.vms := rfl
  exact (committedSum_congr hvms fun _ _ => usedSpec_setEnabled).le
 | deleteVm vmId =>
  cases hstep
  refine ⟨⟨htidy.hosts, htidy.hostDisks, htidy.templates, htidy.customTemplates, ?_⟩,
   hwithin.of_le rfl rfl fun _ _ _ => committedSum_deleteVm⟩
  intro vm hvm
  obtain ⟨v, hv, rfl⟩ := mem_updateWhere.mp hvm
  have := htidy.vms v hv
  split <;> exact this

theorem host_usage_accounting (m : LoadMath) (text : IpText) :
  (∀ c : CapacityDb, Keyed (·.id) c.db.templates → ∀ host kind interface,
   c.UsageExact (c.getHostCapacity host kind interface) ↔
    c.Accounted host ((c.listHostDisks host.id).filter (CapacityDb.ofKind kind interface))) ∧
  ∀ p : PlacementDb, p.Tidy → p.Within m p.committedSum → ∀ ls t,
   RunIf (step m text) (fun p l => p.careful m l = true) p ls t → t.Within m t.paidSum := by
 refine ⟨fun c hkeyed host kind interface => CapacityDb.usage_exact_iff hkeyed host kind interface, ?_⟩
 intro p htidy hwithin ls t hrun
 have hsound : t.Sound m := hrun.invariant (fun _ _ _ hsound => step_sound hsound) ⟨htidy, hwithin⟩
 exact hsound.2.mono fun _ _ _ => CapacityDb.paidSum_le

theorem hostWithDisks_sound : (hostWithDisks [100]).Sound .plain :=
 ⟨⟨by decide, by decide, by decide, by decide, by decide⟩, by decide +kernel⟩

theorem host_usage_accounting_two_orders : ∃ ls t,
  RunIf (step .plain Provisioning.plainText) (fun p l => p.careful .plain l = true) (hostWithDisks [100]) ls t ∧
   t.db.vms.length = 2 ∧ t.Within .plain t.paidSum ∧
   (hostWithDisks [100]).UsageExact ((hostWithDisks [100]).getHostCapacity { id := 1 } none none) := by
 have haccounting := host_usage_accounting .plain Provisioning.plainText
 refine ⟨[.order 0 oneOrder, .setUp 1, .deleteVm 1, .order 0 oneOrder, .setUp 2],
  RunIf.exists_and_of_execIf (by decide +kernel) fun t hrun _ => ⟨?_, ?_⟩⟩
 · exact haccounting.2 _ hostWithDisks_sound.1 hostWithDisks_sound.2 _ t hrun
 · exact (haccounting.1 (hostWithDisks [100]).toCapacityDb (by decide) _ none none).mpr (by decide +kernel)

/-- A paid VM of a withdrawn template uses nothing, and two VMs are sold the same cores. -/
theorem host_usage_left_out : (hostWithDisks [100]).Sound .plain ∧
  (∃ ls t, Run (step .plain Provisioning.plainText) (hostWithDisks [100]) ls t ∧
   ∃ host ∈ t.db.hosts, ¬ t.UsageExact (t.getHostCapacity host none none)) ∧
  ∃ ls t, Run (step .plain Provisioning.plainText) (hostWithDisks [100]) ls t ∧ ¬ t.Within .plain t.paidSum :=
 ⟨hostWithDisks_sound, ⟨[.order 0 oneOrder, .setUp 1, .setEnabled 1 false], Run.exists_of_exec (by decide +kernel)⟩,
  ⟨[.order 0 oneOrder, .order 0 oneOrder, .setUp 1, .setUp 2], Run.exists_of_exec (by decide +kernel)⟩⟩

end PlacementDb

end Lnvps
