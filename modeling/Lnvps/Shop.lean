import Lnvps.Capacity

/-! # What the shop shows and what can be ordered -/

namespace Lnvps

open Table Net List

namespace CapacityDb

variable {c : CapacityDb} {m : LoadMath} {regionId : Nat} {spec spec' : VmSpec}

def Takes (c : CapacityDb) (m : LoadMath) (regionId : Nat) (spec : VmSpec) : Prop :=
 ∃ host ∈ c.listHosts, host.regionId = regionId ∧
  (c.getHostCapacity host (some spec.diskType) (some spec.diskInterface)).canAccommodate m spec = true

instance : Decidable (c.Takes m regionId spec) := inferInstanceAs (Decidable (∃ _ ∈ _, _ ∧ _))

def Accepts (c : CapacityDb) (m : LoadMath) (regionId : Nat) (spec : VmSpec) : Prop :=
 ∃ cap, c.getHostForTemplate m regionId spec = .ok cap

theorem hostsFor_ne_nil_iff : c.hostsFor m regionId spec ≠ [] ↔ c.Takes m regionId spec := by
 constructor
 · intro hne
   obtain ⟨cap, hcap⟩ := exists_mem_of_ne_nil _ hne
   obtain ⟨haccept, host, hmem, hregion, rfl⟩ := mem_hostsFor.mp hcap
   exact ⟨host, hmem, hregion, haccept⟩
 · rintro ⟨host, hmem, hregion, haccept⟩
   exact ne_nil_of_mem (mem_hostsFor.mpr ⟨haccept, host, hmem, hregion, rfl⟩)

theorem accepts_iff : c.Accepts m regionId spec ↔
  c.Takes m regionId spec ∧ Comparable m (c.hostsFor m regionId spec) := by
 rw [← hostsFor_ne_nil_iff]
 exact getHostForTemplate_ok_iff

def expired (now : Int) (t : VmTemplate) : Bool := t.expires.any (· < now)

theorem mem_listAvailableVmTemplates {t : VmTemplate} : t ∈ c.listAvailableVmTemplates m ↔
  (t ∈ c.db.templates ∧ t.enabled = true) ∧ ∃ host ∈ c.listHosts, host.regionId = t.regionId ∧
   (c.getHostCapacity host none none).canAccommodate m t.spec = true := by
 simp only [listAvailableVmTemplates, listVmTemplates, mem_filter, any_eq_true, mem_map,
  decide_eq_true_eq]
 refine and_congr_right fun _ => ?_
 constructor
 · rintro ⟨_, ⟨⟨host, hmem, rfl⟩, hregion⟩, haccept⟩
   exact ⟨host, hmem, hregion, haccept⟩
 · rintro ⟨host, hmem, hregion, haccept⟩
   exact ⟨_, ⟨⟨host, hmem, rfl⟩, hregion⟩, haccept⟩

theorem Takes.shown (h : c.Takes m regionId spec) : ∃ host ∈ c.listHosts, host.regionId = regionId ∧
  (c.getHostCapacity host none none).canAccommodate m spec = true := by
 obtain ⟨host, hmem, hregion, haccept⟩ := h
 exact ⟨host, hmem, hregion, canAccommodate_of_kind haccept⟩

theorem shop_offers_orderable (c : CapacityDb) (m : LoadMath) (now : Int) (t : VmTemplate) (ht : t ∈ c.db.templates) :
  (t ∈ c.listAvailableVmTemplates m ↔
    t.enabled = true ∧ expired now t = false ∧ c.Accepts m t.regionId t.spec) ↔
   (t.enabled = true →
    (∃ host ∈ c.listHosts, host.regionId = t.regionId ∧
     (c.getHostCapacity host none none).canAccommodate m t.spec = true) →
    expired now t = false ∧ c.Takes m t.regionId t.spec ∧
     Comparable m (c.hostsFor m t.regionId t.spec)) := by
 rw [mem_listAvailableVmTemplates, accepts_iff]
 constructor
 · intro h henabled hshown
   exact (h.mp ⟨⟨ht, henabled⟩, hshown⟩).2
 intro h
 constructor
 · rintro ⟨⟨_, henabled⟩, hshown⟩
   exact ⟨henabled, h henabled hshown⟩
 · rintro ⟨henabled, _, htakes, _⟩
   exact ⟨⟨ht, henabled⟩, htakes.shown⟩

def oneHost (kind : DiskType) (mfg : CpuMfg) (templates : List VmTemplate) : CapacityDb where
 regions := [{ id := 1 }]
 hostDisks := [{ id := 1, hostId := 1, size := 1000, kind }]
 ipRanges := [plainRange]
 db := { hosts := [{ id := 1, regionId := 1, cpu := 8, memory := 64, cpuMfg := mfg }], templates }

def ssdTemplate : VmTemplate where
 id := 1
 costPlanId := 1
 regionId := 1
 cpu := 2
 memory := 4
 diskSize := 20
 diskType := .ssd

theorem shop_offers_orderable_one_template :
  ssdTemplate ∈ (oneHost .ssd .unknown [ssdTemplate]).listAvailableVmTemplates .plain ↔
   ssdTemplate.enabled = true ∧ expired 0 ssdTemplate = false ∧
    (oneHost .ssd .unknown [ssdTemplate]).Accepts .plain ssdTemplate.regionId ssdTemplate.spec :=
 (shop_offers_orderable (oneHost .ssd .unknown [ssdTemplate]) .plain 0 ssdTemplate (by decide)).mpr (by decide +kernel)

/-- The shop shows a template for fast disks where there are only slow ones. -/
theorem shop_offers_missing_disk :
  ssdTemplate ∈ (oneHost .hdd .unknown [ssdTemplate]).listAvailableVmTemplates .plain ∧
   ¬ (oneHost .hdd .unknown [ssdTemplate]).Accepts .plain ssdTemplate.regionId ssdTemplate.spec := by
 rw [accepts_iff]
 decide +kernel

end CapacityDb

structure ApiCustomTemplateDiskParam where
 (minDisk maxDisk : Nat)
 diskType : DiskType
 diskInterface : DiskInterface

structure ApiCustomTemplateParams where
 (id regionId : Nat)
 cpuFeatures : List CpuFeature := []
 cpuMfg : Option CpuMfg := none
 cpuArch : Option CpuArch := none
 (maxCpu minCpu minMemory maxMemory : Nat)
 disks : List ApiCustomTemplateDiskParam

def largest (ns : List Nat) : Nat := ns.foldr max 0

theorem le_largest {n : Nat} {ns : List Nat} (h : n ∈ ns) : n ≤ largest ns := by
 induction ns with
 | nil => cases h
 | cons a ns ih =>
  simp only [largest, foldr_cons] at ih ⊢
  rcases mem_cons.mp h with rfl | hmem
  · exact Nat.le_max_left _ _
  · exact (ih hmem).trans (Nat.le_max_right _ _)

theorem largest_mem {ns : List Nat} (h : ns ≠ []) : largest ns ∈ ns := by
 induction ns with
 | nil => exact absurd rfl h
 | cons a ns ih =>
  simp only [largest, foldr_cons] at ih ⊢
  rcases Nat.le_total (ns.foldr max 0) a with hle | hle
  · simp [Nat.max_eq_left hle]
  by_cases hnil : ns = []
  · simp [hnil]
  · rw [Nat.max_eq_right hle]
    exact mem_cons_of_mem _ (ih hnil)

theorem le_largest_iff {n : Nat} {ns : List Nat} (hpos : 0 < n) : n ≤ largest ns ↔ ∃ k ∈ ns, n ≤ k := by
 constructor
 · intro hle
   have hne : ns ≠ [] := by
    rintro rfl
    exact absurd hle (Nat.not_le.mpr hpos)
   exact ⟨_, largest_mem hne, hle⟩
 · rintro ⟨k, hk, hle⟩
   exact hle.trans (le_largest hk)

namespace ApiCustomTemplateParams

variable (m : LoadMath) (p : ApiCustomTemplateParams)

def hostMatches (cap : HostCapacity) : Bool :=
 cap.host.regionId = p.regionId ∧
  p.cpuMfg.all (fun mfg => cap.host.cpuMfg = .unknown ∨ cap.host.cpuMfg = mfg) ∧
  p.cpuArch.all (fun arch => cap.host.cpuArch = .unknown ∨ cap.host.cpuArch = arch) ∧
  p.cpuFeatures.all (· ∈ cap.host.cpuFeatures)

def ready (cap : HostCapacity) : Bool :=
 p.hostMatches cap ∧ cap.hasIpv4 ∧ p.minCpu ≤ cap.availableCpu m ∧ p.minMemory ≤ cap.availableMemory m

end ApiCustomTemplateParams

namespace ApiCustomTemplateDiskParam

variable (m : LoadMath) (d : ApiCustomTemplateDiskParam)

def matchingDisks (cap : HostCapacity) : List DiskCapacity :=
 cap.disks.filter fun c => c.disk.kind = d.diskType ∧ c.disk.interface = d.diskInterface

def rooms (caps : List HostCapacity) : List Nat :=
 caps.flatMap fun cap => (d.matchingDisks cap).map (·.availableCapacity m)

def limit (caps : List HostCapacity) : ApiCustomTemplateDiskParam :=
 { d with maxDisk := min d.maxDisk (largest (d.rooms m caps)) }

def servedBy (cap : HostCapacity) : Bool := (d.matchingDisks cap).any fun c => d.minDisk ≤ c.availableCapacity m

end ApiCustomTemplateDiskParam

namespace ApiCustomTemplateParams

variable (m : LoadMath) (p : ApiCustomTemplateParams)

def limit (caps : List HostCapacity) : ApiCustomTemplateParams :=
 let ready := caps.filter (p.ready m)
 let disks := (p.disks.map (·.limit m ready)).filter fun d => d.minDisk ≤ d.maxDisk ∧ 0 < d.maxDisk
 let servable := ready.filter fun cap => disks.any (·.servedBy m cap)
 { p with
   disks
   maxCpu := min p.maxCpu (largest (servable.map (·.availableCpu m)))
   maxMemory := min p.maxMemory (largest (servable.map (·.availableMemory m))) }

def order (cpu memory diskSize : Nat) (d : ApiCustomTemplateDiskParam) : VmSpec where
 cpu
 memory
 diskSize
 diskType := d.diskType
 diskInterface := d.diskInterface
 cpuMfg := p.cpuMfg.getD .unknown
 cpuArch := p.cpuArch.getD .unknown
 cpuFeatures := p.cpuFeatures

end ApiCustomTemplateParams

namespace CapacityDb

def applyHostCapacityLimits (c : CapacityDb) (m : LoadMath) (templates : List ApiCustomTemplateParams) :
  List ApiCustomTemplateParams :=
 let regionIds := templates.map (·.regionId)
 let caps := (c.listHosts.filter fun h => h.regionId ∈ regionIds).map fun h => c.getHostCapacity h none none
 (templates.map (·.limit m caps)).filter fun t => 0 < t.maxCpu ∧ 0 < t.maxMemory ∧ t.disks ≠ []

def Honest (c : CapacityDb) (m : LoadMath) (p : ApiCustomTemplateParams) : Prop :=
 ∀ d ∈ p.disks, c.Accepts m p.regionId (p.order p.minCpu p.minMemory d.minDisk d) ∧
  c.Accepts m p.regionId (p.order p.maxCpu p.minMemory d.minDisk d) ∧
  c.Accepts m p.regionId (p.order p.minCpu p.maxMemory d.minDisk d) ∧
  c.Accepts m p.regionId (p.order p.minCpu p.minMemory d.maxDisk d)

end CapacityDb

namespace ApiCustomTemplateDiskParam

variable {m : LoadMath} {d : ApiCustomTemplateDiskParam} {caps : List HostCapacity}

def offered (m : LoadMath) (d : ApiCustomTemplateDiskParam) (caps : List HostCapacity) : Bool :=
 d.minDisk ≤ d.maxDisk ∧ 0 < d.maxDisk ∧ (d.rooms m caps).any fun room => max 1 d.minDisk ≤ room

theorem limit_kept_iff : d.minDisk ≤ (d.limit m caps).maxDisk ∧ 0 < (d.limit m caps).maxDisk ↔
  d.offered m caps = true := by
 have hroom : max 1 d.minDisk ≤ largest (d.rooms m caps) ↔ ∃ room ∈ d.rooms m caps, max 1 d.minDisk ≤ room :=
  le_largest_iff (by omega)
 simp only [limit, offered, any_eq_true, decide_eq_true_eq, ← hroom]
 omega

theorem rooms_ne_nil (h : d.offered m caps = true) : d.rooms m caps ≠ [] := by
 intro hnil
 simp [offered, hnil] at h

theorem minDisk_le (h : d.offered m caps = true) : d.minDisk ≤ d.maxDisk := (of_decide_eq_true h).1

end ApiCustomTemplateDiskParam

namespace ApiCustomTemplateParams

variable {m : LoadMath} {p : ApiCustomTemplateParams} {caps : List HostCapacity}

def servable (m : LoadMath) (p : ApiCustomTemplateParams) (caps : List HostCapacity) : List HostCapacity :=
 caps.filter fun cap => p.disks.any fun d => d.offered m caps ∧ d.servedBy m cap

theorem limit_disks : (p.limit m caps).disks =
  (p.disks.filter fun d => d.offered m (caps.filter (p.ready m))).map (·.limit m (caps.filter (p.ready m))) := by
 simp only [limit, filter_map]
 congr 2
 funext d
 have hkept : d.minDisk ≤ (d.limit m (caps.filter (p.ready m))).maxDisk ∧
   0 < (d.limit m (caps.filter (p.ready m))).maxDisk ↔ d.offered m (caps.filter (p.ready m)) = true :=
  ApiCustomTemplateDiskParam.limit_kept_iff
 exact Bool.eq_iff_iff.mpr (decide_eq_true_iff.trans hkept)

theorem limit_servable : (caps.filter (p.ready m)).filter
   (fun cap => (p.limit m caps).disks.any (·.servedBy m cap)) = p.servable m (caps.filter (p.ready m)) := by
 rw [limit_disks, servable]
 refine filter_congr fun cap _ => ?_
 simp only [any_map, any_filter, Bool.decide_and, Bool.decide_eq_true]
 rfl

theorem limit_maxCpu : (p.limit m caps).maxCpu =
  min p.maxCpu (largest ((p.servable m (caps.filter (p.ready m))).map (·.availableCpu m))) := by
 rw [← limit_servable]
 rfl

theorem limit_maxMemory : (p.limit m caps).maxMemory =
  min p.maxMemory (largest ((p.servable m (caps.filter (p.ready m))).map (·.availableMemory m))) := by
 rw [← limit_servable]
 rfl

def Sold (m : LoadMath) (p : ApiCustomTemplateParams) (caps : List HostCapacity) : Prop :=
 0 < p.maxCpu ∧ 0 < p.maxMemory ∧ (∃ cap ∈ p.servable m caps, 0 < cap.availableCpu m) ∧
  ∃ cap ∈ p.servable m caps, 0 < cap.availableMemory m

end ApiCustomTemplateParams

namespace CapacityDb

variable {c : CapacityDb} {m : LoadMath} {regionId : Nat} {p : ApiCustomTemplateParams}

def candidates (c : CapacityDb) (m : LoadMath) (p : ApiCustomTemplateParams) : List HostCapacity :=
 (c.listHosts.map fun h => c.getHostCapacity h none none).filter (p.ready m)

theorem hostsFor_order_sublist {d : ApiCustomTemplateDiskParam} {cpu cpu' memory memory' diskSize diskSize' : Nat}
  (hcpu : cpu ≤ cpu') (hmemory : memory ≤ memory') (hdisk : diskSize ≤ diskSize') :
  (c.hostsFor m regionId (p.order cpu' memory' diskSize' d)).Sublist
   (c.hostsFor m regionId (p.order cpu memory diskSize d)) := by
 refine monotone_filter_right _ fun cap haccept => ?_
 obtain ⟨hmatches, hcores, hbytes, ⟨disk, hmem, hroom⟩, hip⟩ := canAccommodate_iff.mp haccept
 exact canAccommodate_iff.mpr
  ⟨hmatches, hcpu.trans hcores, hmemory.trans hbytes, ⟨disk, hmem, hdisk.trans hroom⟩, hip⟩

section Maximum

variable {f : Nat → VmSpec} {ns : List Nat} {low bound : Nat}
 (hanti : ∀ {x y}, x ≤ y → (c.hostsFor m regionId (f y)).Sublist (c.hostsFor m regionId (f x)))

include hanti

theorem takes_of_le {x y : Nat} (hle : x ≤ y) (h : c.Takes m regionId (f y)) : c.Takes m regionId (f x) := by
 rw [← hostsFor_ne_nil_iff] at h ⊢
 intro hnil
 have hsub := hanti hle
 rw [hnil] at hsub
 exact h (sublist_nil.mp hsub)

theorem takes_largest_iff (hne : ns ≠ []) : c.Takes m regionId (f (min bound (largest ns))) ↔
  ∀ n ∈ ns, c.Takes m regionId (f (min bound n)) := by
 constructor
 · intro h n hn
   have hle := le_largest hn
   exact takes_of_le hanti (by omega) h
 · intro h
   exact h _ (largest_mem hne)

theorem comparable_largest_iff (hlow : low ≤ largest ns)
  (hcomp : Comparable m (c.hostsFor m regionId (f low))) :
  Comparable m (c.hostsFor m regionId (f (min bound (largest ns)))) ↔
   Comparable m (c.hostsFor m regionId (f (min low bound))) := by
 by_cases hbound : low ≤ bound
 · rw [Nat.min_eq_left hbound]
   exact ⟨fun _ => hcomp, fun h => h.sublist (hanti (by omega))⟩
 · have heq : min bound (largest ns) = min low bound := by omega
   rw [heq]

variable (c m regionId f bound) in
theorem accepts_low_largest_iff (hne : ns ≠ []) (hlow : low ≤ largest ns) :
  c.Accepts m regionId (f low) ∧ c.Accepts m regionId (f (min bound (largest ns))) ↔
   c.Takes m regionId (f low) ∧ Comparable m (c.hostsFor m regionId (f (min low bound))) ∧
    ∀ n ∈ ns, c.Takes m regionId (f (min bound n)) := by
 rw [accepts_iff, accepts_iff, takes_largest_iff hanti hne]
 constructor
 · rintro ⟨⟨htakes, hcomp⟩, hall, hlargest⟩
   exact ⟨htakes, (comparable_largest_iff hanti hlow hcomp).mp hlargest, hall⟩
 · rintro ⟨htakes, hcomp, hall⟩
   have hcomp' := hcomp.sublist (hanti (Nat.min_le_left low bound))
   exact ⟨⟨htakes, hcomp'⟩, hall, (comparable_largest_iff hanti hlow hcomp').mpr hcomp⟩

end Maximum

theorem filter_ready_eq {templates : List ApiCustomTemplateParams} (hp : p ∈ templates) :
  (((c.listHosts.filter fun h => h.regionId ∈ templates.map (·.regionId)).map fun h =>
   c.getHostCapacity h none none).filter (p.ready m)) = c.candidates m p := by
 simp only [candidates, filter_map, filter_filter]
 congr 1
 refine filter_congr fun host _ => ?_
 simp only [Function.comp_apply, Bool.and_eq_left_iff_imp]
 intro hready
 simp only [ApiCustomTemplateParams.ready, ApiCustomTemplateParams.hostMatches, decide_eq_true_eq] at hready
 exact decide_eq_true (mem_map.mpr ⟨p, hp, hready.1.1.symm⟩)

def Serves (c : CapacityDb) (m : LoadMath) (p : ApiCustomTemplateParams) : Prop :=
 ∀ d ∈ p.disks, d.offered m (c.candidates m p) = true →
  c.Takes m p.regionId (p.order p.minCpu p.minMemory d.minDisk d) ∧
  (∀ cap ∈ p.servable m (c.candidates m p),
   c.Takes m p.regionId (p.order (min p.maxCpu (cap.availableCpu m)) p.minMemory d.minDisk d) ∧
   c.Takes m p.regionId (p.order p.minCpu (min p.maxMemory (cap.availableMemory m)) d.minDisk d)) ∧
  (∀ room ∈ d.rooms m (c.candidates m p),
   c.Takes m p.regionId (p.order p.minCpu p.minMemory (min d.maxDisk room) d)) ∧
  Comparable m (c.hostsFor m p.regionId (p.order (min p.minCpu p.maxCpu) p.minMemory d.minDisk d)) ∧
  Comparable m (c.hostsFor m p.regionId (p.order p.minCpu (min p.minMemory p.maxMemory) d.minDisk d))

section Limit

variable {caps : List HostCapacity} (hcaps : caps.filter (p.ready m) = c.candidates m p)

include hcaps

theorem shown_iff_sold : (0 < (p.limit m caps).maxCpu ∧ 0 < (p.limit m caps).maxMemory ∧ (p.limit m caps).disks ≠ []) ↔
  p.Sold m (c.candidates m p) := by
 have hpos : ∀ ns : List Nat, 0 < largest ns ↔ ∃ n ∈ ns, 0 < n := fun ns => le_largest_iff Nat.zero_lt_one
 rw [ApiCustomTemplateParams.limit_maxCpu, ApiCustomTemplateParams.limit_maxMemory,
  ApiCustomTemplateParams.limit_disks, hcaps, Nat.lt_min, Nat.lt_min, hpos, hpos, ApiCustomTemplateParams.Sold]
 simp only [mem_map, exists_exists_and_eq_and]
 constructor
 · rintro ⟨⟨hcpu, hcores⟩, ⟨hmemory, hbytes⟩, _⟩
   exact ⟨hcpu, hmemory, hcores, hbytes⟩
 rintro ⟨hcpu, hmemory, ⟨cap, hcap, hcores⟩, hbytes⟩
 have hserved := (mem_filter.mp hcap).2
 simp only [any_eq_true, decide_eq_true_eq] at hserved
 obtain ⟨d, hd, hoffered, _⟩ := hserved
 exact ⟨⟨hcpu, cap, hcap, hcores⟩, ⟨hmemory, hbytes⟩,
  ne_nil_of_mem (mem_map_of_mem (mem_filter.mpr ⟨hd, hoffered⟩))⟩

theorem honest_limit_iff (hsold : p.Sold m (c.candidates m p)) : c.Honest m (p.limit m caps) ↔ c.Serves m p := by
 obtain ⟨_, _, ⟨cap, hcap, _⟩, _⟩ := hsold
 have hready : ∀ cap ∈ p.servable m (c.candidates m p),
   p.minCpu ≤ cap.availableCpu m ∧ p.minMemory ≤ cap.availableMemory m := by
  intro cap hmem
  have h := (mem_filter.mp (mem_of_mem_filter hmem)).2
  simp only [ApiCustomTemplateParams.ready, decide_eq_true_eq] at h
  exact h.2.2
 have hcpus : (p.servable m (c.candidates m p)).map (·.availableCpu m) ≠ [] :=
  ne_nil_of_mem (mem_map_of_mem hcap)
 have hmemories : (p.servable m (c.candidates m p)).map (·.availableMemory m) ≠ [] :=
  ne_nil_of_mem (mem_map_of_mem hcap)
 have hlowCpu := (hready cap hcap).1.trans (le_largest (mem_map_of_mem (f := (·.availableCpu m)) hcap))
 have hlowMemory := (hready cap hcap).2.trans (le_largest (mem_map_of_mem (f := (·.availableMemory m)) hcap))
 unfold Honest Serves
 rw [ApiCustomTemplateParams.limit_disks, ApiCustomTemplateParams.limit_maxCpu,
  ApiCustomTemplateParams.limit_maxMemory, hcaps, forall_mem_map]
 simp only [mem_filter, and_imp]
 refine forall_congr' fun d => forall_congr' fun _ => forall_congr' fun hoffered => ?_
 have hlowDisk : d.minDisk ≤ largest (d.rooms m (c.candidates m p)) :=
  (ApiCustomTemplateDiskParam.limit_kept_iff.mpr hoffered).1.trans (Nat.min_le_right _ _)
 have hcpu := accepts_low_largest_iff c m p.regionId (fun x => p.order x p.minMemory d.minDisk d) p.maxCpu
  (fun hle => hostsFor_order_sublist hle le_rfl le_rfl) hcpus hlowCpu
 have hmemory := accepts_low_largest_iff c m p.regionId (fun x => p.order p.minCpu x d.minDisk d) p.maxMemory
  (fun hle => hostsFor_order_sublist le_rfl hle le_rfl) hmemories hlowMemory
 have hdisk := accepts_low_largest_iff c m p.regionId (fun x => p.order p.minCpu p.minMemory x d) d.maxDisk
  (fun hle => hostsFor_order_sublist le_rfl le_rfl hle) (ApiCustomTemplateDiskParam.rooms_ne_nil hoffered) hlowDisk
 rw [forall_mem_map] at hcpu hmemory
 constructor
 · rintro ⟨hbase, hmaxCpu, hmaxMemory, hmaxDisk⟩
   obtain ⟨htakes, hcompCpu, hallCpu⟩ := hcpu.mp ⟨hbase, hmaxCpu⟩
   obtain ⟨_, hcompMemory, hallMemory⟩ := hmemory.mp ⟨hbase, hmaxMemory⟩
   obtain ⟨_, _, hallDisk⟩ := hdisk.mp ⟨hbase, hmaxDisk⟩
   exact ⟨htakes, fun cap hcap => ⟨hallCpu cap hcap, hallMemory cap hcap⟩, hallDisk, hcompCpu, hcompMemory⟩
 · rintro ⟨htakes, hall, hallDisk, hcompCpu, hcompMemory⟩
   obtain ⟨hbase, hmaxCpu⟩ := hcpu.mpr ⟨htakes, hcompCpu, fun cap hcap => (hall cap hcap).1⟩
   obtain ⟨_, hmaxMemory⟩ := hmemory.mpr ⟨htakes, hcompMemory, fun cap hcap => (hall cap hcap).2⟩
   have hcompDisk := (accepts_iff.mp hbase).2
   rw [← Nat.min_eq_left (ApiCustomTemplateDiskParam.minDisk_le hoffered)] at hcompDisk
   exact ⟨hbase, hmaxCpu, hmaxMemory, (hdisk.mpr ⟨htakes, hcompDisk, hallDisk⟩).2⟩

end Limit

/-- The limits are honest just if the hosts serve every price list that is shown. -/
theorem custom_limits_honest (c : CapacityDb) (m : LoadMath) (templates : List ApiCustomTemplateParams) :
  (∀ p ∈ c.applyHostCapacityLimits m templates, c.Honest m p) ↔
   ∀ p ∈ templates, p.Sold m (c.candidates m p) → c.Serves m p := by
 simp only [applyHostCapacityLimits, mem_filter, and_imp, forall_mem_map, decide_eq_true_eq]
 refine forall_congr' fun p => forall_congr' fun hp => ?_
 have hcaps := filter_ready_eq (c := c) (m := m) hp
 constructor
 · intro h hsold
   obtain ⟨hcpu, hmemory, hdisks⟩ := (shown_iff_sold hcaps).mpr hsold
   exact (honest_limit_iff hcaps hsold).mp (h hcpu hmemory hdisks)
 · intro h hcpu hmemory hdisks
   have hsold := (shown_iff_sold hcaps).mp ⟨hcpu, hmemory, hdisks⟩
   exact (honest_limit_iff hcaps hsold).mpr (h hsold)

def intelPricing : ApiCustomTemplateParams where
 id := 1
 regionId := 1
 cpuMfg := some .intel
 maxCpu := 16
 minCpu := 1
 minMemory := 1
 maxMemory := 128
 disks := [{ minDisk := 10, maxDisk := 500, diskType := .ssd, diskInterface := .sata }]

theorem custom_limits_honest_one_host :
    (oneHost .ssd .intel []).applyHostCapacityLimits .plain [intelPricing] ≠ [] ∧
      ∀ p ∈ (oneHost .ssd .intel []).applyHostCapacityLimits .plain [intelPricing],
        (oneHost .ssd .intel []).Honest .plain p :=
  ⟨by decide +kernel, (custom_limits_honest (oneHost .ssd .intel []) .plain [intelPricing]).mpr (by
    simp only [forall_mem_singleton, Serves]
    intro _
    decide +kernel)⟩

/-- A host of unknown make puts a price list into the shop that no host takes an order of. -/
theorem custom_limits_of_unknown_host :
  ∃ p ∈ (oneHost .ssd .unknown []).applyHostCapacityLimits .plain [intelPricing],
   ∃ d ∈ p.disks, ¬ (oneHost .ssd .unknown []).Accepts .plain p.regionId
    (p.order p.minCpu p.minMemory d.minDisk d) := by
 simp only [accepts_iff]
 decide +kernel

end CapacityDb

end Lnvps
