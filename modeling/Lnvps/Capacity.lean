import Lnvps.Lib.Total
import Lnvps.Upgrade

/-! # The capacity of hosts -/

namespace Lnvps

open Table Net List

structure Region where
 id : Nat
 enabled : Bool := true
 companyId : Nat := 0

structure VmHostDisk where
 (id hostId size : Nat)
 kind : DiskType := .hdd
 interface : DiskInterface := .sata
 enabled : Bool := true

structure CapacityDb extends CustomDb where
 regions : List Region := []
 hostDisks : List VmHostDisk := []

namespace CapacityDb

variable (c : CapacityDb)

def getHostRegion (id : Nat) : Option Region := lookup (·.id) id c.regions

def listHosts : List VmHost :=
 c.db.hosts.filter fun h => h.enabled ∧ c.regions.any fun r => r.id = h.regionId ∧ r.enabled

def listHostDisks (hostId : Nat) : List VmHostDisk := c.hostDisks.filter fun d => d.hostId = hostId ∧ d.enabled

def listVmsOnHost (hostId : Nat) : List Vm := c.db.vms.filter fun v => !v.deleted ∧ v.hostId = hostId

def listVmTemplates : List VmTemplate := c.db.templates.filter (·.enabled)

def isPaid (vm : Vm) : Bool := (c.db.getSubscriptionByLineItemId vm.subscriptionLineItemId).any (·.isSetup)

end CapacityDb

structure VmSpec where
 (cpu memory diskSize : Nat)
 diskType : DiskType
 diskInterface : DiskInterface
 cpuMfg : CpuMfg := .unknown
 cpuArch : CpuArch := .unknown
 cpuFeatures : List CpuFeature := []
 deriving DecidableEq

def VmTemplate.spec (t : VmTemplate) : VmSpec where
 cpu := t.cpu
 memory := t.memory
 diskSize := t.diskSize
 diskType := t.diskType
 diskInterface := t.diskInterface
 cpuMfg := t.cpuMfg
 cpuArch := t.cpuArch
 cpuFeatures := t.cpuFeatures

def VmCustomTemplate.spec (t : VmCustomTemplate) : VmSpec where
 cpu := t.cpu
 memory := t.memory
 diskSize := t.diskSize
 diskType := t.diskType
 diskInterface := t.diskInterface
 cpuMfg := t.cpuMfg
 cpuArch := t.cpuArch
 cpuFeatures := t.cpuFeatures

structure DiskCapacity where
 loadFactor : Rat
 disk : VmHostDisk
 usage : Nat

structure IpRangeCapacity where
 range : IpRange
 usage : Nat

structure HostCapacity where
 host : VmHost
 (cpu memory : Nat)
 disks : List DiskCapacity
 ranges : List IpRangeCapacity

structure LoadMath where
 cpuLimit : Nat → Rat → Nat
 bytesLimit : Nat → Rat → Nat
 load : HostCapacity → Option Rat

def LoadMath.plain : LoadMath where
 cpuLimit n load := (n * load).floor.toNat
 bytesLimit n load := (n * load).floor.toNat
 load _ := some 0

theorem v4_pos : 0 < 2 ^ Kind.v4.bits := Nat.two_pow_pos _

def plainRange : IpRange where
 id := 1
 cidr := Network.new? ⟨.v4, 0, v4_pos⟩ 24
 gateway := none
 regionId := 1

namespace IpRangeCapacity

def availableCapacity (r : IpRangeCapacity) : Nat :=
 match r.range.cidr with
 | none => 0
 | some net =>
  let gwReserved := if r.range.gateway.any fun gw => net.contains gw.ip then 1 else 0
  let boundaryReserved := if r.range.useFullRange then 0 else 2
  networkSize net - r.usage - gwReserved - boundaryReserved

def isIpv4 (r : IpRangeCapacity) : Bool := r.range.cidr.any fun net => net.ip.kind = .v4

end IpRangeCapacity

def DiskCapacity.availableCapacity (m : LoadMath) (d : DiskCapacity) : Nat :=
 m.bytesLimit d.disk.size d.loadFactor - d.usage

namespace HostCapacity

variable (m : LoadMath) (cap : HostCapacity)

def availableCpu : Nat := m.cpuLimit cap.host.cpu cap.host.loadCpu - cap.cpu

def availableMemory : Nat := m.bytesLimit cap.host.memory cap.host.loadMemory - cap.memory

def hasIpv4 : Bool := cap.ranges.any fun r => r.isIpv4 ∧ 1 ≤ r.availableCapacity

def matchesCpu (spec : VmSpec) : Bool :=
 (spec.cpuMfg = .unknown ∨ cap.host.cpuMfg = spec.cpuMfg) ∧
  (spec.cpuArch = .unknown ∨ cap.host.cpuArch = spec.cpuArch) ∧
  spec.cpuFeatures.all (· ∈ cap.host.cpuFeatures)

def canAccommodate (spec : VmSpec) : Bool :=
 cap.matchesCpu spec ∧ spec.cpu ≤ cap.availableCpu m ∧ spec.memory ≤ cap.availableMemory m ∧
  (cap.disks.any fun d => spec.diskSize ≤ d.availableCapacity m) ∧ cap.hasIpv4

end HostCapacity

namespace CapacityDb

variable (c : CapacityDb)

def vmResources (vm : Vm) : Option VmSpec :=
 match vm.templateId with
 | some id => (lookup (·.id) id c.listVmTemplates).map (·.spec)
 | none => vm.customTemplateId.bind fun id => (c.getCustomVmTemplate id).map (·.spec)

def countedVms (hostId : Nat) : List Vm := (c.listVmsOnHost hostId).filter c.isPaid

def counted (hostId : Nat) (use : VmSpec → Nat) : Nat :=
 total (fun _ => true) (fun vm => ((c.vmResources vm).map use).getD 0) (c.countedVms hostId)

def countedOnDisk (hostId diskId : Nat) : Nat :=
 total (fun vm => vm.diskId = diskId) (fun vm => ((c.vmResources vm).map (·.diskSize)).getD 0) (c.countedVms hostId)

def ofKind (kind : Option DiskType) (interface : Option DiskInterface) (d : VmHostDisk) : Bool :=
 kind.all (d.kind = ·) ∧ interface.all (d.interface = ·)

def getHostCapacity (host : VmHost) (kind : Option DiskType) (interface : Option DiskInterface) : HostCapacity where
 host
 cpu := c.counted host.id (·.cpu) % 2 ^ 16
 memory := c.counted host.id (·.memory) % 2 ^ 64
 disks := ((c.listHostDisks host.id).filter (ofKind kind interface)).map fun d =>
  { loadFactor := host.loadDisk, disk := d, usage := c.countedOnDisk host.id d.id % 2 ^ 64 }
 ranges := (c.listIpRangeInRegion host.regionId).map fun r =>
  { range := r, usage := (c.listVmIpAssignmentsInRange r.id).length }

inductive PlacementError
 | noAvailableHosts
 | panicked

def pickHost (m : LoadMath) : List HostCapacity → Except PlacementError HostCapacity
 | [] => .error .noAvailableHosts
 | [cap] => .ok cap
 | caps =>
  if caps.all fun cap => (m.load cap).isSome then
   match caps.insertionSort fun a b => (m.load a).getD 0 ≤ (m.load b).getD 0 with
   | cap :: _ => .ok cap
   | [] => .error .noAvailableHosts
  else .error .panicked

def hostsFor (m : LoadMath) (regionId : Nat) (spec : VmSpec) : List HostCapacity :=
 ((c.listHosts.filter fun h => h.regionId = regionId).map fun h =>
  c.getHostCapacity h (some spec.diskType) (some spec.diskInterface)).filter fun cap => cap.canAccommodate m spec

def getHostForTemplate (m : LoadMath) (regionId : Nat) (spec : VmSpec) : Except PlacementError HostCapacity :=
 pickHost m (c.hostsFor m regionId spec)

def listAvailableVmTemplates (m : LoadMath) : List VmTemplate :=
 let caps := c.listHosts.map fun h => c.getHostCapacity h none none
 c.listVmTemplates.filter fun t =>
  (caps.filter fun cap => cap.host.regionId = t.regionId).any fun cap => cap.canAccommodate m t.spec

def usedSpec (vm : Vm) : Option VmSpec :=
 match vm.templateId with
 | some id => (c.db.getVmTemplate id).map (·.spec)
 | none => vm.customTemplateId.bind fun id => (c.getCustomVmTemplate id).map (·.spec)

def used (hostId : Nat) (use : VmSpec → Nat) : Nat :=
 total (fun _ => true) (fun vm => ((c.usedSpec vm).map use).getD 0) (c.countedVms hostId)

def usedOnDisk (hostId diskId : Nat) : Nat :=
 total (fun vm => vm.diskId = diskId) (fun vm => ((c.usedSpec vm).map (·.diskSize)).getD 0) (c.countedVms hostId)

def withdrawn (vm : Vm) : Option VmSpec :=
 vm.templateId.bind fun id => (c.db.getVmTemplate id).bind fun t => if t.enabled then none else some t.spec

def UsageExact (cap : HostCapacity) : Prop :=
 cap.cpu = c.used cap.host.id (·.cpu) ∧ cap.memory = c.used cap.host.id (·.memory) ∧
  ∀ d ∈ cap.disks, d.usage = c.usedOnDisk cap.host.id d.disk.id

def Accounted (host : VmHost) (disks : List VmHostDisk) : Prop :=
 c.used host.id (·.cpu) < 2 ^ 16 ∧ c.used host.id (·.memory) < 2 ^ 64 ∧
  (∀ d ∈ disks, c.usedOnDisk host.id d.id < 2 ^ 64) ∧
  ∀ vm ∈ c.countedVms host.id, ∀ spec ∈ c.withdrawn vm,
   spec.cpu = 0 ∧ spec.memory = 0 ∧ ∀ d ∈ disks, vm.diskId = d.id → spec.diskSize = 0

instance (host : VmHost) (disks : List VmHostDisk) : Decidable (c.Accounted host disks) :=
 inferInstanceAs (Decidable (_ ∧ _))

instance (cap : HostCapacity) : Decidable (c.UsageExact cap) := inferInstanceAs (Decidable (_ ∧ _))

variable {c}

theorem vmResources_cases (hkeyed : Keyed (·.id) c.db.templates) (vm : Vm) :
  (c.withdrawn vm = none ∧ c.vmResources vm = c.usedSpec vm) ∨
   ∃ spec, c.withdrawn vm = some spec ∧ c.usedSpec vm = some spec ∧ c.vmResources vm = none := by
 unfold withdrawn vmResources usedSpec
 cases vm.templateId with
 | none => exact .inl ⟨rfl, rfl⟩
 | some id =>
  simp only [listVmTemplates, hkeyed.lookup_filter, Option.bind_some, Db.getVmTemplate]
  cases lookup (·.id) id c.db.templates with
  | none => exact .inl ⟨rfl, rfl⟩
  | some t => cases hon : t.enabled <;> simp [hon]

theorem counted_value (hkeyed : Keyed (·.id) c.db.templates) (use : VmSpec → Nat) (vm : Vm) :
  ((c.vmResources vm).map use).getD 0 ≤ ((c.usedSpec vm).map use).getD 0 ∧
   (((c.vmResources vm).map use).getD 0 = ((c.usedSpec vm).map use).getD 0 ↔
    ∀ spec, c.withdrawn vm = some spec → use spec = 0) := by
 rcases vmResources_cases hkeyed vm with ⟨hwithdrawn, heq⟩ | ⟨spec, hwithdrawn, hused, hnone⟩
 · simp [hwithdrawn, heq]
 · simp [hwithdrawn, hused, hnone, eq_comm]

theorem wrapped_eq_iff {n n' size : Nat} (hle : n ≤ n') (hsize : 0 < size) : n % size = n' ↔ n' < size ∧ n = n' := by
 constructor
 · intro h
   have hlt := Nat.mod_lt n hsize
   have hmod := Nat.mod_le n size
   omega
 · rintro ⟨hlt, rfl⟩
   exact Nat.mod_eq_of_lt hlt

theorem counted_exact_iff (hkeyed : Keyed (·.id) c.db.templates) (p : Vm → Bool) (use : VmSpec → Nat) (vms : List Vm)
  {size : Nat} (hsize : 0 < size) :
  total p (fun vm => ((c.vmResources vm).map use).getD 0) vms % size =
    total p (fun vm => ((c.usedSpec vm).map use).getD 0) vms ↔
   total p (fun vm => ((c.usedSpec vm).map use).getD 0) vms < size ∧
    ∀ vm ∈ vms, p vm = true → ∀ spec, c.withdrawn vm = some spec → use spec = 0 := by
 have hle : ∀ vm ∈ vms, ((c.vmResources vm).map use).getD 0 ≤ ((c.usedSpec vm).map use).getD 0 :=
  fun vm _ => (counted_value hkeyed use vm).1
 rw [wrapped_eq_iff (total_mono hle) hsize, total_eq_iff hle]
 simp only [(counted_value hkeyed use _).2]

theorem usage_exact_iff (hkeyed : Keyed (·.id) c.db.templates) (host : VmHost) (kind : Option DiskType)
  (interface : Option DiskInterface) : c.UsageExact (c.getHostCapacity host kind interface) ↔
   c.Accounted host ((c.listHostDisks host.id).filter (ofKind kind interface)) := by
 unfold UsageExact Accounted
 simp only [getHostCapacity, forall_mem_map, counted, used, countedOnDisk, usedOnDisk,
  counted_exact_iff hkeyed _ _ _ (Nat.two_pow_pos _), decide_eq_true_eq]
 constructor
 · rintro ⟨⟨hcpu, hcpus⟩, ⟨hmemory, hmemories⟩, hdisk⟩
   refine ⟨hcpu, hmemory, fun d hd => (hdisk d hd).1, fun vm hvm spec hspec => ?_⟩
   exact ⟨hcpus vm hvm trivial spec hspec, hmemories vm hvm trivial spec hspec,
    fun d hd hon => (hdisk d hd).2 vm hvm hon spec hspec⟩
 rintro ⟨hcpu, hmemory, hdisk, hvms⟩
 refine ⟨⟨hcpu, fun vm hvm _ spec hspec => (hvms vm hvm spec hspec).1⟩,
  ⟨hmemory, fun vm hvm _ spec hspec => (hvms vm hvm spec hspec).2.1⟩, fun d hd => ⟨hdisk d hd, ?_⟩⟩
 exact fun vm hvm hon spec hspec => (hvms vm hvm spec hspec).2.2 d hd hon

variable {m : LoadMath} {regionId : Nat} {spec spec' : VmSpec} {cap : HostCapacity} {caps caps' : List HostCapacity}
 {host : VmHost}

def Comparable (m : LoadMath) (caps : List HostCapacity) : Prop :=
 caps.length ≤ 1 ∨ ∀ cap ∈ caps, (m.load cap).isSome = true

instance : Decidable (Comparable m caps) := inferInstanceAs (Decidable (_ ∨ _))

theorem Comparable.sublist (h : Comparable m caps') (hsub : caps.Sublist caps') : Comparable m caps := by
 rcases h with hlen | hall
 · have := hsub.length_le
   exact .inl (by omega)
 · exact .inr fun cap hcap => hall cap (hsub.subset hcap)

theorem mem_of_pickHost (h : pickHost m caps = .ok cap) : cap ∈ caps := by
 match caps with
 | [] => cases h
 | [single] =>
  cases h
  exact mem_singleton_self _
 | first :: second :: rest =>
  simp only [pickHost] at h
  split at h
  · split at h
    · rename_i hsort
      rw [← Except.ok.inj h, ← mem_insertionSort (fun a b => (m.load a).getD 0 ≤ (m.load b).getD 0), hsort]
      exact mem_cons_self
    · cases h
  · cases h

theorem pickHost_ok_iff : (∃ cap, pickHost m caps = .ok cap) ↔ caps ≠ [] ∧ Comparable m caps := by
 match caps with
 | [] => simp [pickHost]
 | [single] => simp [pickHost, Comparable]
 | first :: second :: rest =>
  have hcomp : Comparable m (first :: second :: rest) ↔
    ((first :: second :: rest).all fun cap => (m.load cap).isSome) = true := by
   rw [all_eq_true]
   exact ⟨fun h => h.resolve_left (by simp), .inr⟩
  rw [hcomp]
  simp only [pickHost]
  split
  · rename_i hall
    rcases hsort : (first :: second :: rest).insertionSort
     (fun a b => (m.load a).getD 0 ≤ (m.load b).getD 0) with _ | ⟨cap, _⟩
    · have hlen := length_insertionSort
       (fun a b : HostCapacity => (m.load a).getD 0 ≤ (m.load b).getD 0) (first :: second :: rest)
      rw [hsort] at hlen
      simp at hlen
    · simp [hall]
  · rename_i hall
    simp [hall]

theorem mem_hostsFor : cap ∈ c.hostsFor m regionId spec ↔ cap.canAccommodate m spec = true ∧
  ∃ h ∈ c.listHosts, h.regionId = regionId ∧
   c.getHostCapacity h (some spec.diskType) (some spec.diskInterface) = cap := by
 simp only [hostsFor, mem_filter, mem_map, decide_eq_true_eq]
 constructor
 · rintro ⟨⟨h, ⟨hmem, hregion⟩, rfl⟩, haccept⟩
   exact ⟨haccept, h, hmem, hregion, rfl⟩
 · rintro ⟨haccept, h, hmem, hregion, rfl⟩
   exact ⟨⟨h, ⟨hmem, hregion⟩, rfl⟩, haccept⟩

theorem getHostForTemplate_ok_iff : (∃ cap, c.getHostForTemplate m regionId spec = .ok cap) ↔
  c.hostsFor m regionId spec ≠ [] ∧ Comparable m (c.hostsFor m regionId spec) := pickHost_ok_iff

theorem canAccommodate_iff : cap.canAccommodate m spec = true ↔ cap.matchesCpu spec = true ∧
  spec.cpu ≤ cap.availableCpu m ∧ spec.memory ≤ cap.availableMemory m ∧
  (∃ d ∈ cap.disks, spec.diskSize ≤ d.availableCapacity m) ∧ cap.hasIpv4 = true := by
 simp [HostCapacity.canAccommodate]

variable {kind : Option DiskType} {interface : Option DiskInterface}

theorem disks_subset {d : DiskCapacity}
  (h : d ∈ (c.getHostCapacity host kind interface).disks) : d ∈ (c.getHostCapacity host none none).disks := by
 obtain ⟨row, hrow, rfl⟩ := mem_map.mp h
 refine mem_map.mpr ⟨row, ?_, rfl⟩
 exact mem_filter.mpr ⟨mem_of_mem_filter hrow, by simp [ofKind]⟩

theorem canAccommodate_of_kind (h : (c.getHostCapacity host kind interface).canAccommodate m spec = true) :
  (c.getHostCapacity host none none).canAccommodate m spec = true := by
 obtain ⟨hcpu, hcores, hmemory, ⟨d, hd, hroom⟩, hip⟩ := canAccommodate_iff.mp h
 exact canAccommodate_iff.mpr ⟨hcpu, hcores, hmemory, ⟨d, disks_subset hd, hroom⟩, hip⟩

end CapacityDb

end Lnvps
