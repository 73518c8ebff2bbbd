import Lnvps.IpUniqueness
import Lnvps.Pve

/-! # The addresses a VM may use -/

namespace Lnvps.IpFilter

open Net Steps Remote Pve List

inductive WorkJob
 | spawnVm (vmId : Nat)
 | assignVmIp (vmId ipRangeId : Nat) (ip : Option String)
 | unassignVmIp (assignmentId : Nat)
 | updateVmIp (assignmentId : Nat)
 | configureVm (vmId : Nat)
 | applyVmFirewall (vmId : Nat)
 deriving DecidableEq

structure State where
 net : NetworkDb
 hypervisor : Nat → Option PveVm := fun _ => none
 queue : List WorkJob := []
 unapplied : List Nat := []

structure Circumstances where
 now : Int := 0
 choices : Choices := {}
 fw : FirewallConfig := {}
 hasResources : Bool := true
 (fwPolicyIn fwPolicyOut : Option FirewallAction := none)
 firewallRules : List VmFirewallRule := []
 accepts : PveRule → Bool := fun _ => true

def Circumstances.host (c : Circumstances) : FirewallConfig := { c.fw with enable := some true }

def Circumstances.info (c : Circumstances) (net : NetworkDb) (ips : List VmIpAssignment) : FullVmInfo where
 ips
 ranges := net.ipRanges.filter fun r => ips.any fun ip => ip.ipRangeId = r.id
 hasResources := c.hasResources
 fwPolicyIn := c.fwPolicyIn
 fwPolicyOut := c.fwPolicyOut
 firewallRules := c.firewallRules

variable (text : IpText)

def patched (c : Circumstances) (cfg : FullVmInfo) (pve : PveVm) : Option PveVm :=
 match exec (handle c.accepts) (patchFirewall text (some c.host) cfg) pve with
 | (some _, pve) => some pve
 | (none, _) => none

variable (s : State)

def State.setVm (vmId : Nat) (pve : PveVm) : State := { s with
 hypervisor := fun id => if id = vmId then some pve else s.hypervisor id }

def State.applied (vmId : Nat) (pve : PveVm) : State := { s.setVm vmId pve with
 unapplied := s.unapplied.filter (· ≠ vmId) }

def pendingRow (vmId : Nat) (p : PendingIp) : VmIpAssignment where
 id := 0
 vmId
 ipRangeId := p.ipRangeId
 ip := p.ip

variable (net : NetworkDb)

def saveIps (vmId : Nat) (pending : List PendingIp) : NetworkDb :=
 pending.foldl (fun net p => net.insertVmIpAssignment vmId p.ipRangeId p.ip) net

def spawnVmInternal (c : Circumstances) (vmId : Nat) : Option State :=
 if (s.hypervisor vmId).isSome then none
 else do
  let (net, pending) ← spawnVm text s.net vmId c.choices
  let cfg := c.info s.net (s.net.listVmIpAssignments vmId ++ pending.map (pendingRow vmId))
  let expected ← makeConfig text cfg
  let pve ← patched text c cfg { ipConfig := some expected }
  some { s.applied vmId pve with net := saveIps net vmId pending }

def spawnJob (c : Circumstances) (vmId : Nat) : Option State := do
 let vm ← s.net.db.getVm vmId
 let expires := (s.net.db.getSubscriptionByLineItemId vm.subscriptionLineItemId).bind (·.expires)
 if vm.macAddress.isNone then spawnVmInternal text s c vmId
 else if (s.hypervisor vmId).isNone && !vm.deleted && expires.any (c.now < ·) then spawnVmInternal text s c vmId
 else some s

def assignJob (c : Circumstances) (vmId ipRangeId : Nat) (ip : Option String) : Option State := do
 let p ← assignVmIp text s.net vmId ipRangeId ip c.choices
 some { s with
  net := s.net.insertVmIpAssignment vmId p.ipRangeId p.ip
  queue := s.queue ++ [.configureVm vmId]
  unapplied := vmId :: s.unapplied }

def assignmentOf (assignmentId : Nat) : Option (VmIpAssignment × Vm) := do
 let assignment ← net.getVmIpAssignment assignmentId
 let _ ← net.getIpRange assignment.ipRangeId
 let vm ← net.db.getVm assignment.vmId
 some (assignment, vm)

def unassignJob (assignmentId : Nat) : Option State := do
 let (assignment, vm) ← assignmentOf s.net assignmentId
 some { s with
  net := s.net.deleteVmIpAssignment assignment.id
  queue := s.queue ++ [.configureVm vm.id] }

def updateJob (assignmentId : Nat) : Option State := do
 let (_, vm) ← assignmentOf s.net assignmentId
 some { s with queue := s.queue ++ [.configureVm vm.id] }

def existingVm (vmId : Nat) : Option PveVm := do
 let vm ← s.net.db.getVm vmId
 if vm.deleted then none else s.hypervisor vmId

def configureJob (c : Circumstances) (vmId : Nat) : Option State := do
 let pve ← existingVm s vmId
 let expected ← makeConfig text (c.info s.net (s.net.listVmIpAssignments vmId))
 some (s.setVm vmId { pve with ipConfig := some expected })

def applyJob (c : Circumstances) (vmId : Nat) : Option State := do
 let pve ← existingVm s vmId
 let pve ← patched text c (c.info s.net (s.net.listVmIpAssignments vmId)) pve
 some (s.applied vmId pve)

def runJob (c : Circumstances) : WorkJob → Option State
 | .spawnVm vmId => spawnJob text s c vmId
 | .assignVmIp vmId ipRangeId ip => assignJob text s c vmId ipRangeId ip
 | .unassignVmIp assignmentId => unassignJob s assignmentId
 | .updateVmIp assignmentId => updateJob s assignmentId
 | .configureVm vmId => configureJob text s c vmId
 | .applyVmFirewall vmId => applyJob text s c vmId

inductive Label
 | enqueue (job : WorkJob)
 | adminUpdate (assignmentId : Nat) (ip : Option String)
 | work (c : Circumstances)

def step : Label → Option State
 | .enqueue job => some { s with queue := s.queue ++ [job] }
 | .adminUpdate assignmentId ip => do
  let assignment ← adminUpdateVmIpAssignment text s.net assignmentId ip
  some { s with
   net := s.net.updateIp assignment
   queue := s.queue ++ [.updateVmIp assignment.id]
   unapplied := if ip.isSome then assignment.vmId :: s.unapplied else s.unapplied }
 | .work c =>
  match s.queue with
  | [] => none
  | job :: rest => runJob text { s with queue := rest } c job

variable (row : VmIpAssignment)

def addressText : Option String := (text.parse row.ip).map text.format

def assigned (vmId : Nat) : List String := addressTexts text (net.listVmIpAssignments vmId)

def entriesOf (vmId : Nat) : List String := ((s.hypervisor vmId).map PveVm.entries).getD []

def Exact : Prop :=
 ∀ vmId pve, s.hypervisor vmId = some pve → ∀ e, e ∈ pve.entries ↔ e ∈ assigned text s.net vmId

def isSpare : Bool :=
 row.deleted || (addressText text row).all fun e => e ∉ entriesOf s row.vmId ||
  (s.net.listVmIpAssignments row.vmId).any fun i => i.id ≠ row.id && addressText text i = some e

def updatedRow (ip : Option String) : VmIpAssignment :=
 { row with ip := (ip.map text.trim).getD row.ip }

def takesSpare : WorkJob → Bool
 | .unassignVmIp assignmentId => (s.net.getVmIpAssignment assignmentId).all (isSpare text s)
 | _ => true

def queuesNothing : WorkJob → Bool
 | .spawnVm _ => true
 | .configureVm _ => true
 | .applyVmFirewall _ => true
 | _ => false

def isLastApplied (job : WorkJob) : Bool :=
 s.unapplied.all fun vmId => (s.hypervisor vmId).isNone || job = .applyVmFirewall vmId

def followsUp : Label → Bool
 | .enqueue _ => true
 | .adminUpdate assignmentId ip => (s.net.getVmIpAssignment assignmentId).all fun row =>
   isSpare text s row || addressText text (updatedRow text row ip) = addressText text row
 | .work _ =>
  match s.queue with
  | [] => true
  | job :: rest => takesSpare text s job && (!(rest.isEmpty && queuesNothing job) || isLastApplied s job)

variable {text} {net : NetworkDb} {s t : State} {vmId : Nat} {e : String}

structure Gives (text : IpText) (row : VmIpAssignment) (vmId : Nat) (e : String) : Prop where
 vm : row.vmId = vmId
 live : row.deleted = false
 address : addressText text row = some e

theorem mem_addressTexts {ips : List VmIpAssignment} :
  e ∈ addressTexts text ips ↔ ∃ i ∈ ips, addressText text i = some e :=
 mem_filterMap

theorem mem_assigned : e ∈ assigned text net vmId ↔ ∃ i ∈ net.vmIpAssignments, Gives text i vmId e := by
 rw [assigned, mem_addressTexts]
 constructor
 · rintro ⟨i, hi, he⟩
   obtain ⟨hmem, hrow⟩ := mem_filter.mp hi
   simp only [Bool.not_eq_true', decide_eq_true_eq] at hrow
   exact ⟨i, hmem, hrow.1, hrow.2, he⟩
 · rintro ⟨i, hmem, hvm, hlive, he⟩
   exact ⟨i, mem_filter.mpr ⟨hmem, by simp [hvm, hlive]⟩, he⟩

variable {id : Nat} {pending : List PendingIp} {row u : VmIpAssignment} {c : Circumstances} {pve : PveVm}
 {job : WorkJob}

theorem mem_assigned_insert {p : PendingIp} :
  e ∈ assigned text (net.insertVmIpAssignment id p.ipRangeId p.ip) vmId ↔
   e ∈ assigned text net vmId ∨ id = vmId ∧ addressText text (pendingRow id p) = some e := by
 have hnew : Gives text { id := net.nextId, vmId := id, ipRangeId := p.ipRangeId, ip := p.ip } vmId e ↔
   id = vmId ∧ addressText text (pendingRow id p) = some e :=
  ⟨fun h => ⟨h.vm, h.address⟩, fun h => ⟨h.1, rfl, h.2⟩⟩
 rw [mem_assigned, mem_assigned, ← hnew]
 simp only [NetworkDb.insertVmIpAssignment, mem_append, mem_singleton, or_and_right, exists_or,
  exists_eq_left]

theorem mem_assigned_saveIps :
  e ∈ assigned text (saveIps net id pending) vmId ↔
   e ∈ assigned text net vmId ∨ id = vmId ∧ e ∈ addressTexts text (pending.map (pendingRow id)) := by
 induction pending generalizing net with
 | nil => simp [saveIps, addressTexts]
 | cons p pending ih =>
  rw [saveIps, foldl_cons, ← saveIps, ih, mem_assigned_insert, mem_addressTexts, mem_addressTexts, map_cons]
  simp only [mem_cons, or_and_right, exists_or, exists_eq_left, and_or_left, or_assoc]

open Provisioning Table

theorem mem_assigned_split (hk : NetworkKeys net) (hrow : row ∈ net.vmIpAssignments) :
  e ∈ assigned text net vmId ↔
   (∃ i ∈ net.vmIpAssignments, i.id ≠ row.id ∧ Gives text i vmId e) ∨ Gives text row vmId e := by
 rw [mem_assigned]
 constructor
 · rintro ⟨i, hi, hgives⟩
   by_cases hid : i.id = row.id
   · obtain rfl := hk.assignments.eq_of_key hi hrow hid
     exact .inr hgives
   · exact .inl ⟨i, hi, hid, hgives⟩
 · rintro (⟨i, hi, -, hgives⟩ | hgives)
   · exact ⟨i, hi, hgives⟩
   · exact ⟨row, hrow, hgives⟩

theorem mem_assigned_delete : e ∈ assigned text (net.deleteVmIpAssignment id) vmId ↔
  ∃ i ∈ net.vmIpAssignments, i.id ≠ id ∧ Gives text i vmId e := by
 rw [mem_assigned]
 constructor
 · rintro ⟨i, hi, hgives⟩
   obtain ⟨r, hr, rfl⟩ := mem_updateWhere.mp hi
   by_cases hid : r.id = id
   · rw [if_pos (decide_eq_true hid)] at hgives
     cases hgives.live
   · rw [if_neg (by simpa using hid)] at hgives
     exact ⟨r, hr, hid, hgives⟩
 · rintro ⟨i, hi, hid, hgives⟩
   exact ⟨i, mem_updateWhere_of_not hi (by simpa using hid), hgives⟩

theorem mem_assigned_updateIp (hk : NetworkKeys net) (hrow : row ∈ net.vmIpAssignments)
  (hid : u.id = row.id) (hdeleted : u.deleted = row.deleted) :
  e ∈ assigned text (net.updateIp u) vmId ↔
   (∃ i ∈ net.vmIpAssignments, i.id ≠ row.id ∧ Gives text i vmId e) ∨ Gives text u vmId e := by
 rw [mem_assigned]
 constructor
 · rintro ⟨i, hi, hgives⟩
   rcases mem_updateIp hi with ⟨hi, hne⟩ | ⟨r, hr, hrid, rfl⟩
   · exact .inl ⟨i, hi, hid ▸ hne, hgives⟩
   · obtain rfl := hk.assignments.eq_of_key hr hrow (hrid.trans hid)
     exact .inr ⟨hgives.vm, hdeleted.trans hgives.live, hgives.address⟩
 · rintro (⟨i, hi, hne, hgives⟩ | hgives)
   · exact ⟨i, mem_updateWhere_of_not hi (by simpa [hid] using hne), hgives⟩
   · exact ⟨_, mem_updateWhere_of hrow (by simp [hid]), hgives.vm, hdeleted.symm.trans hgives.live, hgives.address⟩

theorem exists_other_of_isSpare (h : isSpare text s row = true) (hgives : Gives text row vmId e)
  (he : e ∈ entriesOf s vmId) : ∃ i ∈ s.net.vmIpAssignments, i.id ≠ row.id ∧ Gives text i vmId e := by
 obtain ⟨rfl, hlive, haddress⟩ := hgives
 rw [isSpare, hlive, haddress] at h
 simp only [Bool.false_or, Option.all_some, he, not_true_eq_false, decide_false] at h
 obtain ⟨i, hi, hother⟩ := any_eq_true.mp h
 obtain ⟨hmem, hrow⟩ := mem_filter.mp hi
 simp only [Bool.and_eq_true, decide_eq_true_eq, Bool.not_eq_true'] at hrow hother
 exact ⟨i, hmem, hother.1, hrow.1, hrow.2, hother.2⟩

theorem mem_entries_patched {cfg : FullVmInfo} {pve' : PveVm}
  (h : patched text c cfg pve = some pve') : e ∈ pve'.entries ↔ e ∈ pve.entries ∨ e ∈ addressTexts text cfg.ips := by
 have hends := exec_ends (handle c.accepts) (patchFirewall text (some c.host) cfg) pve
 rw [patched] at h
 split at h
 · rename_i u _ hexec
   cases h
   rw [hexec] at hends
   obtain ⟨expected, -, hsync⟩ := ends_patchFirewall.mp hends
   have hfw : enabledFirewall (some c.host) = some c.host := rfl
   rw [hfw] at hsync
   obtain ⟨-, -, rfl⟩ := hsync
   change e ∈ allEntries text cfg pve ↔ _
   rw [allEntries, newAddresses, mem_append, mem_filter]
   simp only [decide_eq_true_eq]
   tauto
 · cases h

inductive Effect (text : IpText) (s : State) : WorkJob → State → Prop
 | checked (vmId : Nat) : Effect text s (.spawnVm vmId) s
 | spawned {vmId : Nat} {net : NetworkDb} {pending : List PendingIp} {pve : PveVm}
   (hkeys : NetworkKeys s.net → NetworkKeys net) (hrows : net.vmIpAssignments = s.net.vmIpAssignments)
   (hentries : ∀ e, e ∈ pve.entries ↔
    e ∈ assigned text s.net vmId ∨ e ∈ addressTexts text (pending.map (pendingRow vmId))) :
   Effect text s (.spawnVm vmId) { s.applied vmId pve with net := saveIps net vmId pending }
 | assigned (vmId ipRangeId : Nat) (ip : Option String) (p : PendingIp) :
   Effect text s (.assignVmIp vmId ipRangeId ip) { s with
    net := s.net.insertVmIpAssignment vmId p.ipRangeId p.ip
    queue := s.queue ++ [.configureVm vmId]
    unapplied := vmId :: s.unapplied }
 | unassigned {assignmentId : Nat} {row : VmIpAssignment} (hrow : s.net.getVmIpAssignment assignmentId = some row)
   (vmId : Nat) :
   Effect text s (.unassignVmIp assignmentId) { s with
    net := s.net.deleteVmIpAssignment row.id
    queue := s.queue ++ [.configureVm vmId] }
 | updated (assignmentId vmId : Nat) :
   Effect text s (.updateVmIp assignmentId) { s with queue := s.queue ++ [.configureVm vmId] }
 | configured {vmId : Nat} {pve : PveVm} (hpve : s.hypervisor vmId = some pve) (ipConfig : Option String) :
   Effect text s (.configureVm vmId) (s.setVm vmId { pve with ipConfig })
 | applied {vmId : Nat} {pve pve' : PveVm} (hpve : s.hypervisor vmId = some pve)
   (hentries : ∀ e, e ∈ pve'.entries ↔ e ∈ pve.entries ∨ e ∈ assigned text s.net vmId) :
   Effect text s (.applyVmFirewall vmId) (s.applied vmId pve')

theorem spawnVm_rows {net' : NetworkDb} {c : Choices}
  (h : spawnVm text net vmId c = some (net', pending)) : net'.vmIpAssignments = net.vmIpAssignments := by
 obtain ⟨vm, -, h⟩ := Option.bind_eq_some_iff.mp h
 obtain ⟨pending', -, h⟩ := Option.bind_eq_some_iff.mp h
 split at h
 · cases h
   rfl
 · cases h

theorem spawnVmInternal_effect (h : spawnVmInternal text s c vmId = some t) : Effect text s (.spawnVm vmId) t := by
 rw [spawnVmInternal] at h
 split at h
 · cases h
 obtain ⟨⟨net, pending⟩, hspawn, h⟩ := Option.bind_eq_some_iff.mp h
 obtain ⟨expected, -, h⟩ := Option.bind_eq_some_iff.mp h
 obtain ⟨pve, hpatched, h⟩ := Option.bind_eq_some_iff.mp h
 cases h
 refine .spawned (fun hk => (spawnVm_spec hk hspawn).1) (spawnVm_rows hspawn) fun e => ?_
 rw [mem_entries_patched hpatched]
 simp [Circumstances.info, PveVm.entries, addressTexts, assigned]

theorem existingVm_eq (h : existingVm s vmId = some pve) : s.hypervisor vmId = some pve := by
 obtain ⟨vm, -, h⟩ := Option.bind_eq_some_iff.mp h
 split at h
 · cases h
 · exact h

theorem runJob_effect (h : runJob text s c job = some t) : Effect text s job t := by
 cases job with
 | spawnVm vmId =>
  obtain ⟨vm, -, h⟩ := Option.bind_eq_some_iff.mp h
  simp only at h
  split at h
  · exact spawnVmInternal_effect h
  split at h
  · exact spawnVmInternal_effect h
  · cases h
    exact .checked vmId
 | assignVmIp vmId ipRangeId ip =>
  obtain ⟨p, -, h⟩ := Option.bind_eq_some_iff.mp h
  cases h
  exact .assigned vmId ipRangeId ip p
 | unassignVmIp assignmentId =>
  obtain ⟨⟨row, vm⟩, hrows, h⟩ := Option.bind_eq_some_iff.mp h
  cases h
  obtain ⟨row', hrow, hrows⟩ := Option.bind_eq_some_iff.mp hrows
  obtain ⟨range, -, hrows⟩ := Option.bind_eq_some_iff.mp hrows
  obtain ⟨vm', -, hrows⟩ := Option.bind_eq_some_iff.mp hrows
  obtain ⟨rfl, rfl⟩ := Prod.mk.inj (Option.some.inj hrows)
  exact .unassigned hrow vm'.id
 | updateVmIp assignmentId =>
  obtain ⟨⟨row, vm⟩, -, h⟩ := Option.bind_eq_some_iff.mp h
  cases h
  exact .updated assignmentId vm.id
 | configureVm vmId =>
  obtain ⟨pve, hpve, h⟩ := Option.bind_eq_some_iff.mp h
  obtain ⟨expected, -, h⟩ := Option.bind_eq_some_iff.mp h
  cases h
  exact .configured (existingVm_eq hpve) (some expected)
 | applyVmFirewall vmId =>
  obtain ⟨pve, hpve, h⟩ := Option.bind_eq_some_iff.mp h
  obtain ⟨pve', hpatched, h⟩ := Option.bind_eq_some_iff.mp h
  cases h
  exact .applied (existingVm_eq hpve) fun e => mem_entries_patched hpatched

structure SetsInv (text : IpText) (s : State) : Prop where
 keys : NetworkKeys s.net
 sound : ∀ vmId pve, s.hypervisor vmId = some pve → ∀ e ∈ pve.entries, e ∈ assigned text s.net vmId
 complete : ∀ vmId pve, s.hypervisor vmId = some pve → vmId ∉ s.unapplied →
  ∀ e ∈ assigned text s.net vmId, e ∈ pve.entries

structure Inv (text : IpText) (s : State) : Prop extends SetsInv text s where
 drained : s.queue = [] → ∀ vmId ∈ s.unapplied, s.hypervisor vmId = none

theorem mem_entriesOf (h : s.hypervisor vmId = some pve) : e ∈ entriesOf s vmId ↔ e ∈ pve.entries := by
 rw [entriesOf, h]
 rfl

theorem SetsInv.exact {net' : NetworkDb} (h : SetsInv text s) (hkeys : NetworkKeys net')
  (hexact : ∀ e, e ∈ pve.entries ↔ e ∈ assigned text net' vmId)
  (hothers : ∀ v ≠ vmId, ∀ e, e ∈ assigned text net' v ↔ e ∈ assigned text s.net v) :
  SetsInv text { s.applied vmId pve with net := net' } := by
 refine ⟨hkeys, fun v pve' hpve e he => ?_, fun v pve' hpve hv e he => ?_⟩
 · change (if v = vmId then some pve else s.hypervisor v) = some pve' at hpve
   split at hpve
   · rename_i hvm
     cases hpve
     rw [hvm]
     exact (hexact e).mp he
   · rename_i hvm
     exact (hothers v hvm e).mpr (h.sound v pve' hpve e he)
 · change (if v = vmId then some pve else s.hypervisor v) = some pve' at hpve
   split at hpve
   · rename_i hvm
     cases hpve
     rw [hvm] at he
     exact (hexact e).mpr he
   · rename_i hvm
     have hold : v ∉ s.unapplied := fun hmem => hv (mem_filter.mpr ⟨hmem, by simpa using hvm⟩)
     exact h.complete v pve' hpve hold e ((hothers v hvm e).mp he)

theorem keys_saveIps (hk : NetworkKeys net) : NetworkKeys (saveIps net id pending) := by
 induction pending generalizing net with
 | nil => exact hk
 | cons p pending ih => exact ih (keys_insert hk)

theorem effect_sets (h : SetsInv text s) (hspare : takesSpare text s job = true)
  (he : Effect text s job t) : SetsInv text t := by
 cases he with
 | checked => exact h
 | @spawned vmId net pending pve hkeys hrows hentries =>
  have hassigned : ∀ v e, e ∈ assigned text net v ↔ e ∈ assigned text s.net v := by
   intro v e
   rw [mem_assigned, mem_assigned, hrows]
  refine h.exact (keys_saveIps (hkeys h.keys)) (fun e => ?_) fun v hv e => ?_
  · rw [hentries, mem_assigned_saveIps, hassigned]
    simp
  · rw [mem_assigned_saveIps, hassigned]
    simp [hv.symm]
 | assigned vmId ipRangeId ip p =>
  refine ⟨keys_insert h.keys, fun v pve hpve e he => ?_, fun v pve hpve hv e he => ?_⟩
  · exact mem_assigned_insert.mpr (.inl (h.sound v pve hpve e he))
  obtain ⟨hne, hold⟩ := not_or.mp (mem_cons.not.mp hv)
  rcases mem_assigned_insert.mp he with he | ⟨rfl, -⟩
  · exact h.complete v pve hpve hold e he
  · exact absurd rfl hne
 | @unassigned assignmentId row hrow vmId =>
  have hmem := mem_of_lookup hrow
  have hspare : isSpare text s row = true := by
   rw [takesSpare, hrow] at hspare
   exact hspare
  refine ⟨keys_delete h.keys, fun v pve hpve e he => ?_, fun v pve hpve hv e he => ?_⟩
  · refine mem_assigned_delete.mpr ?_
    rcases (mem_assigned_split h.keys hmem).mp (h.sound v pve hpve e he) with hother | hgives
    · exact hother
    · exact exists_other_of_isSpare hspare hgives ((mem_entriesOf hpve).mpr he)
  · obtain ⟨i, hi, -, hgives⟩ := mem_assigned_delete.mp he
    exact h.complete v pve hpve hv e (mem_assigned.mpr ⟨i, hi, hgives⟩)
 | updated => exact ⟨h.keys, h.sound, h.complete⟩
 | @configured vmId pve hpve ipConfig =>
  have hold : ∀ v pve', (s.setVm vmId { pve with ipConfig }).hypervisor v = some pve' →
    ∃ pve₀, s.hypervisor v = some pve₀ ∧ pve'.entries = pve₀.entries := by
   intro v pve' hpve'
   change (if v = vmId then some { pve with ipConfig } else s.hypervisor v) = some pve' at hpve'
   split at hpve'
   · rename_i hvm
     cases hpve'
     exact ⟨pve, by rw [hvm, hpve], rfl⟩
   · exact ⟨pve', hpve', rfl⟩
  refine ⟨h.keys, fun v pve' hpve' e he => ?_, fun v pve' hpve' hv e he => ?_⟩
  · obtain ⟨pve₀, hpve₀, heq⟩ := hold v pve' hpve'
    exact h.sound v pve₀ hpve₀ e (heq ▸ he)
  · obtain ⟨pve₀, hpve₀, heq⟩ := hold v pve' hpve'
    rw [heq]
    exact h.complete v pve₀ hpve₀ hv e he
 | @applied vmId pve pve' hpve hentries =>
  refine h.exact h.keys (fun e => ?_) fun _ _ _ => .rfl
  rw [hentries]
  exact or_iff_right_of_imp (h.sound vmId pve hpve e)

theorem effect_drained (he : Effect text s job t) (hqueue : t.queue = [])
  (hlast : queuesNothing job = true → isLastApplied s job = true) :
  ∀ vmId ∈ t.unapplied, t.hypervisor vmId = none := by
 have hnone : queuesNothing job = true → ∀ v ∈ s.unapplied, job ≠ .applyVmFirewall v → s.hypervisor v = none := by
  intro hjob v hv hne
  have := all_eq_true.mp (hlast hjob) v hv
  simpa [hne] using this
 cases he with
 | checked vmId => exact fun v hv => hnone rfl v hv nofun
 | @spawned vmId =>
  intro v hv
  obtain ⟨hold, hvm⟩ := mem_filter.mp hv
  exact (if_neg (of_decide_eq_true hvm)).trans (hnone rfl v hold nofun)
 | assigned => exact absurd hqueue (by simp)
 | unassigned => exact absurd hqueue (by simp)
 | updated => exact absurd hqueue (by simp)
 | @configured vmId pve hpve =>
  intro v hv
  have hv' := hnone rfl v hv nofun
  have hvm : v ≠ vmId := by
   rintro rfl
   rw [hv'] at hpve
   cases hpve
  exact (if_neg hvm).trans hv'
 | @applied vmId =>
  intro v hv
  obtain ⟨hold, hvm⟩ := mem_filter.mp hv
  have hvm := of_decide_eq_true hvm
  refine (if_neg hvm).trans (hnone rfl v hold fun heq => hvm ?_)
  cases heq
  rfl

theorem effect_queue (he : Effect text s job t) (hjob : queuesNothing job = true) : t.queue = s.queue := by
 cases he with
 | checked => rfl
 | spawned => rfl
 | configured => rfl
 | applied => rfl
 | assigned | unassigned | updated => cases hjob

theorem adminUpdate_eq {assignmentId : Nat} {ip : Option String}
  (h : adminUpdateVmIpAssignment text net assignmentId ip = some u) :
  ∃ row, net.getVmIpAssignment assignmentId = some row ∧ u = updatedRow text row ip := by
 obtain ⟨row, hrow, h⟩ := Option.bind_eq_some_iff.mp h
 obtain ⟨u', hu, h⟩ := Option.bind_eq_some_iff.mp h
 split at h
 · cases h
 cases h
 refine ⟨row, hrow, ?_⟩
 cases ip with
 | none => exact (Option.some.inj hu).symm
 | some ip =>
  obtain ⟨range, -, hu⟩ := Option.bind_eq_some_iff.mp hu
  split at hu
  · exact (Option.some.inj hu).symm
  · cases hu

theorem step_inv {l : Label} (h : Inv text s) (hok : followsUp text s l = true) (hs : step text s l = some t) :
  Inv text t := by
 cases l with
 | enqueue job =>
  cases hs
  exact ⟨⟨h.keys, h.sound, h.complete⟩, fun hqueue => absurd hqueue (by simp)⟩
 | adminUpdate assignmentId ip =>
  obtain ⟨u, hu, hs⟩ := Option.bind_eq_some_iff.mp hs
  obtain ⟨row, hrow, rfl⟩ := adminUpdate_eq hu
  cases hs
  have hmem := mem_of_lookup hrow
  rw [followsUp, hrow, Option.all_some, Bool.or_eq_true, decide_eq_true_eq] at hok
  have hupdate : ∀ v e, e ∈ assigned text (s.net.updateIp (updatedRow text row ip)) v ↔
    (∃ i ∈ s.net.vmIpAssignments, i.id ≠ row.id ∧ Gives text i v e) ∨ Gives text (updatedRow text row ip) v e :=
   fun v e => mem_assigned_updateIp h.keys hmem rfl rfl
  refine ⟨⟨keys_updateIp h.keys, fun v pve hpve e he => ?_, fun v pve hpve hv e he => ?_⟩,
   fun hqueue => absurd hqueue (by simp)⟩
  · refine (hupdate v e).mpr ?_
    rcases (mem_assigned_split h.keys hmem).mp (h.sound v pve hpve e he) with hother | hgives
    · exact .inl hother
    · rcases hok with hspare | hsame
      · exact .inl (exists_other_of_isSpare hspare hgives ((mem_entriesOf hpve).mpr he))
      · exact .inr ⟨hgives.vm, hgives.live, hsame.trans hgives.address⟩
  · rcases (hupdate v e).mp he with hother | hgives
    · refine h.complete v pve hpve ?_ e ((mem_assigned_split h.keys hmem).mpr (.inl hother))
      intro hold
      cases ip with
      | none => exact hv hold
      | some ip => exact hv (mem_cons_of_mem _ hold)
    · cases ip with
      | none => exact h.complete v pve hpve hv e ((mem_assigned_split h.keys hmem).mpr (.inr hgives))
      | some ip => exact absurd (mem_cons.mpr (.inl hgives.vm.symm)) hv
 | work c =>
  rw [step] at hs
  rw [followsUp] at hok
  cases hq : s.queue with
  | nil =>
   rw [hq] at hs
   cases hs
  | cons job rest =>
   rw [hq] at hs hok
   obtain ⟨hspare, hlast⟩ := Bool.and_eq_true_iff.mp hok
   have heffect := runJob_effect hs
   have hsets : SetsInv text { s with queue := rest } := ⟨h.keys, h.sound, h.complete⟩
   refine ⟨effect_sets hsets hspare heffect, fun hqueue => effect_drained heffect hqueue fun hjob => ?_⟩
   have hrest : rest = [] := (effect_queue heffect hjob).symm.trans hqueue
   rw [hrest, hjob] at hlast
   exact hlast

/-- From sets that are exact, every run that follows up its changes leads to sets that are exact, whenever the queue has
drained. Jobs may be waiting at the start. -/
theorem entries_are_assigned (text : IpText) {s t : State} {ls : List Label} (hkeys : NetworkKeys s.net)
  (hexact : Exact text s) (hunapplied : s.unapplied = [])
  (h : RunIf (step text) (fun s l => followsUp text s l = true) s ls t) (hdrained : t.queue = []) : Exact text t := by
 have h0 : Inv text s := by
  refine ⟨⟨hkeys, fun v pve hpve e => (hexact v pve hpve e).mp, fun v pve hpve _ e => (hexact v pve hpve e).mpr⟩, ?_⟩
  rw [hunapplied]
  nofun
 have ht := h.invariant (fun _ _ _ => step_inv) h0
 intro v pve hpve e
 refine ⟨ht.sound v pve hpve e, ht.complete v pve hpve ?_ e⟩
 intro hv
 rw [ht.drained hdrained v hv] at hpve
 cases hpve

def twoVms : State where
 net := { smallRange with
  db := { smallRange.db with
   vms := [{ id := 1, hostId := 1, userId := 1, subscriptionLineItemId := 1, macAddress := some 1 },
    { id := 2, hostId := 1, userId := 2, subscriptionLineItemId := 1, macAddress := some 2 }] }
  vmIpAssignments := [{ id := 1, vmId := 2, ipRangeId := 1, ip := "10.0.0.2" }]
  nextId := 2 }
 hypervisor
  | 1 => some { enable := true, ipset := some [] }
  | 2 => some { enable := true, ipset := some ["10.0.0.2"] }
  | _ => none

theorem twoVms_keys : NetworkKeys twoVms.net := ⟨by decide, by decide, by decide⟩

theorem twoVms_exact : Exact plainText twoVms := by
 have hone : assigned plainText twoVms.net 1 = [] := by decide +kernel
 have htwo : assigned plainText twoVms.net 2 = ["10.0.0.2"] := by decide +kernel
 intro v pve hpve e
 match v with
 | 0 => cases hpve
 | 1 =>
  cases hpve
  rw [hone]
  rfl
 | 2 =>
  cases hpve
  rw [htwo]
  rfl
 | _ + 3 => cases hpve

/-- The first VM gets an address and its firewall is applied before the queue drains. -/
theorem entries_are_assigned_applied : ∃ ls t,
  RunIf (step plainText) (fun s l => followsUp plainText s l = true) twoVms ls t ∧ t.queue = [] ∧
   entriesOf t 1 = ["10.0.0.3"] ∧ Exact plainText t := by
 obtain ⟨t, hrun, hqueue, hentries⟩ := RunIf.exists_of_execIf (f := step plainText) (c := followsUp plainText)
  (s := twoVms) (r := [.enqueue (.assignVmIp 1 1 (some "10.0.0.3")), .work {}, .enqueue (.applyVmFirewall 1),
   .work {}, .work {}]) (P := fun t => t.queue = [] ∧ entriesOf t 1 = ["10.0.0.3"]) (by decide +kernel)
 exact ⟨_, t, hrun, hqueue, hentries, entries_are_assigned plainText twoVms_keys twoVms_exact rfl hrun hqueue⟩

/-- The address of the second VM is moved to the first one, each job succeeds and the queue drains. The second VM keeps
the address in its set, and the first one does not get it. -/
theorem moved_address_stays_usable : NetworkKeys twoVms.net ∧ Exact plainText twoVms ∧ ∃ ls t,
  Run (step plainText) twoVms ls t ∧ t.queue = [] ∧ assigned plainText t.net 1 = ["10.0.0.2"] ∧
   assigned plainText t.net 2 = [] ∧ entriesOf t 1 = [] ∧ entriesOf t 2 = ["10.0.0.2"] ∧ ¬ Exact plainText t := by
 refine ⟨twoVms_keys, twoVms_exact, ?_⟩
 obtain ⟨t, hrun, hqueue, hone, htwo, hentriesOne, hentriesTwo, hsome⟩ : ∃ t, Run (step plainText) twoVms
   [.enqueue (.unassignVmIp 1), .enqueue (.assignVmIp 1 1 (some "10.0.0.2")), .work {}, .work {}, .work {},
    .work {}] t ∧ t.queue = [] ∧ assigned plainText t.net 1 = ["10.0.0.2"] ∧ assigned plainText t.net 2 = [] ∧
    entriesOf t 1 = [] ∧ entriesOf t 2 = ["10.0.0.2"] ∧ (t.hypervisor 2).isSome = true :=
  Run.exists_of_exec (by decide +kernel)
 refine ⟨_, t, hrun, hqueue, hone, htwo, hentriesOne, hentriesTwo, fun hexact => ?_⟩
 obtain ⟨pve, hpve⟩ := Option.isSome_iff_exists.mp hsome
 have hmem : "10.0.0.2" ∈ pve.entries := by
  rw [← mem_entriesOf hpve, hentriesTwo]
  exact List.mem_singleton.mpr rfl
 have hassigned := (hexact 2 pve hpve _).mp hmem
 rw [htwo] at hassigned
 cases hassigned

end Lnvps.IpFilter
