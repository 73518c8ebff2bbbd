import Lnvps.Lib.AddrText
import Lnvps.Lib.Run
import Lnvps.Database

/-! # Assigning addresses to VMs -/

namespace Lnvps

open Table Steps Net

structure IpText where
 parse : String → Option Addr
 format : Addr → String
 trim : String → String
 parse_format : ∀ a, parse (format a) = some a
 trim_format : ∀ a, trim (format a) = format a
 trim_trim : ∀ s, trim (trim s) = trim s

def Provisioning.plainText : IpText where
 parse s := Addr.ofText s.toList
 format a := String.ofList a.text
 trim s := String.ofList (Text.trim Char.isWhitespace s.toList)
 parse_format a := by simp [Addr.ofText_text]
 trim_format a := by
  have hdigit : ∀ c ∈ "0123456789abcdef".toList, c.isWhitespace = false := by simp
  have hblank : ∀ c ∈ a.text, c.isWhitespace = false := by
   intro c hc
   rcases Addr.mem_text hc with h | rfl
   · exact hdigit c h
   · cases a.kind <;> rfl
  simp [Text.trim_of_forall hblank]
 trim_trim s := by simp [Text.trim_trim]

inductive IpRangeAllocationMode
 | random
 | sequential
 | slaacEui64
 deriving DecidableEq

structure IpRange where
 id : Nat
 cidr : Option Network
 gateway : Option Network
 enabled : Bool := true
 regionId : Nat := 0
 allocationMode : IpRangeAllocationMode := .sequential
 useFullRange : Bool := false
 (accessPolicyId forwardDnsServerId reverseDnsServerId : Option Nat := none)
 deriving DecidableEq

structure VmIpAssignment where
 (id vmId ipRangeId : Nat)
 ip : String
 deleted : Bool := false
 (arpRef dnsForward dnsForwardRef dnsReverse dnsReverseRef : Option String := none)
 deriving DecidableEq

inductive NetworkAccessPolicy
 | staticArp
 deriving DecidableEq

structure AccessPolicy where
 id : Nat
 kind : NetworkAccessPolicy := .staticArp
 routerId : Option Nat := none
 deriving DecidableEq

structure NetworkDb where
 db : Db
 ipRanges : List IpRange := []
 vmIpAssignments : List VmIpAssignment := []
 accessPolicies : List AccessPolicy := []
 nextId : Nat := 1
 deriving DecidableEq

namespace NetworkDb

variable (net : NetworkDb)

def getIpRange (id : Nat) : Option IpRange := lookup (·.id) id net.ipRanges

def listIpRangeInRegion (regionId : Nat) : List IpRange :=
 net.ipRanges.filter fun r => r.regionId = regionId ∧ r.enabled

def getVmIpAssignment (id : Nat) : Option VmIpAssignment := lookup (·.id) id net.vmIpAssignments

def listVmIpAssignments (vmId : Nat) : List VmIpAssignment :=
 net.vmIpAssignments.filter fun i => i.vmId = vmId ∧ !i.deleted

def listVmIpAssignmentsInRange (rangeId : Nat) : List VmIpAssignment :=
 net.vmIpAssignments.filter fun i => i.ipRangeId = rangeId ∧ !i.deleted

def insertVmIpAssignment (vmId ipRangeId : Nat) (ip : String) : NetworkDb := { net with
 vmIpAssignments := net.vmIpAssignments ++ [{ id := net.nextId, vmId, ipRangeId, ip }]
 nextId := net.nextId + 1 }

def deleteVmIpAssignment (id : Nat) : NetworkDb := { net with
 vmIpAssignments := updateWhere (fun i => i.id = id) (fun i => { i with deleted := true }) net.vmIpAssignments }

def deleteAllIpAssignments (vmId : Nat) : NetworkDb := { net with
 vmIpAssignments := updateWhere (fun i => i.vmId = vmId) (fun i => { i with deleted := true }) net.vmIpAssignments }

def hardDeleteVmIpAssignmentsByVmId (vmId : Nat) : NetworkDb := { net with
 vmIpAssignments := net.vmIpAssignments.filter fun i => i.vmId ≠ vmId }

def ipTextTaken (assignment : VmIpAssignment) : Bool :=
 net.vmIpAssignments.any fun i => i.ip = assignment.ip ∧ !i.deleted ∧ i.id ≠ assignment.id

def updateIp (assignment : VmIpAssignment) : NetworkDb := { net with
 vmIpAssignments := updateWhere (fun i => i.id = assignment.id)
  (fun i => { assignment with id := i.id, deleted := i.deleted }) net.vmIpAssignments }

end NetworkDb

structure AvailableIp where
 ip : Network
 rangeId : Nat
 mode : IpRangeAllocationMode
 deriving DecidableEq

def networkSize (cidr : Network) : Nat := if cidr.prefixLen = 0 then 2 ^ cidr.ip.kind.bits - 1 else cidr.size

def boundaryIps (range : IpRange) (cidr : Network) : List Addr :=
 if !range.useFullRange ∧ cidr.ip.kind = .v4 then (cidr.nth 0).toList ++ (cidr.nth (cidr.size - 1)).toList else []

def reservedIps (range : IpRange) (cidr gateway : Network) : List Addr :=
 boundaryIps range cidr ++ (if cidr.contains gateway.ip then [gateway.ip] else [])

variable (text : IpText)

def isReserved (range : IpRange) (ip : String) : Bool :=
 match range.cidr, range.gateway, text.parse ip with
 | some cidr, some gateway, some a => a ∈ reservedIps range cidr gateway
 | _, _, _ => false

section Pick

variable (text : IpText) (net : NetworkDb)

def pickIpFromRange (range : IpRange) (draw : Nat) : Option AvailableIp := do
 let cidr ← range.cidr
 let gateway ← range.gateway
 let ips := (net.listVmIpAssignmentsInRange range.id).filterMap (fun i => text.parse i.ip) ++
  reservedIps range cidr gateway
 let maxNet := min cidr.prefixLen gateway.prefixLen
 if cidr.ip.kind = .v4 ∧ networkSize cidr ≤ ips.dedup.length % 2 ^ 32 then none
 else do
  let ip ← (match range.allocationMode with
   | .sequential => (cidr.firstFree ips).bind fun a => Network.new? a maxNet
   | .random => ((cidr.nth draw).filter fun a => draw < networkSize cidr ∧ a ∉ ips).bind fun a =>
     Network.new? a maxNet
   | .slaacEui64 => if cidr.ip.kind = .v4 then none else some cidr)
  some { ip, rangeId := range.id, mode := range.allocationMode }

def pickIpForRegion (regionId : Nat) (shuffled : List IpRange) (draw : Nat → Nat) :
  Option (Option AvailableIp × Option AvailableIp) :=
 if shuffled.isPerm ((net.listIpRangeInRegion regionId).filter fun r => r.cidr.isSome) then
  let pick (kind : Kind) := shuffled.findSome? fun range =>
   if range.cidr.any fun cidr => cidr.ip.kind = kind then pickIpFromRange text net range (draw range.id) else none
  let ret := (pick .v4, pick .v6)
  if ret.1.isNone ∧ ret.2.isNone then none else some ret
 else none

theorem eui64_lt {net : Network} (h : net.ip.kind = .v6) (eui64 : BitVec 64) :
  net.first / 2 ^ 64 * 2 ^ 64 + eui64.toNat < 2 ^ Kind.v6.bits := by
 have hend := net.first_add_size_le
 have hpos := net.size_pos
 have hid := eui64.isLt
 rw [h] at hend
 simp only [Kind.bits] at hend ⊢
 omega

def calculateEui64 (mac : BitVec 48) (net : Network) : Option Addr :=
  if h : net.ip.kind = .v6 then
    let eui64 : BitVec 64 := ((mac.extractLsb' 24 24 ^^^ 0x020000#24) ++ 0xFFFE#16) ++ mac.extractLsb' 0 24
    some ⟨.v6, net.first / 2 ^ 64 * 2 ^ 64 + eui64.toNat, eui64_lt h eui64⟩
  else none

def validateIpAssignment (range : IpRange) (ip : String) : Bool :=
 (text.parse (text.trim ip)).any fun a => range.cidr.any fun cidr => cidr.contains a

end Pick

inductive Job
 | spawnVm (vmId : Nat)
 | assignVmIp (vmId ipRangeId : Nat) (ip : Option String)
 | unassignVmIp (assignmentId : Nat)
 | deleteVm (vmId : Nat) (purge : Bool)
 deriving DecidableEq

structure PendingIp where
 ipRangeId : Nat
 ip : String
 picked : Bool
 deriving DecidableEq

def AvailableIp.toPending (available : AvailableIp) : PendingIp where
 ipRangeId := available.rangeId
 ip := text.format available.ip.ip
 picked := available.mode ≠ .slaacEui64

def v6ToAllocation (v6 : AvailableIp) (mac : BitVec 48) : Option PendingIp :=
  match v6.mode with
  | .slaacEui64 => (calculateEui64 mac v6.ip).map fun a =>
      { ipRangeId := v6.rangeId, ip := text.format a, picked := false }
  | _ => some (v6.toPending text)

structure Choices where
 shuffled : List IpRange := []
 draw : Nat → Nat := fun _ => 0
 mac : BitVec 48 := 0

section Jobs

variable (text : IpText) (net : NetworkDb)

def assignIps (vm : Vm) (c : Choices) : Option (List PendingIp) :=
 if !(net.listVmIpAssignments vm.id).isEmpty then some []
 else do
  let host ← net.db.getHost vm.hostId
  let (ip4, ip6) ← pickIpForRegion text net host.regionId c.shuffled c.draw
  let v4 ← ip4
  match ip6 with
  | none => some [v4.toPending text]
  | some v6 => do
   let second ← v6ToAllocation text v6 c.mac
   some [v4.toPending text, second]

def spawnVm (vmId : Nat) (c : Choices) : Option (NetworkDb × List PendingIp) := do
 let vm ← net.db.getVm vmId
 let pending ← assignIps text net vm c
 if pending.all fun p => (net.getIpRange p.ipRangeId).any fun range => validateIpAssignment text range p.ip then
  let vms := if pending.isEmpty then net.db.vms
   else updateWhere (fun v => v.id = vmId) (fun v => { v with macAddress := some c.mac }) net.db.vms
  some ({ net with db := { net.db with vms } }, pending)
 else none

def assignVmIp (vmId ipRangeId : Nat) (ip : Option String) (c : Choices) : Option PendingIp := do
 let vm ← net.db.getVm vmId
 let range ← net.getIpRange ipRangeId
 if vm.deleted then none
 else do
  let pending ← (match ip with
   | some ip => some { ipRangeId, ip := text.trim ip, picked := false }
   | none => (pickIpFromRange text net range (c.draw ipRangeId)).map fun a => a.toPending text)
  if validateIpAssignment text range pending.ip then some pending else none

def deleteVm (vmId : Nat) (purge : Bool) : Option NetworkDb := do
 let vm ← net.db.getVm vmId
 if vm.deleted then some net
 else
  let everPaid := (net.db.getSubscriptionByLineItemId vm.subscriptionLineItemId).any fun sub => sub.isSetup
  let net' := net.deleteAllIpAssignments vmId
  if purge || !everPaid then
   some { net'.hardDeleteVmIpAssignmentsByVmId vmId with
    db := { net'.db with vms := net'.db.vms.filter fun v => v.id ≠ vmId } }
  else some { net' with db := net'.db.deleteVm vmId }

def adminCreateVmIpAssignment (now : Int) (vmId ipRangeId : Nat) (ip : Option String) (c : Choices) :
  Option String := do
 let vm ← net.db.getVm vmId
 let sub ← net.db.getSubscriptionByLineItemId vm.subscriptionLineItemId
 let range ← net.getIpRange ipRangeId
 if vm.deleted || !sub.isSetup || !(sub.expires.any fun e => now ≤ e) || !range.enabled then none
 else
  match ip with
  | some ip => if validateIpAssignment text range ip then some (text.trim ip) else none
  | none => (pickIpFromRange text net range (c.draw ipRangeId)).map fun a => text.format a.ip.ip

def adminUpdateVmIpAssignment (id : Nat) (ip : Option String) : Option VmIpAssignment := do
 let assignment ← net.getVmIpAssignment id
 let assignment ← (match ip with
  | none => some assignment
  | some ip => do
   let range ← net.getIpRange assignment.ipRangeId
   if text.trim ip ≠ "" ∧ validateIpAssignment text range ip then some { assignment with ip := text.trim ip }
   else none)
 if net.ipTextTaken assignment then none else some assignment

end Jobs

inductive IpWorker
 | idle
 | saving (job : Job) (vmId : Nat) (pending : List PendingIp)
 deriving DecidableEq

def IpWorker.pending : IpWorker → List PendingIp
 | .idle => []
 | .saving _ _ pending => pending

structure Provisioning where
 net : NetworkDb
 queue : List Job := []
 worker : IpWorker := .idle
 updates : List VmIpAssignment := []

namespace Provisioning

inductive Label
 | adminCreate (now : Int) (vmId ipRangeId : Nat) (ip : Option String) (choices : Choices)
 | enqueue (job : Job)
 | start (job : Job) (choices : Choices)
 | save
 | fail
 | adminCheck (id : Nat) (ip : Option String)
 | adminWrite (assignment : VmIpAssignment)

variable (text : IpText) (s : Provisioning)

def step : Label → Option Provisioning
 | .adminCreate now vmId ipRangeId ip choices => do
  let ip ← adminCreateVmIpAssignment text s.net now vmId ipRangeId ip choices
  some { s with queue := s.queue ++ [.assignVmIp vmId ipRangeId (some ip)] }
 | .enqueue job => some { s with queue := s.queue ++ [job] }
 | .start job choices =>
  if s.worker = .idle ∧ job ∈ s.queue then
   let s := { s with queue := s.queue.erase job }
   match job with
   | .spawnVm vmId =>
    match spawnVm text s.net vmId choices with
    | some (net, pending) => some { s with net, worker := .saving job vmId pending }
    | none => some s
   | .assignVmIp vmId ipRangeId ip =>
    match assignVmIp text s.net vmId ipRangeId ip choices with
    | some pending => some { s with worker := .saving job vmId [pending] }
    | none => some s
   | .unassignVmIp assignmentId =>
    match s.net.getVmIpAssignment assignmentId with
    | some assignment => some { s with net := s.net.deleteVmIpAssignment assignment.id }
    | none => some s
   | .deleteVm vmId purge => some { s with net := (deleteVm s.net vmId purge).getD s.net }
  else none
 | .save =>
  match s.worker with
  | .saving job vmId (p :: pending) => some { s with
    net := s.net.insertVmIpAssignment vmId p.ipRangeId p.ip
    worker := if pending.isEmpty then .idle else .saving job vmId pending }
  | .saving _ _ [] => some { s with worker := .idle }
  | .idle => none
 | .fail =>
  match s.worker with
  | .saving (.spawnVm vmId) _ _ =>
   let vms := updateWhere (fun v => v.id = vmId) (fun v => { v with macAddress := none }) s.net.db.vms
   some { s with net := { s.net with db := { s.net.db with vms } }, worker := .idle }
  | .saving _ _ _ => some { s with worker := .idle }
  | .idle => none
 | .adminCheck id ip => do
  let assignment ← adminUpdateVmIpAssignment text s.net id ip
  some { s with updates := assignment :: s.updates }
 | .adminWrite assignment =>
  if assignment ∈ s.updates then some { s with
   net := s.net.updateIp assignment
   updates := s.updates.erase assignment }
  else none

def holdsIp (net : NetworkDb) (ok : VmIpAssignment → Bool) (ip : String) : Bool :=
 net.vmIpAssignments.any fun i => !i.deleted ∧ ok i ∧ (text.parse i.ip).any fun a => text.parse ip = some a

def reservedIn (net : NetworkDb) (ipRangeId : Nat) (ip : String) : Bool :=
 (net.getIpRange ipRangeId).any fun range => isReserved text range ip

def pickedIps : List String := (s.worker.pending.filter (·.picked)).map (·.ip)

def findsFree : Label → Bool
 | .save =>
  match s.worker with
  | .saving _ _ (p :: _) =>
   if p.picked then !holdsIp text s.net (fun i => i.ipRangeId ≠ p.ipRangeId) p.ip
   else !holdsIp text s.net (fun _ => true) p.ip && !reservedIn text s.net p.ipRangeId p.ip
  | _ => true
 | .adminWrite u => (s.net.getVmIpAssignment u.id).all fun row => row.deleted ||
   !holdsIp text s.net (fun i => i.id ≠ u.id) u.ip && !reservedIn text s.net u.ipRangeId u.ip &&
    (pickedIps s).all fun ip => !(text.parse ip).any fun a => text.parse u.ip = some a
 | _ => true

structure IpsUnique (net : NetworkDb) : Prop where
 distinct : ∀ i ∈ net.vmIpAssignments, ∀ j ∈ net.vmIpAssignments, i.deleted = false → j.deleted = false →
  ∀ a, text.parse i.ip = some a → text.parse j.ip = some a → i = j
 unreserved : ∀ i ∈ net.vmIpAssignments, i.deleted = false → reservedIn text net i.ipRangeId i.ip = false

structure NetworkKeys (net : NetworkDb) : Prop where
 ranges : Keyed (·.id) net.ipRanges
 assignments : Keyed (·.id) net.vmIpAssignments
 next : ∀ i ∈ net.vmIpAssignments, i.id < net.nextId

end Provisioning

end Lnvps
