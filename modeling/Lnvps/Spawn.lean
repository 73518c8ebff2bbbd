import Lnvps.Pipeline
import Lnvps.IpUniqueness

/-! # Spawning a VM -/

namespace Lnvps

open Table Net

structure ArpEntry where
 id : Option String := none
 macAddress : BitVec 48
 deriving DecidableEq

def NetworkDb.getAccessPolicy (net : NetworkDb) (id : Nat) : Option AccessPolicy :=
 lookup (·.id) id net.accessPolicies

def NetworkDb.insertAssignment (net : NetworkDb) (assignment : VmIpAssignment) : NetworkDb := { net with
 vmIpAssignments := net.vmIpAssignments ++ [{ assignment with id := net.nextId, deleted := false }]
 nextId := net.nextId + 1 }

namespace Spawn

structure Answer where
 dbFault : Bool := false
 choices : Choices := {}
 error : Option (OpError String) := none
 takesEffect : Bool := false
 id : Option String := none
 name : String := ""
 entry : Option ArpEntry := none
 mac : BitVec 48 := 0

structure Replies where
 macEntries : Nat := 0
 (vmUpdated vmLeft vmCreated : Bool := false)
 (arpAdded recordsAdded : List (Option String) := [])
 ipsInserted : Nat := 0
 insertFailed : Bool := false
 deriving DecidableEq

structure State where
 net : NetworkDb
 vm : Vm
 host : VmHost
 ips : List VmIpAssignment
 ranges : List IpRange
 generatedMac : Option ArpEntry := none
 arp : List (Nat × Option String) := []
 dns : List ((Nat × Bool) × Option String) := []
 hostVm : Bool := false
 calls : Nat := 0
 replies : Replies := {}
 deriving DecidableEq

def load (net : NetworkDb) (vmId : Nat) : Option State := do
 let vm ← net.db.getVm vmId
 let host ← net.db.getHost vm.hostId
 let ips := net.listVmIpAssignments vmId
 some { net, vm, host, ips, ranges := (ips.map (·.ipRangeId)).dedup.filterMap net.getIpRange }

abbrev rowNotFound : OpError String := .fatal "no rows returned"

abbrev dbError : OpError String := .fatal "database error"

def getRangeRouter (net : NetworkDb) (range : IpRange) : Except (OpError String) (Option Nat) :=
 match range.accessPolicyId with
 | none => .ok none
 | some id =>
  match net.getAccessPolicy id with
  | none => .error rowNotFound
  | some policy => .ok policy.routerId

def arpRouter (text : IpText) (net : NetworkDb) (range : IpRange) (ip : VmIpAssignment) :
  Except (OpError String) (Option Nat) :=
 match range.accessPolicyId with
 | none => .ok none
 | some id =>
  match net.getAccessPolicy id with
  | none => .error rowNotFound
  | some policy =>
   match text.parse ip.ip with
   | none => .error (.fatal "invalid address")
   | some addr =>
    if policy.kind = .staticArp ∧ addr.kind = .v4 then
     match policy.routerId with
     | none => .error (.fatal "Cannot apply static arp policy with no router")
     | some router => .ok (some router)
    else .ok none

def forEachIp (f : VmIpAssignment → State → Except (OpError String) VmIpAssignment × State) :
  List VmIpAssignment → List VmIpAssignment → State → OpResult String × State
 | done, [], s => (.ok (), { s with ips := done })
 | done, ip :: rest, s =>
  match f ip s with
  | (.ok ip', s') => forEachIp f (done ++ [ip']) rest s'
  | (.error e, s') => (.error e, { s' with ips := done ++ ip :: rest })

section Actions

variable (text : IpText) (answers : Nat → Answer) (s : State)

def State.pushRange (range : IpRange) : State :=
 if s.ranges.any fun r => r.id = range.id then s else { s with ranges := s.ranges ++ [range] }

def hostMac (assignment : VmIpAssignment) (s : State) : Except (OpError String) VmIpAssignment × State :=
 let a := answers s.calls
 let s := { s with calls := s.calls + 1 }
 match a.error with
 | some e => (.error e, s)
 | none => (.ok assignment, { s with
   vm := { s.vm with macAddress := some a.mac }
   generatedMac := some { macAddress := a.mac } })

def assignMac (assignment : VmIpAssignment) (s : State) : Except (OpError String) VmIpAssignment × State :=
 match s.generatedMac with
 | some mac => (.ok assignment, { s with vm := { s.vm with macAddress := some mac.macAddress } })
 | none =>
  let a := answers s.calls
  let s := { s with calls := s.calls + 1 }
  match s.net.getIpRange assignment.ipRangeId with
  | none => (.error rowNotFound, s)
  | some range =>
   if a.dbFault then (.error dbError, s)
   else
    let s := s.pushRange range
    match getRangeRouter s.net range with
    | .error e => (.error e, s)
    | .ok none => hostMac answers assignment s
    | .ok (some router) =>
     match a.error with
     | some e => (.error (.fatal e.intoInner),
       if a.takesEffect then { s with
        arp := s.arp ++ [(router, none)]
        replies := { s.replies with macEntries := s.replies.macEntries + 1 } }
       else s)
     | none =>
      match a.entry with
      | none => hostMac answers assignment s
      | some mac =>
       let s := { s with
        vm := { s.vm with macAddress := some mac.macAddress }
        generatedMac := some mac }
       (.ok { assignment with arpRef := mac.id }, if mac.id.isSome then { s with
         arp := s.arp ++ [(router, mac.id)]
         replies := { s.replies with macEntries := s.replies.macEntries + 1 } }
        else s)

def State.newIp (p : PendingIp) : VmIpAssignment :=
 { id := 0, vmId := s.vm.id, ipRangeId := p.ipRangeId, ip := p.ip }

def assignV6 (ip6 : Option AvailableIp) (s : State) : OpResult String × State :=
 match ip6 with
 | none => (.ok (), s)
 | some v6 =>
  match v6ToAllocation text v6 (s.vm.macAddress.getD (BitVec.allOnes 48)) with
  | none => (.error (.fatal "Must be IPv6 network for SLAAC"), s)
  | some p =>
   let s := { s with ips := s.ips ++ [s.newIp p] }
   if s.ranges.any fun r => r.id = v6.rangeId then (.ok (), s)
   else
    let a := answers s.calls
    let s := { s with calls := s.calls + 1 }
    match s.net.getIpRange v6.rangeId with
    | none => (.error rowNotFound, s)
    | some range => if a.dbFault then (.error dbError, s) else (.ok (), { s with ranges := s.ranges ++ [range] })

def assignIps : OpResult String × State :=
 if !s.ips.isEmpty then (.ok (), s)
 else
  let a := answers s.calls
  let s := { s with calls := s.calls + 1 }
  if a.dbFault then (.error dbError, s)
  else
   match pickIpForRegion text s.net s.host.regionId a.choices.shuffled a.choices.draw with
   | none => (.error (.fatal "No ip ranges available"), s)
   | some (none, _) => (.error (.fatal "Cannot provision VM without an IPv4 address"), s)
   | some (some v4, ip6) =>
    match assignMac answers (s.newIp (v4.toPending text)) s with
    | (.error e, s) => (.error e, s)
    | (.ok assignment, s) => assignV6 text answers ip6 { s with ips := s.ips ++ [assignment] }

def ipAllocation : OpResult String × State :=
 match assignIps text answers s with
 | (.error e, s) => (.error e, s)
 | (.ok (), s) =>
  let a := answers s.calls
  let s := { s with calls := s.calls + 1 }
  if a.dbFault then (.error dbError, s)
  else (.ok (), { s with
   net := { s.net with db := s.net.db.updateVm s.vm }
   replies := { s.replies with vmUpdated := true } })

def findRouter (net : NetworkDb) (ranges : List IpRange) :
  List VmIpAssignment → Except (OpError String) (Option Nat)
 | [] => .ok none
 | ip :: rest =>
  match lookup (·.id) ip.ipRangeId ranges with
  | none => findRouter net ranges rest
  | some range =>
   match getRangeRouter net range with
   | .error e => .error e
   | .ok (some router) => .ok (some router)
   | .ok none => findRouter net ranges rest

def resetMac : State :=
 if s.vm.macAddress.isSome then
  let vm := { s.vm with macAddress := none }
  { s with vm, net := { s.net with db := s.net.db.updateVm vm } }
 else s

def rollbackAssignIps : OpResult String × State :=
 match s.generatedMac.bind (·.id) with
 | none => (.ok (), resetMac s)
 | some id =>
  match findRouter s.net s.ranges s.ips with
  | .error e => (.error e, s)
  | .ok none => (.ok (), resetMac s)
  | .ok (some router) => (.ok (), resetMac { s with arp := s.arp.filter (· ≠ (router, some id)) })

def createVm : OpResult String × State :=
 let a := answers s.calls
 let s := { s with calls := s.calls + 1 }
 match a.error with
 | some e => (.error e, if a.takesEffect then { s with
   hostVm := true
   replies := { s.replies with vmLeft := true } } else s)
 | none => (.ok (), { s with hostVm := true, replies := { s.replies with vmCreated := true } })

def deleteVm : OpResult String × State := (.ok (), { s with hostVm := false })

def State.addArp (router : Nat) (id : Option String) : State := { s with
 arp := s.arp ++ [(router, id)]
 replies := { s.replies with arpAdded := s.replies.arpAdded ++ [id] } }

def updateAccessPolicy (a : Answer) (router : Nat) (ip : VmIpAssignment) (s : State) :
  Except (OpError String) VmIpAssignment × State :=
 match a.error with
 | some e => (.error e, if ip.arpRef.isNone ∧ a.takesEffect then s.addArp router none else s)
 | none =>
  let s := if ip.arpRef.isNone then s.addArp router a.id else s
  if a.id.isNone then (.error (.fatal "ARP id was empty"), s)
  else (.ok (if ip.arpRef.isNone then { ip with arpRef := a.id } else ip), s)

variable (ip : VmIpAssignment) (s : State)

def setupArp : Except (OpError String) VmIpAssignment × State :=
 let a := answers s.calls
 let s := { s with calls := s.calls + 1 }
 match s.net.getIpRange ip.ipRangeId with
 | none => (.error rowNotFound, s)
 | some range =>
  if a.dbFault then (.error dbError, s)
  else if !validateIpAssignment text range ip.ip then
   (.error (.fatal "IP address is not within the specified IP range"), s)
  else
   match arpRouter text s.net range ip with
   | .error e => (.error e, s)
   | .ok none => (.ok ip, s)
   | .ok (some router) => updateAccessPolicy a router ip s

def removeArp : Except (OpError String) VmIpAssignment × State :=
 if ip.arpRef.isNone then (.ok ip, s)
 else
  match s.net.getIpRange ip.ipRangeId with
  | none => (.error rowNotFound, s)
  | some range =>
   match arpRouter text s.net range ip with
   | .error e => (.error e, s)
   | .ok none => (.ok ip, s)
   | .ok (some router) =>
    (.ok { ip with arpRef := none }, { s with arp := s.arp.filter (· ≠ (router, ip.arpRef)) })

def State.addRecord (server : Nat) (forward : Bool) (ref : Option String) : State := { s with
 dns := s.dns ++ [((server, forward), ref)]
 replies := { s.replies with recordsAdded := s.replies.recordsAdded ++ [ref] } }

def updateRecord (a : Answer) (server : Nat) (forward : Bool) (ref : Option String) (s : State) :
  Option (Option String) × State :=
 let s := if ref.isNone ∧ a.takesEffect then s.addRecord server forward none else s
 match a.error with
 | some _ => (none, s)
 | none => if ref.isSome then (some ref, s) else (some a.id, s.addRecord server forward a.id)

def dnsServer (forward : Bool) (range : IpRange) : Option Nat :=
 if forward then range.forwardDnsServerId else range.reverseDnsServerId

def recordRef (forward : Bool) (ip : VmIpAssignment) : Option String :=
 if forward then ip.dnsForwardRef else ip.dnsReverseRef

def storeRecord (forward : Bool) (name : String) (ref : Option String) (ip : VmIpAssignment) : VmIpAssignment :=
 if forward then { ip with dnsForward := some name, dnsForwardRef := ref.or ip.dnsForwardRef }
 else { ip with dnsReverse := some name, dnsReverseRef := ref.or ip.dnsReverseRef }

def hasName (forward : Bool) (ip : VmIpAssignment) : Bool :=
 forward || ip.dnsReverse.isSome || ip.dnsReverseRef.isNone && ip.dnsForward.isSome

def updateIpDns (forward : Bool) (ip : VmIpAssignment) (s : State) : Except (OpError String) VmIpAssignment × State :=
 let a := answers s.calls
 let s := { s with calls := s.calls + 1 }
 match s.net.getIpRange ip.ipRangeId with
 | none => (.ok ip, s)
 | some range =>
  match dnsServer forward range with
  | none => (.ok ip, s)
  | some server =>
   if a.dbFault ∨ (text.parse ip.ip).isNone ∨ !hasName forward ip then (.ok ip, s)
   else
    match updateRecord a server forward (recordRef forward ip) s with
    | (none, s) => (.ok ip, s)
    | (some ref, s) => (.ok (storeRecord forward a.name ref ip), s)

def updateForwardIpDns := updateIpDns text answers true

def updateReverseIpDns := updateIpDns text answers false

def ownsRecord (net : NetworkDb) (ip : VmIpAssignment) (record : (Nat × Bool) × Option String) : Bool :=
 record.2.isSome && (net.getIpRange ip.ipRangeId).any fun range =>
  dnsServer record.1.2 range = some record.1.1 ∧ recordRef record.1.2 ip = record.2

def clearDns (range : IpRange) (ip : VmIpAssignment) : VmIpAssignment :=
 let ip := if range.reverseDnsServerId.isSome ∧ ip.dnsReverseRef.isSome then
  { ip with dnsReverse := none, dnsReverseRef := none } else ip
 if range.forwardDnsServerId.isSome ∧ ip.dnsForwardRef.isSome then
  { ip with dnsForward := none, dnsForwardRef := none } else ip

def removeIpDns : Except (OpError String) VmIpAssignment × State :=
 match s.net.getIpRange ip.ipRangeId with
 | none => (.error rowNotFound, s)
 | some range =>
  (.ok (clearDns range ip), { s with dns := s.dns.filter fun record => !ownsRecord s.net ip record })

def removeDnsIf (p : VmIpAssignment → Bool) (ip : VmIpAssignment) (s : State) :
  Except (OpError String) VmIpAssignment × State :=
 if p ip then removeIpDns ip s else (.ok ip, s)

def persistIpAssignment : Except (OpError String) VmIpAssignment × State :=
 if ip.id ≠ 0 then (.ok ip, s)
 else
  let a := answers s.calls
  let s := { s with calls := s.calls + 1 }
  if a.dbFault then (.error dbError, { s with replies := { s.replies with insertFailed := true } })
  else (.ok { ip with id := s.net.nextId }, { s with
   net := s.net.insertAssignment ip
   replies := { s.replies with ipsInserted := s.replies.ipsInserted + 1 } })

def unsaveIps : OpResult String × State :=
 (.ok (), { s with net := (s.net.deleteAllIpAssignments s.vm.id).hardDeleteVmIpAssignmentsByVmId s.vm.id })

def loopIps (f : VmIpAssignment → State → Except (OpError String) VmIpAssignment × State) : Op State String :=
 fun s => forEachIp f [] s.ips s

def spawnVmPipeline : Pipeline State String where
 steps := [
  { name := "ip_allocation", action := ipAllocation text answers, rollback := some rollbackAssignIps },
  { name := "host_spawn", action := createVm answers, rollback := some deleteVm },
  { name := "arp_setup", action := loopIps (setupArp text answers), rollback := some (loopIps (removeArp text)) },
  { name := "dns_forward", action := loopIps (updateForwardIpDns text answers),
    rollback := some (loopIps (removeDnsIf (·.dnsForwardRef.isSome))) },
  { name := "dns_reverse", action := loopIps (updateReverseIpDns text answers),
    rollback := some (loopIps (removeDnsIf (·.dnsReverseRef.isSome))) },
  { name := "save_ips", action := loopIps (persistIpAssignment answers), rollback := some unsaveIps }]
 retryPolicy := some {}

end Actions

structure Restored (net : NetworkDb) (s : State) : Prop where
 vms : s.net.db.vms = net.db.vms
 rows : s.net.vmIpAssignments.filter (fun i => !i.deleted) = net.vmIpAssignments.filter fun i => !i.deleted
 arp : s.arp = []
 dns : s.dns = []
 hostVm : s.hostVm = false

def failsClean (mac : Option (BitVec 48)) (r : Replies) : Bool :=
 if !r.vmUpdated then r.macEntries = 0
 else mac.isNone &&
  if r.insertFailed then r.ipsInserted = 0 ∧ r.arpAdded.all (·.isSome) ∧ r.recordsAdded.all (·.isSome)
  else if r.vmCreated then r.arpAdded.isEmpty
  else !r.vmLeft

end Spawn

end Lnvps
