import Lnvps.Capacity
import Lnvps.FreeIps

/-! # Picking an address -/

namespace Lnvps

open Table Net List Option Network
open Provisioning (plainText)

inductive PickError
 | invalidCidr
 | invalidGateway
 | full
 | noIps
 | eui64FromIpv4
 deriving DecidableEq

namespace FreeIps

section Functions

variable (text : IpText) (net : NetworkDb) (range : IpRange)

def isFull (cidr : Network) (ips : List Addr) : Bool :=
 cidr.ip.kind = .v4 ∧ networkSize cidr ≤ ips.dedup.length % 2 ^ 32

def accepts (cidr : Network) (ips : List Addr) (n : Nat) : Option Addr :=
 (cidr.nth n).filter fun a => n < networkSize cidr ∧ a ∉ ips

def found : Option Network → Except PickError AvailableIp
 | none => .error .noIps
 | some ip => .ok { ip, rangeId := range.id, mode := range.allocationMode }

def pickFrom (cidr gateway : Network) (ips : List Addr) (draws : List Nat) : Option (Except PickError AvailableIp) :=
 let maxNet := min cidr.prefixLen gateway.prefixLen
 if isFull cidr ips then some (.error .full)
 else
  match range.allocationMode with
  | .sequential => some (found range ((cidr.firstFree ips).bind fun a => Network.new? a maxNet))
  | .random => (draws.findSome? (accepts cidr ips)).map fun a => found range (Network.new? a maxNet)
  | .slaacEui64 => some (if cidr.ip.kind = .v4 then .error .eui64FromIpv4 else found range (some cidr))

def pickRun (draws : List Nat) : Option (Except PickError AvailableIp) :=
 match range.cidr, range.gateway with
 | none, _ => some (.error .invalidCidr)
 | some _, none => some (.error .invalidGateway)
 | some cidr, some gateway =>
  pickFrom range cidr gateway (assignedIps text net range ++ reservedIps range cidr gateway) draws

theorem pickIpFromRange_eq_pickRun (draw : Nat) :
  pickIpFromRange text net range draw = (pickRun text net range [draw]).bind fun result => result.toOption := by
 unfold pickIpFromRange pickRun pickFrom found assignedIps
 cases range.cidr with
 | none => rfl
 | some cidr =>
  cases range.gateway with
  | none => rfl
  | some gateway =>
   dsimp only [bind_eq_bind, bind_some]
   generalize (net.listVmIpAssignmentsInRange range.id).filterMap (fun i => text.parse i.ip) ++
    reservedIps range cidr gateway = ips
   by_cases hfull : isFull cidr ips = true
   · rw [if_pos (of_decide_eq_true hfull), if_pos hfull]
     rfl
   rw [if_neg fun h => hfull (decide_eq_true h), if_neg hfull]
   cases range.allocationMode with
   | sequential =>
    cases (cidr.firstFree ips).bind fun a => new? a (min cidr.prefixLen gateway.prefixLen) <;> rfl
   | random =>
    simp only [List.findSome?_cons, List.findSome?_nil, accepts]
    cases (cidr.nth draw).filter _ with
    | none => rfl
    | some a =>
     simp only [bind_some, map_some]
     cases new? a (min cidr.prefixLen gateway.prefixLen) <;> rfl
   | slaacEui64 =>
    dsimp only
    split <;> rfl

end Functions

section Picking

variable (text : IpText) (net : NetworkDb) (range : IpRange) (cidr : Network)

def usedIps : List Addr := assignedIps text net range ++ keptIps range cidr

def IsFree (a : Addr) : Prop := cidr.contains a = true ∧ a ∉ usedIps text net range cidr

def Fair (draws : Nat → Nat) : Prop := ∀ n < networkSize cidr, ∃ i, draws i = n

def Returns (draws : Nat → Nat) (available : AvailableIp) : Prop :=
 ∃ k, pickRun text net range ((List.range k).map draws) = some (.ok available)

structure PickCorrect : Prop where
 complete : ∀ draws, Fair cidr draws →
  ((∃ available, Returns text net range draws available) ↔ ∃ a, IsFree text net range cidr a)
 sound : ∀ draws available, Returns text net range draws available → IsFree text net range cidr available.ip.ip
 loop : pickRun text net range [] = none → ∃ n, (accepts cidr (usedIps text net range cidr) n).isSome = true

variable {text net range cidr} {gateway : Network} {a : Addr} {available : AvailableIp} {draws : Nat → Nat}

theorem pickRun_of_gateway (hcidr : range.cidr = some cidr) (hgateway : range.gateway = some gateway)
  (numbers : List Nat) :
  pickRun text net range numbers = pickFrom range cidr gateway (usedIps text net range cidr) numbers := by
 simp only [pickRun, hcidr, hgateway, reservedIps_eq hgateway, usedIps]

theorem accepts_eq_some {ips : List Addr} {n : Nat} :
  accepts cidr ips n = some a ↔ cidr.nth n = some a ∧ n < networkSize cidr ∧ a ∉ ips := by
 rw [accepts, filter_eq_some_iff, decide_eq_true_eq]

theorem new?_of_contains (gateway : Network) (hin : cidr.contains a = true) :
  ∃ ip, new? a (min cidr.prefixLen gateway.prefixLen) = some ip := by
 have hle := cidr.le
 rw [← kind_of_contains hin] at hle
 rw [new?, dif_pos (by omega)]
 exact ⟨_, rfl⟩

theorem exists_accepts_iff :
  (∃ n, (accepts cidr (usedIps text net range cidr) n).isSome = true) ↔
   ∃ a, IsFree text net range cidr a ∧ (cidr.prefixLen = 0 → a.value ≠ cidr.last) := by
 have hpos := cidr.size_pos
 constructor
 · rintro ⟨n, hn⟩
   obtain ⟨a, ha⟩ := isSome_iff_exists.mp hn
   obtain ⟨hnth, hlt, hout⟩ := accepts_eq_some.mp ha
   refine ⟨a, ⟨contains_of_nth hnth, hout⟩, ?_⟩
   intro hzero
   have hsize := networkSize_of_zero hzero
   have hvalue := (nth_eq_some.mp hnth).2.2
   unfold last
   omega
 · rintro ⟨a, ⟨hin, hout⟩, hlast⟩
   obtain ⟨n, hnth⟩ := contains_iff.mp hin
   obtain ⟨hlt, -, hvalue⟩ := nth_eq_some.mp hnth
   have hdrawn : n < networkSize cidr := by
    by_cases hzero : cidr.prefixLen = 0
    · have hsize := networkSize_of_zero hzero
      have hne := hlast hzero
      unfold last at hne
      omega
    · rw [networkSize_of_ne hzero]
      exact hlt
   exact ⟨n, isSome_iff_exists.mpr ⟨a, accepts_eq_some.mpr ⟨hnth, hdrawn, hout⟩⟩⟩

theorem isFree_of_returns (hcidr : range.cidr = some cidr) (hmode : range.allocationMode ≠ .slaacEui64)
  (h : Returns text net range draws available) :
  IsFree text net range cidr available.ip.ip ∧ range.gateway.isSome = true ∧
   isFull cidr (usedIps text net range cidr) = false := by
 obtain ⟨k, h⟩ := h
 cases hgateway : range.gateway with
 | none =>
  simp only [pickRun, hcidr, hgateway] at h
  cases h
 | some gateway =>
  rw [pickRun_of_gateway hcidr hgateway, pickFrom] at h
  cases hfull : isFull cidr (usedIps text net range cidr) with
  | true => rw [hfull, if_pos rfl] at h; cases h
  | false =>
   rw [hfull, if_neg Bool.false_ne_true] at h
   refine ⟨?_, rfl, rfl⟩
   cases hm : range.allocationMode with
   | sequential =>
    simp only [hm] at h
    cases hfirst : cidr.firstFree (usedIps text net range cidr) with
    | none => rw [hfirst] at h; cases h
    | some a =>
     obtain ⟨hin, hout⟩ := firstFree_spec hfirst
     obtain ⟨ip, hnew⟩ := new?_of_contains gateway hin
     rw [hfirst, bind_some, hnew] at h
     cases h
     rw [ip_of_new? hnew]
     exact ⟨hin, hout⟩
   | random =>
    simp only [hm] at h
    obtain ⟨a, hfound, h⟩ := map_eq_some_iff.mp h
    obtain ⟨n, -, hn⟩ := exists_of_findSome?_eq_some hfound
    obtain ⟨hnth, -, hout⟩ := accepts_eq_some.mp hn
    have hin := contains_of_nth hnth
    obtain ⟨ip, hnew⟩ := new?_of_contains gateway hin
    rw [hnew] at h
    cases h
    rw [ip_of_new? hnew]
    exact ⟨hin, hout⟩
   | slaacEui64 => exact absurd hm hmode

theorem returns_of_isFree (hcidr : range.cidr = some cidr) (hmode : range.allocationMode ≠ .slaacEui64)
  (hgateway : range.gateway = some gateway) (hfull : isFull cidr (usedIps text net range cidr) = false)
  (hfair : Fair cidr draws) (hfree : IsFree text net range cidr a)
  (hdrawn : range.allocationMode = .random → cidr.prefixLen = 0 → a.value ≠ cidr.last) :
  ∃ available, Returns text net range draws available := by
 cases hm : range.allocationMode with
 | sequential =>
  obtain ⟨i, hnth⟩ := contains_iff.mp hfree.1
  obtain ⟨j, -, b, hb, hfirst⟩ := firstFree_least hnth hfree.2
  obtain ⟨ip, hnew⟩ := new?_of_contains gateway (contains_of_nth hb)
  refine ⟨{ ip, rangeId := range.id, mode := range.allocationMode }, 0, ?_⟩
  rw [pickRun_of_gateway hcidr hgateway, pickFrom, hfull, if_neg Bool.false_ne_true]
  simp only [hm, hfirst, bind_some, hnew, found]
 | random =>
  obtain ⟨n, hn⟩ := exists_accepts_iff.mpr ⟨a, hfree, hdrawn hm⟩
  obtain ⟨b, hb⟩ := isSome_iff_exists.mp hn
  obtain ⟨i, rfl⟩ := hfair n (accepts_eq_some.mp hb).2.1
  have hends : (((List.range (i + 1)).map draws).findSome? (accepts cidr (usedIps text net range cidr))).isSome =
    true := by
   rw [List.findSome?_isSome_iff]
   exact ⟨draws i, mem_map.mpr ⟨i, mem_range.mpr (Nat.lt_succ_self i), rfl⟩, hn⟩
  obtain ⟨c, hc⟩ := isSome_iff_exists.mp hends
  obtain ⟨m, -, hm'⟩ := exists_of_findSome?_eq_some hc
  obtain ⟨ip, hnew⟩ := new?_of_contains gateway (contains_of_nth (accepts_eq_some.mp hm').1)
  refine ⟨{ ip, rangeId := range.id, mode := range.allocationMode }, i + 1, ?_⟩
  rw [pickRun_of_gateway hcidr hgateway, pickFrom, hfull, if_neg Bool.false_ne_true]
  simp only [hm, hc, map_some, hnew, found]
 | slaacEui64 => exact absurd hm hmode

theorem exists_isFree_iff :
  (∃ a, IsFree text net range cidr a) ↔
   ((usedIps text net range cidr).dedup.filter fun a => cidr.contains a).length < cidr.size := by
 have hcount := length_filter_notMem (n := cidr)
  (l := (usedIps text net range cidr).dedup.filter fun a => cidr.contains a) ((nodup_dedup _).filter _)
  fun a ha => (mem_filter.mp ha).2
 generalize hleft : cidr.addrs.filter
  (· ∉ (usedIps text net range cidr).dedup.filter fun a => cidr.contains a) = left at hcount
 have hmem : ∀ a, a ∈ left ↔ IsFree text net range cidr a := by
  intro a
  rw [← hleft, mem_filter, mem_addrs, decide_eq_true_eq, mem_filter, mem_dedup, IsFree]
  exact ⟨fun h => ⟨h.1, fun hused => h.2 ⟨hused, h.1⟩⟩, fun h => ⟨h.1, fun hused => h.2 hused.1⟩⟩
 constructor
 · rintro ⟨a, ha⟩
   have hpos := length_pos_of_mem ((hmem a).mpr ha)
   omega
 · intro hlt
   obtain ⟨a, ha⟩ := exists_mem_of_length_pos (show 0 < left.length by omega)
   exact ⟨a, (hmem a).mp ha⟩

theorem pickRun_nil_eq_none (hcidr : range.cidr = some cidr) :
  pickRun text net range [] = none ↔ range.gateway.isSome = true ∧ range.allocationMode = .random ∧
   isFull cidr (usedIps text net range cidr) = false := by
 cases hgateway : range.gateway with
 | none => simp [pickRun, hcidr, hgateway]
 | some gateway =>
  rw [pickRun_of_gateway hcidr hgateway, pickFrom]
  cases isFull cidr (usedIps text net range cidr) <;> cases range.allocationMode <;> simp

variable (text net range cidr) in
def TestRight : Prop :=
 let inside := (usedIps text net range cidr).dedup.filter fun a => cidr.contains a
 (inside.length < cidr.size → range.gateway.isSome = true ∧ isFull cidr (usedIps text net range cidr) = false ∧
   (range.allocationMode = .random →
    ∃ a, IsFree text net range cidr a ∧ (cidr.prefixLen = 0 → a.value ≠ cidr.last))) ∧
  (¬ inside.length < cidr.size → range.gateway.isSome = true → range.allocationMode = .random →
   isFull cidr (usedIps text net range cidr) = true)

theorem ip_picking_iff (hcidr : range.cidr = some cidr) (hmode : range.allocationMode ≠ .slaacEui64) :
  PickCorrect text net range cidr ↔ TestRight text net range cidr := by
 unfold TestRight
 dsimp only
 rw [← exists_isFree_iff]
 constructor
 · rintro ⟨hcomplete, -, hloop⟩
   constructor
   · intro hfree
     obtain ⟨available, hreturns⟩ := (hcomplete id fun n _ => ⟨n, rfl⟩).mpr hfree
     obtain ⟨-, hgateway, hfull⟩ := isFree_of_returns hcidr hmode hreturns
     refine ⟨hgateway, hfull, fun hrandom => exists_accepts_iff.mp (hloop ?_)⟩
     exact (pickRun_nil_eq_none hcidr).mpr ⟨hgateway, hrandom, hfull⟩
   · intro hnone hgateway hrandom
     by_contra hfull
     obtain ⟨a, ha, -⟩ := exists_accepts_iff.mp
      (hloop ((pickRun_nil_eq_none hcidr).mpr ⟨hgateway, hrandom, Bool.eq_false_iff.mpr hfull⟩))
     exact hnone ⟨a, ha⟩
 · rintro ⟨hfree, hnone⟩
   refine ⟨?_, fun draws available h => (isFree_of_returns hcidr hmode h).1, ?_⟩
   · intro draws hfair
     constructor
     · rintro ⟨available, h⟩
       exact ⟨_, (isFree_of_returns hcidr hmode h).1⟩
     rintro ⟨a, ha⟩
     obtain ⟨hgateway, hfull, hdrawn⟩ := hfree ⟨a, ha⟩
     obtain ⟨gateway, hgateway⟩ := isSome_iff_exists.mp hgateway
     by_cases hrandom : range.allocationMode = .random
     · obtain ⟨b, hb, hlast⟩ := hdrawn hrandom
       exact returns_of_isFree hcidr hmode hgateway hfull hfair hb fun _ => hlast
     · exact returns_of_isFree hcidr hmode hgateway hfull hfair ha fun h => absurd h hrandom
   · intro hloop
     obtain ⟨hgateway, hrandom, hfull⟩ := (pickRun_nil_eq_none hcidr).mp hloop
     rw [exists_accepts_iff]
     by_cases hleft : ∃ a, IsFree text net range cidr a
     · exact (hfree hleft).2.2 hrandom
     · rw [hnone hleft hgateway hrandom] at hfull
       cases hfull

theorem ip_picking_small :
  PickCorrect plainText (withRows [0x0A000002]) (smallRange 1) (smallNet 29 (by decide)) := by
 have hcidr : (smallRange 1).cidr = some (smallNet 29 (by decide)) := rfl
 have hmode : (smallRange 1).allocationMode ≠ .slaacEui64 := by decide
 refine (ip_picking_iff hcidr hmode).mpr ⟨fun _ => ⟨by decide +kernel, by decide +kernel, ?_⟩, ?_⟩
 · intro hrandom
   exact absurd hrandom (by decide)
 · intro _ _ hrandom
   exact absurd hrandom (by decide)

theorem oneAddress_lt : 0x20010db8 * 2 ^ 96 < 2 ^ Kind.v6.bits := by decide

def oneAddress : IpRange where
 id := 1
 cidr := some ⟨⟨.v6, 0x20010db8 * 2 ^ 96, oneAddress_lt⟩, 128, by decide⟩
 gateway := some ⟨⟨.v6, 0x20010db8 * 2 ^ 96, oneAddress_lt⟩, 128, by decide⟩
 allocationMode := .random

/-- Five rows with addresses outside the range fill it, while addresses are free; and the loop for an IPv6 range without
a free address is entered and never left. -/
theorem ip_picking_fails :
  (pickRun plainText (withRows [1, 2, 3, 4, 5]) (smallRange 1) [] = some (.error .full) ∧
   ∃ a, IsFree plainText (withRows [1, 2, 3, 4, 5]) (smallRange 1) (smallNet 29 (by decide)) a) ∧
  ∀ draws, pickRun plainText (withRows []) oneAddress draws = none := by
 refine ⟨⟨by decide +kernel, ⟨.v4, 0x0A000002, by decide⟩, by decide +kernel, by decide +kernel⟩, ?_⟩
 intro draws
 have hcidr : oneAddress.cidr = some ⟨⟨.v6, 0x20010db8 * 2 ^ 96, by decide⟩, 128, by decide⟩ := rfl
 rw [pickRun_of_gateway hcidr rfl, pickFrom, if_neg (by decide +kernel)]
 have hnone : ∀ n ∈ draws, accepts ⟨⟨.v6, 0x20010db8 * 2 ^ 96, by decide⟩, 128, by decide⟩
   (usedIps plainText (withRows []) oneAddress ⟨⟨.v6, 0x20010db8 * 2 ^ 96, by decide⟩, 128, by decide⟩)
   n = none := by
  intro n _
  cases n with
  | zero => decide +kernel
  | succ n =>
   rw [accepts, Network.nth, dif_neg]
   · rfl
   · intro hlt
     have hsize : Network.size ⟨⟨.v6, 0x20010db8 * 2 ^ 96, by decide⟩, 128, by decide⟩ = 1 := rfl
     omega
 show Option.map _ (draws.findSome? _) = none
 rw [List.findSome?_eq_none_iff.mpr hnone]
 rfl

end Picking

section Capacity

variable {text : IpText} {net : NetworkDb} {range : IpRange} {cidr : Network} {available : AvailableIp}
 {draws : Nat → Nat}

def capacity (net : NetworkDb) (range : IpRange) : Nat :=
 IpRangeCapacity.availableCapacity { range, usage := (net.listVmIpAssignmentsInRange range.id).length }

def store (text : IpText) (net : NetworkDb) (vmId : Nat) (available : AvailableIp) : NetworkDb :=
 net.insertVmIpAssignment vmId available.rangeId (text.format available.ip.ip)

theorem capacity_eq (net : NetworkDb) (hcidr : range.cidr = some cidr) :
  capacity net range =
   networkSize cidr - ((net.listVmIpAssignmentsInRange range.id).length + reservedCount range cidr) := by
 simp only [capacity, IpRangeCapacity.availableCapacity, hcidr, reservedCount]
 omega

theorem rangeId_of_found {ip : Option Network} (h : found range ip = .ok available) : available.rangeId = range.id := by
 cases ip with
 | none => cases h
 | some ip => cases h; rfl

theorem rangeId_of_returns (h : Returns text net range draws available) : available.rangeId = range.id := by
 obtain ⟨k, h⟩ := h
 unfold pickRun pickFrom at h
 split at h
 · cases h
 · cases h
 split at h
 · cases h
 split at h
 · exact rangeId_of_found (Option.some.inj h)
 · obtain ⟨a, -, h⟩ := map_eq_some_iff.mp h
   exact rangeId_of_found h
 · split at h
   · cases h
   · exact rangeId_of_found (Option.some.inj h)

theorem length_rows_store (hid : available.rangeId = range.id) (vmId : Nat) :
  ((store text net vmId available).listVmIpAssignmentsInRange range.id).length =
   (net.listVmIpAssignmentsInRange range.id).length + 1 := by
 simp [store, NetworkDb.insertVmIpAssignment, NetworkDb.listVmIpAssignmentsInRange, filter_append, hid]

theorem size_le_of_v4 (hkind : cidr.ip.kind = .v4) : cidr.size ≤ 2 ^ 32 := by
 rw [size, hkind]
 exact Nat.pow_le_pow_right (by decide) (Nat.sub_le _ _)

theorem Distinct.contains (hrows : Distinct text net range cidr) {a : Addr} (ha : a ∈ usedIps text net range cidr) :
  cidr.contains a = true := by
 rcases mem_append.mp ha with h | h
 · exact hrows.inside a h
 · exact contains_of_mem_keptIps h

section Filled

variable (hcidr : range.cidr = some cidr) (hkind : cidr.ip.kind = .v4) (hmode : range.allocationMode ≠ .slaacEui64)
 (hrows : Distinct text net range cidr)

include hkind in
theorem isFull_eq_false_iff :
  isFull cidr (usedIps text net range cidr) = false ↔
   (usedIps text net range cidr).dedup.length % 2 ^ 32 < networkSize cidr := by
 simp [isFull, hkind]

include hrows in
theorem exists_isFree_iff_of_distinct :
  (∃ a, IsFree text net range cidr a) ↔ (usedIps text net range cidr).dedup.length < cidr.size := by
 have hinside : ((usedIps text net range cidr).dedup.filter fun a => cidr.contains a) =
   (usedIps text net range cidr).dedup := by
  rw [filter_eq_self]
  exact fun a ha => hrows.contains (mem_dedup.mp ha)
 rw [exists_isFree_iff, hinside]

include hcidr hkind hmode hrows in
theorem lt_of_returns (h : Returns text net range draws available) :
  range.gateway ≠ none ∧ (usedIps text net range cidr).dedup.length < networkSize cidr := by
 have hsize := size_le_of_v4 hkind
 obtain ⟨ha, hgateway, hfull⟩ := isFree_of_returns hcidr hmode h
 have hlt := (exists_isFree_iff_of_distinct hrows).mp ⟨_, ha⟩
 rw [isFull_eq_false_iff hkind, Nat.mod_eq_of_lt (by omega)] at hfull
 exact ⟨isSome_iff_ne_none.mp hgateway, hfull⟩

include hcidr hkind hmode hrows in
theorem returns_of_lt (hgateway : range.gateway ≠ none)
  (hlt : (usedIps text net range cidr).dedup.length < networkSize cidr) (hfair : Fair cidr draws) :
  ∃ available, Returns text net range draws available := by
 have hsize := size_le_of_v4 hkind
 have hle := networkSize_le cidr
 obtain ⟨gateway, hgateway⟩ := ne_none_iff_exists'.mp hgateway
 have hfull : isFull cidr (usedIps text net range cidr) = false := by
  rw [isFull_eq_false_iff hkind, Nat.mod_eq_of_lt (by omega)]
  exact hlt
 by_cases hzero : cidr.prefixLen = 0
 · have hcounted := networkSize_of_zero hzero
   obtain ⟨last, hlast⟩ := nth_of_lt cidr (show cidr.size - 1 < cidr.size by omega)
   have hroom : (last :: (usedIps text net range cidr).dedup).length < cidr.size := by
    rw [length_cons]
    omega
   obtain ⟨i, -, a, ha, hout⟩ := Network.exists_free hroom
   rw [mem_cons, not_or, mem_dedup] at hout
   refine returns_of_isFree hcidr hmode hgateway hfull hfair ⟨Network.contains_of_nth ha, hout.2⟩ ?_
   intro _ _ hvalue
   apply hout.1
   have hv := (Network.nth_eq_some.mp ha).2.2
   unfold Network.last at hvalue
   obtain rfl : i = cidr.size - 1 := by omega
   exact Option.some.inj (ha.symm.trans hlast)
 · obtain ⟨a, ha⟩ := (exists_isFree_iff_of_distinct hrows).mpr (by omega)
   exact returns_of_isFree hcidr hmode hgateway hfull hfair ha fun _ h => absurd h hzero

end Filled

theorem capacity_real_iff (hcidr : range.cidr = some cidr) (hkind : cidr.ip.kind = .v4)
  (hmode : range.allocationMode ≠ .slaacEui64) (hrows : Distinct text net range cidr) :
  ((∀ draws, Fair cidr draws →
    (1 ≤ capacity net range ↔ ∃ available, Returns text net range draws available)) ∧
   ∀ draws available vmId, Returns text net range draws available →
    capacity (store text net vmId available) range + 1 = capacity net range) ↔
   (networkSize cidr ≤ (net.listVmIpAssignmentsInRange range.id).length + reservedCount range cidr ↔
    range.gateway = none ∨ networkSize cidr ≤ (usedIps text net range cidr).dedup.length) := by
 have hroom : 1 ≤ capacity net range ↔
   ¬ networkSize cidr ≤ (net.listVmIpAssignmentsInRange range.id).length + reservedCount range cidr := by
  rw [capacity_eq net hcidr]
  omega
 have hpick : ∀ draws, Fair cidr draws → ((∃ available, Returns text net range draws available) ↔
   ¬ (range.gateway = none ∨ networkSize cidr ≤ (usedIps text net range cidr).dedup.length)) := by
  intro draws hfair
  rw [not_or, Nat.not_le]
  constructor
  · rintro ⟨available, h⟩
    exact lt_of_returns hcidr hkind hmode hrows h
  · rintro ⟨hgateway, hlt⟩
    exact returns_of_lt hcidr hkind hmode hrows hgateway hlt hfair
 constructor
 · rintro ⟨hiff, -⟩
   have hfair : Fair cidr id := fun n _ => ⟨n, rfl⟩
   rw [← not_iff_not, ← hroom, ← hpick id hfair]
   exact hiff id hfair
 intro hcond
 refine ⟨fun draws hfair => by rw [hroom, hpick draws hfair, hcond], ?_⟩
 intro draws available vmId h
 obtain ⟨hgateway, hlt⟩ := lt_of_returns hcidr hkind hmode hrows h
 have hpos : 1 ≤ capacity net range := by
  rw [hroom, hcond, not_or, Nat.not_le]
  exact ⟨hgateway, hlt⟩
 rw [capacity_eq net hcidr] at hpos ⊢
 rw [capacity_eq _ hcidr, length_rows_store (rangeId_of_returns h)]
 omega

theorem capacity_real_small :
    (∀ draws, Fair (smallNet 29 (by decide)) draws →
      (1 ≤ capacity (withRows [0x0A000002]) (smallRange 1) ↔
        ∃ available, Returns plainText (withRows [0x0A000002]) (smallRange 1) draws available)) ∧
    ∀ draws available vmId,
      Returns plainText (withRows [0x0A000002]) (smallRange 1) draws available →
        capacity (store plainText (withRows [0x0A000002]) vmId available) (smallRange 1) + 1 =
          capacity (withRows [0x0A000002]) (smallRange 1) := by
  have hcidr : (smallRange 1).cidr = some (smallNet 29 (by decide)) := rfl
  have hmode : (smallRange 1).allocationMode ≠ .slaacEui64 := by decide
  have hrows : Distinct plainText (withRows [0x0A000002]) (smallRange 1) (smallNet 29 (by decide)) :=
    ⟨by decide +kernel, by decide +kernel, by decide +kernel⟩
  exact (capacity_real_iff hcidr rfl hmode hrows).mpr (by decide +kernel)

def tinyRange : IpRange := { smallRange 0 with cidr := some (smallNet 30 (by decide)) }

/-- The gateway is subtracted twice: one row leaves one address, and no capacity. -/
theorem capacity_missing :
  Distinct plainText (withRows [0x0A000001]) tinyRange (smallNet 30 (by decide)) ∧
   capacity (withRows [0x0A000001]) tinyRange = 0 ∧
   ∃ available, pickRun plainText (withRows [0x0A000001]) tinyRange [] = some (.ok available) :=
 ⟨⟨by decide +kernel, by decide +kernel, by decide +kernel⟩, by decide +kernel,
  ⟨⟨⟨.v4, 0x0A000002, by decide⟩, 29, by decide⟩, 1, .sequential⟩, by decide +kernel⟩

end Capacity

end FreeIps

end Lnvps
