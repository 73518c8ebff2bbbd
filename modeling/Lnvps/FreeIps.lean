import Lnvps.Network

/-! # Counting free addresses -/

namespace Lnvps

open Table Net List Option Network

inductive FreeIpsError
 | invalidCidr
 | notIpv4
 | invalidGateway
 deriving DecidableEq

def countAvailableIps (range : IpRange) (assignmentCount : Nat) : Option Nat := do
 let network ← range.cidr
 if network.ip.kind = .v4 then
  let reserved := (if range.gateway.any fun gw => network.contains gw.ip then 1 else 0) +
   (if range.useFullRange then 0 else 2)
  some (networkSize network - reserved - assignmentCount)
 else none

namespace FreeIps

section Functions

variable (text : IpText) (net : NetworkDb) (range : IpRange)

def assignedIps : List Addr := (net.listVmIpAssignmentsInRange range.id).filterMap fun i => text.parse i.ip

def computeFreeIps : Except FreeIpsError (List Addr) :=
 match range.cidr with
 | none => .error .invalidCidr
 | some network =>
  if network.ip.kind ≠ .v4 then .error .notIpv4
  else
   match range.gateway with
   | none => .error .invalidGateway
   | some gateway =>
    let reserved := gateway.ip :: boundaryIps range network
    .ok (network.addrs.filter fun ip => ip ∉ assignedIps text net range ∧ ip ∉ reserved)

end Functions

section Reserved

def keptIps (range : IpRange) (cidr : Network) : List Addr :=
 boundaryIps range cidr ++ ((range.gateway.filter fun gw => cidr.contains gw.ip).map (·.ip)).toList

variable {range : IpRange} {cidr gateway : Network} {a : Addr}

theorem reservedIps_eq (hgateway : range.gateway = some gateway) :
  reservedIps range cidr gateway = keptIps range cidr := by
 rw [reservedIps, keptIps, hgateway, filter_some]
 split <;> rfl

theorem networkSize_of_ne (h : cidr.prefixLen ≠ 0) : networkSize cidr = cidr.size := if_neg h

theorem networkSize_of_zero (h : cidr.prefixLen = 0) : networkSize cidr + 1 = cidr.size := by
 have hpos := cidr.size_pos
 rw [networkSize, if_pos h]
 rw [size, h, Nat.sub_zero] at hpos ⊢
 omega

theorem networkSize_le (cidr : Network) : networkSize cidr ≤ cidr.size := by
 by_cases h : cidr.prefixLen = 0
 · have := networkSize_of_zero h
   omega
 · exact (networkSize_of_ne h).le

theorem nth_of_lt (cidr : Network) {i : Nat} (h : i < cidr.size) : ∃ a, cidr.nth i = some a := by
 rw [nth, dif_pos h]
 exact ⟨_, rfl⟩

theorem boundaryIps_eq (hkind : cidr.ip.kind = .v4) (hfull : range.useFullRange = false) :
  ∃ first last, boundaryIps range cidr = [first, last] ∧ cidr.nth 0 = some first ∧
   cidr.nth (cidr.size - 1) = some last := by
 have hpos := cidr.size_pos
 obtain ⟨first, hfirst⟩ := nth_of_lt cidr hpos
 obtain ⟨last, hlast⟩ := nth_of_lt cidr (show cidr.size - 1 < cidr.size by omega)
 refine ⟨first, last, ?_, hfirst, hlast⟩
 rw [boundaryIps, if_pos ⟨by rw [hfull]; rfl, hkind⟩, hfirst, hlast]
 rfl

theorem boundaryIps_of_full (hfull : range.useFullRange = true) : boundaryIps range cidr = [] := by
 rw [boundaryIps, if_neg]
 rw [hfull]
 rintro ⟨h, -⟩
 cases h

theorem contains_of_mem_boundaryIps (h : a ∈ boundaryIps range cidr) : cidr.contains a = true := by
 unfold boundaryIps at h
 split at h
 · rw [mem_append, mem_toList, mem_toList] at h
   rcases h with h | h
   · exact contains_of_nth h
   · exact contains_of_nth h
 · exact absurd h not_mem_nil

theorem mem_keptIps :
  a ∈ keptIps range cidr ↔
   a ∈ boundaryIps range cidr ∨ ∃ gw, range.gateway = some gw ∧ gw.ip = a ∧ cidr.contains a = true := by
 rw [keptIps, mem_append, mem_toList, map_eq_some_iff]
 constructor
 · rintro (h | ⟨gw, hgw, rfl⟩)
   · exact .inl h
   · obtain ⟨hgw, hin⟩ := filter_eq_some_iff.mp hgw
     exact .inr ⟨gw, hgw, rfl, hin⟩
 · rintro (h | ⟨gw, hgw, rfl, hin⟩)
   · exact .inl h
   · exact .inr ⟨gw, filter_eq_some_iff.mpr ⟨hgw, hin⟩, rfl⟩

theorem contains_of_mem_keptIps (h : a ∈ keptIps range cidr) : cidr.contains a = true := by
 rcases mem_keptIps.mp h with h | ⟨-, -, -, h⟩
 · exact contains_of_mem_boundaryIps h
 · exact h

def reservedCount (range : IpRange) (cidr : Network) : Nat :=
 (if range.gateway.any fun gw => cidr.contains gw.ip then 1 else 0) + (if range.useFullRange then 0 else 2)

theorem length_keptIps (range : IpRange) (hkind : cidr.ip.kind = .v4) :
  (keptIps range cidr).length = reservedCount range cidr := by
 have hgateway : ((range.gateway.filter fun gw => cidr.contains gw.ip).map (·.ip)).toList.length =
   if range.gateway.any fun gw => cidr.contains gw.ip then 1 else 0 := by
  cases range.gateway with
  | none => rfl
  | some gw =>
   rw [filter_some, any_some]
   split <;> rfl
 have hboundary : (boundaryIps range cidr).length = if range.useFullRange then 0 else 2 := by
  cases hfull : range.useFullRange with
  | true => rw [boundaryIps_of_full hfull]; rfl
  | false =>
   obtain ⟨first, last, heq, -, -⟩ := boundaryIps_eq hkind hfull
   rw [heq]
   rfl
 rw [keptIps, length_append, hgateway, hboundary, reservedCount, Nat.add_comm]

theorem nodup_keptIps (hkind : cidr.ip.kind = .v4) (hin : cidr.contains a = true) (hout : a ∉ boundaryIps range cidr)
  (hgateway : ∀ gw, range.gateway = some gw → gw.ip ∉ boundaryIps range cidr) : (keptIps range cidr).Nodup := by
 have hboundary : (boundaryIps range cidr).Nodup := by
  cases hfull : range.useFullRange with
  | true => rw [boundaryIps_of_full hfull]; exact nodup_nil
  | false =>
   obtain ⟨first, last, heq, hfirst, hlast⟩ := boundaryIps_eq hkind hfull
   rw [heq] at hout ⊢
   rw [nodup_cons, mem_singleton]
   refine ⟨?_, nodup_singleton _⟩
   rintro rfl
   have hsize : 0 = cidr.size - 1 := nth_inj hfirst hlast
   obtain ⟨i, hi⟩ := contains_iff.mp hin
   have hlt := (nth_eq_some.mp hi).1
   obtain rfl : i = 0 := by omega
   rw [hfirst] at hi
   cases hi
   exact hout (mem_cons_self ..)
 refine hboundary.append ?_ ?_
 · cases (range.gateway.filter fun gw => cidr.contains gw.ip).map (·.ip) with
   | none => exact nodup_nil
   | some ip => exact nodup_singleton ip
 intro b hb hgw
 rw [mem_toList, map_eq_some_iff] at hgw
 obtain ⟨gw, hgw, rfl⟩ := hgw
 exact hgateway gw (filter_eq_some_iff.mp hgw).1 hb

end Reserved

section Counters

variable (text : IpText) (net : NetworkDb) (range : IpRange) (cidr : Network)

structure Distinct : Prop where
 readable : ∀ i ∈ net.listVmIpAssignmentsInRange range.id, (text.parse i.ip).isSome = true
 inside : ∀ a ∈ assignedIps text net range, cidr.contains a = true
 nodup : (assignedIps text net range).Nodup

variable {text net range cidr} {gateway : Network}

theorem Distinct.length (h : Distinct text net range cidr) :
  (assignedIps text net range).length = (net.listVmIpAssignmentsInRange range.id).length := by
 rw [assignedIps, length_filterMap_eq_countP, countP_eq_length]
 exact h.readable

theorem computeFreeIps_eq (hcidr : range.cidr = some cidr) (hkind : cidr.ip.kind = .v4)
  (hgateway : range.gateway = some gateway) :
  computeFreeIps text net range =
   .ok (cidr.addrs.filter (· ∉ assignedIps text net range ++ (keptIps range cidr).dedup)) := by
 simp only [computeFreeIps, hcidr, hkind, hgateway, ne_eq, not_true_eq_false, if_false]
 congr 1
 apply filter_congr
 intro a ha
 rw [decide_eq_decide, mem_cons, mem_append, mem_dedup, mem_keptIps, not_or, not_or, not_or]
 have hgw : a = gateway.ip ↔ ∃ gw, range.gateway = some gw ∧ gw.ip = a ∧ cidr.contains a = true := by
  rw [hgateway]
  constructor
  · rintro rfl
    exact ⟨gateway, rfl, rfl, mem_addrs.mp ha⟩
  · rintro ⟨gw, ⟨⟩, rfl, -⟩
    rfl
 rw [hgw]
 exact and_congr_right fun _ => and_comm

theorem length_computeFreeIps (hrows : Distinct text net range cidr)
  (hfree : ∀ a ∈ assignedIps text net range, a ∉ keptIps range cidr) :
  (net.listVmIpAssignmentsInRange range.id).length + (keptIps range cidr).dedup.length +
   (cidr.addrs.filter (· ∉ assignedIps text net range ++ (keptIps range cidr).dedup)).length = cidr.size := by
 rw [← hrows.length, ← length_append]
 apply length_filter_notMem
 · refine hrows.nodup.append (nodup_dedup _) ?_
   intro a ha hkept
   exact hfree a ha (mem_dedup.mp hkept)
 intro a ha
 rcases mem_append.mp ha with ha | ha
 · exact hrows.inside a ha
 · exact contains_of_mem_keptIps (mem_dedup.mp ha)

theorem noneFree_iff (hgateway : range.gateway = some gateway) :
  cidr.addrs.filter (· ∉ assignedIps text net range ++ (keptIps range cidr).dedup) = [] ↔
   ∀ a, cidr.contains a = true →
    a ∈ assignedIps text net range ∨ a = gateway.ip ∨ a ∈ boundaryIps range cidr := by
 simp only [filter_eq_nil_iff, mem_addrs, decide_eq_true_eq, not_not, mem_append, mem_dedup, mem_keptIps, hgateway]
 refine forall_congr' fun a => forall_congr' fun ha => or_congr_right ?_
 simp only [Option.some.injEq, exists_eq_left', ha, and_true]
 rw [or_comm, eq_comm]

theorem free_counters_agree_iff (hcidr : range.cidr = some cidr) (hkind : cidr.ip.kind = .v4)
  (hgateway : range.gateway = some gateway) (hrows : Distinct text net range cidr)
  (hfree : ∀ a ∈ assignedIps text net range, a ∉ keptIps range cidr) :
  ∃ free count, computeFreeIps text net range = .ok free ∧
   countAvailableIps range (net.listVmIpAssignmentsInRange range.id).length = some count ∧
   (count = free.length ↔ (∀ a, cidr.contains a = true →
     a ∈ assignedIps text net range ∨ a = gateway.ip ∨ a ∈ boundaryIps range cidr) ∨
    (cidr.prefixLen ≠ 0 ∧ gateway.ip ∉ boundaryIps range cidr)) := by
 refine ⟨_, networkSize cidr - reservedCount range cidr - (net.listVmIpAssignmentsInRange range.id).length,
  computeFreeIps_eq hcidr hkind hgateway, by simp [countAvailableIps, hcidr, hkind, reservedCount], ?_⟩
 rw [← noneFree_iff hgateway]
 have hlength := length_computeFreeIps hrows hfree
 have hkept := length_keptIps range hkind
 have hdedup := (dedup_sublist (keptIps range cidr)).length_le
 have hsize := networkSize_le cidr
 cases hlist : cidr.addrs.filter (· ∉ assignedIps text net range ++ (keptIps range cidr).dedup) with
 | nil =>
  rw [hlist, length_nil] at hlength
  simp only [length_nil, true_or, iff_true]
  omega
 | cons a rest =>
  rw [hlist, length_cons] at hlength
  have ha : a ∈ cidr.addrs.filter (· ∉ assignedIps text net range ++ (keptIps range cidr).dedup) := by
   rw [hlist]
   exact mem_cons_self ..
  rw [mem_filter, Network.mem_addrs, decide_eq_true_eq, mem_append, mem_dedup, not_or,
   mem_keptIps, not_or] at ha
  simp only [length_cons, reduceCtorEq, false_or]
  constructor
  · intro hcount
    constructor
    · intro hzero
      have := networkSize_of_zero hzero
      omega
    intro hmem
    have hlt : (keptIps range cidr).dedup.length < (keptIps range cidr).length := by
     apply lt_of_le_of_ne hdedup
     intro heq
     have hnodup := dedup_eq_self.mp ((dedup_sublist _).eq_of_length heq)
     have hin := contains_of_mem_boundaryIps hmem
     rw [keptIps, hgateway, filter_some, if_pos hin] at hnodup
     exact (nodup_append.mp hnodup).2.2 _ hmem _ (mem_singleton.mpr rfl) rfl
    omega
  · rintro ⟨hne, hout⟩
    have hnodup := nodup_keptIps hkind ha.1 ha.2.2.1 fun gw hgw => by
     cases hgateway.symm.trans hgw
     exact hout
    rw [hnodup.dedup] at hlength
    have := networkSize_of_ne hne
    omega

def smallNet (len : Nat) (h : len ≤ 32) : Network := ⟨⟨.v4, 0x0A000000, by decide⟩, len, h⟩

def smallRange (gateway : Nat) : IpRange where
 id := 1
 cidr := some (smallNet 29 (by decide))
 gateway := ((smallNet 29 (by decide)).nth gateway).bind fun a => Network.new? a 29

def withRows (ips : List Nat) : NetworkDb where
 db := {}
 vmIpAssignments := ips.map fun ip =>
  { id := ip, vmId := 1, ipRangeId := 1
    ip := Provisioning.plainText.format ⟨.v4, ip % 2 ^ 32, Nat.mod_lt _ (by decide)⟩ }

theorem free_counters_agree_small :
  ∃ free count, computeFreeIps Provisioning.plainText (withRows [0x0A000002]) (smallRange 1) = .ok free ∧
   countAvailableIps (smallRange 1) 1 = some count ∧ count = free.length := by
 have hcidr : (smallRange 1).cidr = some (smallNet 29 (by decide)) := rfl
 have hgateway : (smallRange 1).gateway = some ⟨⟨.v4, 0x0A000001, by decide⟩, 29, by decide⟩ := rfl
 have hrows : Distinct Provisioning.plainText (withRows [0x0A000002]) (smallRange 1) (smallNet 29 (by decide)) :=
  ⟨by decide +kernel, by decide +kernel, by decide +kernel⟩
 obtain ⟨free, count, hfree, hcount, hiff⟩ :=
  free_counters_agree_iff hcidr rfl hgateway hrows (by decide +kernel)
 exact ⟨free, count, hfree, hcount, hiff.mpr (Or.inr (by decide +kernel))⟩

/-- A gateway at the network address is subtracted twice. -/
theorem free_counters_differ :
  computeFreeIps Provisioning.plainText (withRows []) (smallRange 0) =
    .ok ((smallNet 29 (by decide)).addrs.drop 1 |>.take 6) ∧
   countAvailableIps (smallRange 0) 0 = some 5 := by
 decide +kernel

end Counters

end FreeIps

end Lnvps
