import Lnvps.Network

/-! # Unique addresses -/

namespace Lnvps

open Table Steps Net List Option Network

namespace Provisioning

variable {text : IpText} {net net' : NetworkDb}

section Pick

variable {range : IpRange} {draw : Nat} {available : AvailableIp}

theorem pickIpFromRange_spec (h : pickIpFromRange text net range draw = some available) :
  available.rangeId = range.id ∧ ∃ cidr, range.cidr = some cidr ∧ available.ip.ip.kind = cidr.ip.kind ∧
   (available.mode = .slaacEui64 → cidr.ip.kind ≠ .v4) ∧
   (available.mode ≠ .slaacEui64 →
    (∀ i ∈ net.vmIpAssignments, i.deleted = false → i.ipRangeId = range.id →
     text.parse i.ip ≠ some available.ip.ip) ∧
    isReserved text range (text.format available.ip.ip) = false) := by
 obtain ⟨cidr, hcidr, h⟩ := bind_eq_some_iff.mp h
 obtain ⟨gateway, hgateway, h⟩ := bind_eq_some_iff.mp h
 dsimp only at h
 split at h
 · cases h
 obtain ⟨ip, hip, h⟩ := bind_eq_some_iff.mp h
 cases h
 generalize hips : (net.listVmIpAssignmentsInRange range.id).filterMap (fun i => text.parse i.ip) ++
  reservedIps range cidr gateway = ips at hip
 have hfree : ip.ip ∉ ips → (∀ i ∈ net.vmIpAssignments, i.deleted = false → i.ipRangeId = range.id →
   text.parse i.ip ≠ some ip.ip) ∧ isReserved text range (text.format ip.ip) = false := by
  intro hout
  rw [← hips, mem_append, not_or] at hout
  constructor
  · intro i hi hdel hrange hparse
    apply hout.1
    rw [mem_filterMap]
    refine ⟨i, ?_, hparse⟩
    rw [NetworkDb.listVmIpAssignmentsInRange, mem_filter]
    exact ⟨hi, by simp [hdel, hrange]⟩
  · simp [isReserved, hcidr, hgateway, text.parse_format, hout.2]
 refine ⟨rfl, cidr, hcidr, ?_⟩
 cases hmode : range.allocationMode with
 | sequential =>
  rw [hmode] at hip
  obtain ⟨a, ha, hnew⟩ := bind_eq_some_iff.mp hip
  obtain ⟨hin, hout⟩ := firstFree_spec ha
  have hia := ip_of_new? hnew
  rw [← hia] at hin hout
  exact ⟨kind_of_contains hin, nofun, fun _ => hfree hout⟩
 | random =>
  rw [hmode] at hip
  obtain ⟨a, ha, hnew⟩ := bind_eq_some_iff.mp hip
  obtain ⟨hnth, hout⟩ := filter_eq_some_iff.mp ha
  rw [decide_eq_true_eq] at hout
  have hin := contains_of_nth hnth
  have hia := ip_of_new? hnew
  rw [← hia] at hin hout
  exact ⟨kind_of_contains hin, nofun, fun _ => hfree hout.2⟩
 | slaacEui64 =>
  rw [hmode] at hip
  dsimp only at hip
  split at hip
  · cases hip
  · rename_i hkind
    cases hip
    exact ⟨rfl, fun _ => hkind, fun hne => absurd rfl hne⟩

end Pick

structure PickedFree (text : IpText) (net : NetworkDb) (p : PendingIp) : Prop where
 free : ∃ a, text.parse p.ip = some a ∧ ∀ i ∈ net.vmIpAssignments, i.deleted = false →
  i.ipRangeId = p.ipRangeId → text.parse i.ip ≠ some a
 unreserved : reservedIn text net p.ipRangeId p.ip = false

theorem pickedFree_of_pick {range : IpRange} {draw : Nat} {available : AvailableIp}
  (hrange : net.getIpRange range.id = some range) (h : pickIpFromRange text net range draw = some available)
  (hmode : available.mode ≠ .slaacEui64) : PickedFree text net (available.toPending text) := by
 obtain ⟨hid, cidr, -, -, -, hfree⟩ := pickIpFromRange_spec h
 obtain ⟨hfree, hres⟩ := hfree hmode
 refine ⟨⟨available.ip.ip, text.parse_format _, ?_⟩, ?_⟩
 · intro i hi hdel hr
   exact hfree i hi hdel (hr.trans hid)
 · change reservedIn text net available.rangeId (text.format available.ip.ip) = false
   rw [hid, reservedIn, hrange, any_some]
   exact hres

theorem pickIpForRegion_spec {regionId : Nat} {shuffled : List IpRange} {draw : Nat → Nat}
  {ip4 ip6 : Option AvailableIp} (h : pickIpForRegion text net regionId shuffled draw = some (ip4, ip6)) :
  (∀ v4 ∈ ip4, ∃ range ∈ net.ipRanges, ∃ cidr, range.cidr = some cidr ∧ cidr.ip.kind = .v4 ∧
    pickIpFromRange text net range (draw range.id) = some v4) ∧
   (∀ v6 ∈ ip6, ∃ range ∈ net.ipRanges, ∃ cidr, range.cidr = some cidr ∧ cidr.ip.kind = .v6 ∧
    pickIpFromRange text net range (draw range.id) = some v6) := by
 unfold pickIpForRegion at h
 split at h
 · rename_i hperm
   have hmem : ∀ r ∈ shuffled, r ∈ net.ipRanges := by
    intro r hr
    have := (isPerm_iff.mp hperm).mem_iff.mp hr
    exact (mem_filter.mp (mem_filter.mp this).1).1
   have hpick : ∀ kind available, (shuffled.findSome? fun range =>
     if range.cidr.any fun cidr => cidr.ip.kind = kind then pickIpFromRange text net range (draw range.id)
     else none) = some available → ∃ range ∈ net.ipRanges, ∃ cidr, range.cidr = some cidr ∧ cidr.ip.kind = kind ∧
      pickIpFromRange text net range (draw range.id) = some available := by
    intro kind available h
    obtain ⟨range, hr, h⟩ := exists_of_findSome?_eq_some h
    split at h
    · rename_i hkind
      obtain ⟨cidr, hcidr, hkind⟩ := (any_eq_true _ _).mp hkind
      exact ⟨range, hmem range hr, cidr, hcidr, of_decide_eq_true hkind, h⟩
    · cases h
   dsimp only at h
   split at h
   · cases h
   obtain ⟨h4, h6⟩ := Prod.mk.inj (Option.some.inj h)
   constructor
   · intro v4 hv4
     exact hpick .v4 v4 (h4.trans hv4)
   · intro v6 hv6
     exact hpick .v6 v6 (h6.trans hv6)
 · cases h

theorem assignIps_spec (hkeys : NetworkKeys net) {vm : Vm} {c : Choices} {pending : List PendingIp}
    (h : assignIps text net vm c = some pending) :
    (∀ p ∈ pending, p.picked = true → PickedFree text net p) ∧
      pending.Pairwise fun p q => text.parse p.ip ≠ text.parse q.ip := by
  unfold assignIps at h
  split at h
  · cases h
    exact ⟨nofun, .nil⟩
  obtain ⟨host, -, h⟩ := bind_eq_some_iff.mp h
  obtain ⟨⟨ip4, ip6⟩, hpick, h⟩ := bind_eq_some_iff.mp h
  obtain ⟨v4, hv4, h⟩ := bind_eq_some_iff.mp h
  obtain ⟨h4, h6⟩ := pickIpForRegion_spec hpick
  obtain ⟨range4, hr4, cidr4, hc4, hk4, hpick4⟩ := h4 v4 hv4
  obtain ⟨-, cidr, hcidr, hkind, hslaac, -⟩ := pickIpFromRange_spec hpick4
  cases hc4.symm.trans hcidr
  have hmode4 : v4.mode ≠ .slaacEui64 := fun hm => hslaac hm hk4
  have hfree4 := pickedFree_of_pick (hkeys.ranges.lookup_of_mem hr4) hpick4 hmode4
  have hkind4 : v4.ip.ip.kind = .v4 := hkind.trans hk4
  rcases ip6 with _ | v6
  · cases h
    refine ⟨?_, pairwise_singleton _ _⟩
    intro p hp _
    obtain rfl := mem_singleton.mp hp
    exact hfree4
  · obtain ⟨second, hsecond, h⟩ := bind_eq_some_iff.mp h
    cases h
    obtain ⟨range6, hr6, cidr6, hc6, hk6, hpick6⟩ := h6 v6 rfl
    obtain ⟨-, cidr', hcidr', hkind6, -, -⟩ := pickIpFromRange_spec hpick6
    cases hc6.symm.trans hcidr'
    have hsec : (second.picked = true → PickedFree text net second) ∧
        ∃ a, text.parse second.ip = some a ∧ a.kind = .v6 := by
      unfold v6ToAllocation at hsecond
      split at hsecond
      · obtain ⟨a, ha, rfl⟩ := map_eq_some_iff.mp hsecond
        refine ⟨nofun, a, text.parse_format a, ?_⟩
        unfold calculateEui64 at ha
        split at ha
        · cases ha
          rfl
        · cases ha
      · rename_i hmode6
        cases hsecond
        exact ⟨fun _ => pickedFree_of_pick (hkeys.ranges.lookup_of_mem hr6) hpick6 hmode6, v6.ip.ip,
          text.parse_format _, hkind6.trans hk6⟩
    obtain ⟨hfree6, a6, ha6, hka6⟩ := hsec
    constructor
    · intro p hp hpicked
      rcases mem_pair.mp hp with rfl | rfl
      · exact hfree4
      · exact hfree6 hpicked
    refine pairwise_pair.mpr ?_
    change text.parse (text.format v4.ip.ip) ≠ _
    rw [text.parse_format, ha6]
    intro heq
    rw [← Option.some.inj heq, hkind4] at hka6
    cases hka6

structure Inv (text : IpText) (s : Provisioning) : Prop where
 keys : NetworkKeys s.net
 unique : IpsUnique text s.net
 picked : ∀ p ∈ s.worker.pending, p.picked = true → PickedFree text s.net p
 apart : s.worker.pending.Pairwise fun p q => text.parse p.ip ≠ text.parse q.ip

structure Frees (net net' : NetworkDb) : Prop where
 ranges : net'.ipRanges = net.ipRanges
 rows : ∀ i ∈ net'.vmIpAssignments, i.deleted = false → i ∈ net.vmIpAssignments

theorem Frees.reservedIn (h : Frees net net') (ipRangeId : Nat) (ip : String) :
  reservedIn text net' ipRangeId ip = reservedIn text net ipRangeId ip := by
 unfold Provisioning.reservedIn NetworkDb.getIpRange
 rw [h.ranges]

theorem IpsUnique.frees (hu : IpsUnique text net) (h : Frees net net') : IpsUnique text net' := by
 constructor
 · intro i hi j hj hid hjd
   exact hu.distinct i (h.rows i hi hid) j (h.rows j hj hjd) hid hjd
 · intro i hi hid
   rw [h.reservedIn]
   exact hu.unreserved i (h.rows i hi hid) hid

theorem PickedFree.frees {p : PendingIp} (hp : PickedFree text net p) (h : Frees net net') :
  PickedFree text net' p := by
 obtain ⟨⟨a, ha, hfree⟩, hres⟩ := hp
 refine ⟨⟨a, ha, ?_⟩, ?_⟩
 · intro i hi hid
   exact hfree i (h.rows i hi hid) hid
 · rw [h.reservedIn]
   exact hres

section Deletes

variable {q : VmIpAssignment → Bool}

theorem frees_delete : Frees net { net with
  vmIpAssignments := updateWhere q (fun i => { i with deleted := true }) net.vmIpAssignments } := by
 refine ⟨rfl, ?_⟩
 intro i hi hid
 obtain ⟨r, hr, rfl⟩ := mem_updateWhere.mp hi
 split at hid
 · cases hid
 · rename_i hq
   rwa [if_neg hq]

theorem keys_delete (hk : NetworkKeys net) : NetworkKeys { net with
  vmIpAssignments := updateWhere q (fun i => { i with deleted := true }) net.vmIpAssignments } := by
 refine ⟨hk.ranges, hk.assignments.updateWhere (fun _ _ _ => rfl), ?_⟩
 intro i hi
 obtain ⟨r, hr, rfl⟩ := mem_updateWhere.mp hi
 have := hk.next r hr
 split <;> exact this

theorem keys_filter (hk : NetworkKeys net) :
  NetworkKeys { net with vmIpAssignments := net.vmIpAssignments.filter q } := by
 refine ⟨hk.ranges, ?_, fun i hi => hk.next i (mem_filter.mp hi).1⟩
 exact hk.assignments.sublist (filter_sublist.map _)

end Deletes

theorem Inv.frees {s t : Provisioning} (h : Inv text s) (hkeys : NetworkKeys t.net) (hfrees : Frees s.net t.net)
  (hpending : t.worker.pending.Sublist s.worker.pending) : Inv text t where
 keys := hkeys
 unique := h.unique.frees hfrees
 picked := fun p hp hpicked => (h.picked p (hpending.subset hp) hpicked).frees hfrees
 apart := h.apart.sublist hpending

theorem holdsIp_eq_false {ok : VmIpAssignment → Bool} {ip : String} : holdsIp text net ok ip = false ↔
  ∀ i ∈ net.vmIpAssignments, i.deleted = false → ok i = true → ∀ a, text.parse i.ip = some a →
   text.parse ip ≠ some a := by
 unfold holdsIp
 rw [List.any_eq_false]
 constructor
 · intro h i hi hdel hok a ha hip
   apply h i hi
   simp [hdel, hok, ha, hip]
 intro h i hi
 rw [decide_eq_true_eq]
 rintro ⟨hdel, hok, hany⟩
 obtain ⟨a, ha, hip⟩ := (any_eq_true _ _).mp hany
 exact h i hi (by simpa using hdel) hok a ha (of_decide_eq_true hip)

section Insert

variable {vmId : Nat} {p : PendingIp}

theorem mem_insert {i : VmIpAssignment} (h : i ∈ (net.insertVmIpAssignment vmId p.ipRangeId p.ip).vmIpAssignments) :
  i ∈ net.vmIpAssignments ∨ i.ipRangeId = p.ipRangeId ∧ i.ip = p.ip ∧
   i = { id := net.nextId, vmId, ipRangeId := p.ipRangeId, ip := p.ip } := by
 rcases mem_snoc.mp h with hold | rfl
 · exact .inl hold
 · exact .inr ⟨rfl, rfl, rfl⟩

theorem keys_insert (hk : NetworkKeys net) : NetworkKeys (net.insertVmIpAssignment vmId p.ipRangeId p.ip) := by
 refine ⟨hk.ranges, hk.assignments.snoc ?_, ?_⟩
 · intro i hi
   exact Nat.ne_of_lt (hk.next i hi)
 intro i hi
 change i.id < net.nextId + 1
 rcases mem_insert hi with hold | ⟨-, -, rfl⟩
 · have := hk.next i hold
   omega
 · exact Nat.lt_succ_self _

theorem unique_insert (hu : IpsUnique text net)
  (hfree : ∀ i ∈ net.vmIpAssignments, i.deleted = false → ∀ a, text.parse i.ip = some a → text.parse p.ip ≠ some a)
  (hres : reservedIn text net p.ipRangeId p.ip = false) :
  IpsUnique text (net.insertVmIpAssignment vmId p.ipRangeId p.ip) := by
 constructor
 · intro i hi j hj hid hjd a ha hb
   rcases mem_insert hi with hi | ⟨-, hip, rfl⟩ <;> rcases mem_insert hj with hj | ⟨-, hjp, rfl⟩
   · exact hu.distinct i hi j hj hid hjd a ha hb
   · exact absurd hb (hfree i hi hid a ha)
   · exact absurd ha (hfree j hj hjd a hb)
   · rfl
 · intro i hi hid
   rcases mem_insert hi with hi | ⟨-, -, rfl⟩
   · exact hu.unreserved i hi hid
   · exact hres

theorem picked_insert {q : PendingIp} (hq : PickedFree text net q) (hne : text.parse p.ip ≠ text.parse q.ip) :
  PickedFree text (net.insertVmIpAssignment vmId p.ipRangeId p.ip) q := by
 obtain ⟨⟨a, ha, hfree⟩, hres⟩ := hq
 refine ⟨⟨a, ha, ?_⟩, hres⟩
 intro i hi hid hrange
 rcases mem_insert hi with hi | ⟨-, hip, -⟩
 · exact hfree i hi hid hrange
 · rw [hip, ← ha]
   exact hne

end Insert

section Update

variable {u : VmIpAssignment}

theorem mem_updateIp {i : VmIpAssignment} (h : i ∈ (net.updateIp u).vmIpAssignments) :
  (i ∈ net.vmIpAssignments ∧ i.id ≠ u.id) ∨ ∃ row ∈ net.vmIpAssignments, row.id = u.id ∧
   i = { u with id := row.id, deleted := row.deleted } := by
 obtain ⟨row, hrow, rfl⟩ := mem_updateWhere.mp h
 by_cases hid : row.id = u.id
 · right
   exact ⟨row, hrow, hid, by simp [hid]⟩
 · left
   simp only [hid, decide_false, Bool.false_eq_true, if_false]
   exact ⟨hrow, hid⟩

theorem keys_updateIp (hk : NetworkKeys net) : NetworkKeys (net.updateIp u) := by
 refine ⟨hk.ranges, hk.assignments.updateWhere (fun _ _ _ => rfl), ?_⟩
 intro i hi
 change i.id < net.nextId
 rcases mem_updateIp hi with ⟨hi, -⟩ | ⟨row, hrow, -, rfl⟩
 · exact hk.next i hi
 · exact hk.next row hrow

theorem unique_updateIp (hk : NetworkKeys net) (hu : IpsUnique text net)
  (hfree : ∀ row ∈ net.vmIpAssignments, row.id = u.id → row.deleted = false →
   holdsIp text net (fun i => i.id ≠ u.id) u.ip = false ∧ reservedIn text net u.ipRangeId u.ip = false) :
  IpsUnique text (net.updateIp u) := by
 have hother : ∀ row ∈ net.vmIpAssignments, row.id = u.id → row.deleted = false → ∀ j ∈ net.vmIpAssignments,
   j.id ≠ u.id → j.deleted = false → ∀ a, text.parse j.ip = some a → text.parse u.ip ≠ some a := by
  intro row hrow hid hdel j hj hjid hjd
  exact holdsIp_eq_false.mp (hfree row hrow hid hdel).1 j hj hjd (decide_eq_true hjid)
 constructor
 · intro i hi j hj hid hjd a ha hb
   rcases mem_updateIp hi with ⟨hi, hiid⟩ | ⟨row, hrow, hrid, rfl⟩ <;>
    rcases mem_updateIp hj with ⟨hj, hjid⟩ | ⟨row', hrow', hrid', rfl⟩
   · exact hu.distinct i hi j hj hid hjd a ha hb
   · exact absurd hb (hother row' hrow' hrid' hjd i hi hiid hid a ha)
   · exact absurd ha (hother row hrow hrid hid j hj hjid hjd a hb)
   · rw [hk.assignments.eq_of_key hrow hrow' (hrid.trans hrid'.symm)]
 · intro i hi hid
   change reservedIn text net i.ipRangeId i.ip = false
   rcases mem_updateIp hi with ⟨hi, -⟩ | ⟨row, hrow, hrid, rfl⟩
   · exact hu.unreserved i hi hid
   · exact (hfree row hrow hrid hid).2

theorem picked_updateIp {p : PendingIp} (hp : PickedFree text net p)
  (hne : ∀ row ∈ net.vmIpAssignments, row.id = u.id → row.deleted = false →
   ∀ a, text.parse p.ip = some a → text.parse u.ip ≠ some a) : PickedFree text (net.updateIp u) p := by
 obtain ⟨⟨a, ha, hfree⟩, hres⟩ := hp
 refine ⟨⟨a, ha, ?_⟩, hres⟩
 intro i hi hid hrange
 rcases mem_updateIp hi with ⟨hi, -⟩ | ⟨row, hrow, hrid, rfl⟩
 · exact hfree i hi hid hrange
 · exact hne row hrow hrid hid a ha

end Update

section Step

variable {s t : Provisioning}

theorem deleteVm_frees {vmId : Nat} {purge : Bool} (hk : NetworkKeys net)
  (h : deleteVm net vmId purge = some net') : NetworkKeys net' ∧ Frees net net' := by
 obtain ⟨vm, -, h⟩ := bind_eq_some_iff.mp h
 have hdel : Frees net (net.deleteAllIpAssignments vmId) := frees_delete
 have hkdel : NetworkKeys (net.deleteAllIpAssignments vmId) := keys_delete hk
 split at h
 · cases h
   exact ⟨hk, rfl, fun _ hi _ => hi⟩
 dsimp only at h
 split at h
 · cases h
   have hhard := keys_filter (q := fun i => i.vmId ≠ vmId) hkdel
   refine ⟨⟨hhard.ranges, hhard.assignments, hhard.next⟩, rfl, ?_⟩
   intro i hi hid
   exact hdel.rows i (mem_filter.mp hi).1 hid
 · cases h
   exact ⟨⟨hkdel.ranges, hkdel.assignments, hkdel.next⟩, rfl, hdel.rows⟩

theorem spawnVm_spec (hk : NetworkKeys net) {vmId : Nat} {c : Choices} {pending : List PendingIp}
  (h : spawnVm text net vmId c = some (net', pending)) :
  NetworkKeys net' ∧ Frees net net' ∧ (∀ p ∈ pending, p.picked = true → PickedFree text net p) ∧
   pending.Pairwise fun p q => text.parse p.ip ≠ text.parse q.ip := by
 obtain ⟨vm, -, h⟩ := bind_eq_some_iff.mp h
 obtain ⟨pending', hassign, h⟩ := bind_eq_some_iff.mp h
 split at h
 · cases h
   exact ⟨⟨hk.ranges, hk.assignments, hk.next⟩, ⟨rfl, fun _ hi _ => hi⟩, assignIps_spec hk hassign⟩
 · cases h

theorem assignVmIp_spec {vmId ipRangeId : Nat} {ip : Option String} {c : Choices} {p : PendingIp}
  (h : assignVmIp text net vmId ipRangeId ip c = some p) (hpicked : p.picked = true) : PickedFree text net p := by
 obtain ⟨vm, -, h⟩ := bind_eq_some_iff.mp h
 obtain ⟨range, hrange, h⟩ := bind_eq_some_iff.mp h
 have hid : range.id = ipRangeId := key_of_lookup hrange
 split at h
 · cases h
 obtain ⟨pending, hpending, h⟩ := bind_eq_some_iff.mp h
 split at h
 · cases h
   split at hpending
   · cases hpending
     cases hpicked
   obtain ⟨available, hpick, rfl⟩ := map_eq_some_iff.mp hpending
   have hmode : available.mode ≠ .slaacEui64 := of_decide_eq_true hpicked
   rw [← hid] at hrange
   exact pickedFree_of_pick hrange hpick hmode
 · cases h

theorem start_inv (h : Inv text s) {job : Job} {c : Choices} (hs : step text s (.start job c) = some t) :
  Inv text t := by
 unfold step at hs
 dsimp only at hs
 split at hs
 · have hsame : ∀ queue, Inv text { s with queue } := fun _ => ⟨h.keys, h.unique, h.picked, h.apart⟩
   cases job with
   | spawnVm vmId =>
    dsimp only at hs
    split at hs
    · rename_i net' pending hspawn
      cases hs
      obtain ⟨hk, hfrees, hpicked, hapart⟩ := spawnVm_spec h.keys hspawn
      exact ⟨hk, h.unique.frees hfrees, fun p hp hb => (hpicked p hp hb).frees hfrees, hapart⟩
    · cases hs
      exact hsame _
   | assignVmIp vmId ipRangeId ip =>
    dsimp only at hs
    split at hs
    · rename_i pending hassign
      cases hs
      refine ⟨h.keys, h.unique, ?_, pairwise_singleton _ _⟩
      intro p hp hpicked
      obtain rfl := mem_singleton.mp hp
      exact assignVmIp_spec hassign hpicked
    · cases hs
      exact hsame _
   | unassignVmIp assignmentId =>
    dsimp only at hs
    split at hs
    · cases hs
      exact h.frees (keys_delete h.keys) frees_delete (.refl _)
    · cases hs
      exact hsame _
   | deleteVm vmId purge =>
    cases hs
    rcases hdel : deleteVm s.net vmId purge with _ | net'
    · exact hsame _
    · obtain ⟨hk, hfrees⟩ := deleteVm_frees h.keys hdel
      exact h.frees hk hfrees (.refl _)
 · cases hs

theorem save_inv (h : Inv text s) (hok : findsFree text s .save = true) (hs : step text s .save = some t) :
  Inv text t := by
 unfold step at hs
 unfold findsFree at hok
 dsimp only at hs hok
 split at hs
 · rename_i job vmId p pending hworker
   cases hs
   rw [hworker] at hok
   dsimp only at hok
   have hpicked := h.picked
   have hapart := h.apart
   rw [hworker] at hpicked hapart
   obtain ⟨hp, hrest⟩ := pairwise_cons.mp hapart
   have hpending : (if pending.isEmpty then IpWorker.idle else .saving job vmId pending).pending = pending := by
    cases pending <;> rfl
   have hnew : (∀ i ∈ s.net.vmIpAssignments, i.deleted = false → ∀ a, text.parse i.ip = some a →
     text.parse p.ip ≠ some a) ∧ reservedIn text s.net p.ipRangeId p.ip = false := by
    split at hok
    · rename_i hb
      obtain ⟨⟨b, hparse, hfree⟩, hres⟩ := hpicked p mem_cons_self hb
      refine ⟨?_, hres⟩
      intro i hi hdel a ha hpa
      by_cases hrange : i.ipRangeId = p.ipRangeId
      · rw [hpa] at hparse
        exact hfree i hi hdel hrange (ha.trans hparse)
      · exact holdsIp_eq_false.mp (Bool.not_eq_true' _ ▸ hok) i hi hdel (decide_eq_true hrange) a ha hpa
    · rw [Bool.and_eq_true, Bool.not_eq_true', Bool.not_eq_true'] at hok
      refine ⟨?_, hok.2⟩
      intro i hi hdel
      exact holdsIp_eq_false.mp hok.1 i hi hdel rfl
   refine ⟨keys_insert h.keys, unique_insert h.unique hnew.1 hnew.2, ?_, ?_⟩
   · rw [hpending]
     intro q hq hb
     exact picked_insert (hpicked q (mem_cons_of_mem _ hq) hb) (hp q hq)
   · rw [hpending]
     exact hrest
 · cases hs
   exact ⟨h.keys, h.unique, nofun, .nil⟩
 · cases hs

theorem fail_inv (h : Inv text s) (hs : step text s .fail = some t) : Inv text t := by
 unfold step at hs
 dsimp only at hs
 split at hs
 · cases hs
   exact h.frees ⟨h.keys.ranges, h.keys.assignments, h.keys.next⟩ ⟨rfl, fun _ hi _ => hi⟩ (nil_sublist _)
 · cases hs
   exact ⟨h.keys, h.unique, nofun, .nil⟩
 · cases hs

theorem adminWrite_inv (h : Inv text s) {u : VmIpAssignment} (hok : findsFree text s (.adminWrite u) = true)
  (hs : step text s (.adminWrite u) = some t) : Inv text t := by
 unfold step at hs
 dsimp only at hs
 split at hs
 · cases hs
   have hrow : ∀ row ∈ s.net.vmIpAssignments, row.id = u.id → row.deleted = false →
     (holdsIp text s.net (fun i => i.id ≠ u.id) u.ip = false ∧ reservedIn text s.net u.ipRangeId u.ip = false) ∧
      ∀ ip ∈ pickedIps s, ∀ a, text.parse ip = some a → text.parse u.ip ≠ some a := by
    intro row hmem hid hdel
    have hget : s.net.getVmIpAssignment u.id = some row := by
     rw [← hid]
     exact h.keys.assignments.lookup_of_mem hmem
    unfold findsFree at hok
    simp only [hget, all_some, hdel, Bool.false_or, Bool.and_eq_true, Bool.not_eq_true'] at hok
    refine ⟨hok.1, ?_⟩
    intro ip hip a ha hu
    have := all_eq_true.mp hok.2 ip hip
    simp [ha, hu] at this
   refine ⟨keys_updateIp h.keys, unique_updateIp h.keys h.unique ?_, ?_, h.apart⟩
   · intro row hmem hid hdel
     exact (hrow row hmem hid hdel).1
   intro p hp hb
   refine picked_updateIp (h.picked p hp hb) ?_
   intro row hmem hid hdel
   apply (hrow row hmem hid hdel).2
   exact mem_map.mpr ⟨p, mem_filter.mpr ⟨hp, hb⟩, rfl⟩
 · cases hs

theorem step_inv (l : Label) (h : Inv text s) (hok : findsFree text s l = true) (hs : step text s l = some t) :
  Inv text t := by
 cases l with
 | adminCreate now vmId ipRangeId ip choices | adminCheck id ip =>
  obtain ⟨_, -, hs⟩ := bind_eq_some_iff.mp hs
  cases hs
  exact ⟨h.keys, h.unique, h.picked, h.apart⟩
 | enqueue job =>
  cases hs
  exact ⟨h.keys, h.unique, h.picked, h.apart⟩
 | start job choices => exact start_inv h hs
 | save => exact save_inv h hok hs
 | fail => exact fail_inv h hs
 | adminWrite u => exact adminWrite_inv h hok hs

end Step

theorem ips_stay_unique (text : IpText) {s t : Provisioning} {ls : List Label} (hkeys : NetworkKeys s.net)
  (hunique : IpsUnique text s.net) (hidle : s.worker = .idle)
  (h : RunIf (step text) (fun s l => findsFree text s l = true) s ls t) : IpsUnique text t.net := by
 have h0 : Inv text s := by
  refine ⟨hkeys, hunique, ?_, ?_⟩
  · rw [hidle]
    nofun
  · rw [hidle]
    exact .nil
 exact (h.invariant (fun _ l _ => step_inv l) h0).unique

theorem smallRange_first : 167772160 < 2 ^ Kind.v4.bits := by decide

def smallRange : NetworkDb where
 db := {
  subscriptions := [{ id := 1, expires := some (30 * day), isActive := true, isSetup := true }]
  lineItems := [{ id := 1, subscriptionId := 1, subscriptionType := .vps }]
  vms := [{ id := 1, hostId := 1, subscriptionLineItemId := 1 },
   { id := 2, hostId := 1, subscriptionLineItemId := 1, macAddress := some 1 }]
  hosts := [{ id := 1 }] }
 ipRanges := [{
  id := 1
  cidr := some ⟨⟨.v4, 167772160, smallRange_first⟩, 29, by decide⟩
  gateway := some ⟨⟨.v4, 167772161, by decide⟩, 32, by decide⟩ }]

theorem smallRange_keys : NetworkKeys smallRange :=
 ⟨by decide, by decide, fun _ hi => absurd hi not_mem_nil⟩

theorem smallRange_unique (text : IpText) : IpsUnique text smallRange :=
 ⟨fun _ hi => absurd hi not_mem_nil, fun _ hi => absurd hi not_mem_nil⟩

/-- The first VM is spawned, the second one gets an address that an administrator chose and later changes. -/
theorem ips_stay_unique_small_range : ∃ ls t,
  RunIf (step plainText) (fun s l => findsFree plainText s l = true) { net := smallRange } ls t ∧
   t.net.vmIpAssignments = [{ id := 1, vmId := 1, ipRangeId := 1, ip := "10.0.0.2" },
    { id := 2, vmId := 2, ipRangeId := 1, ip := "10.0.0.5" }] ∧ IpsUnique plainText t.net :=
 ⟨[.enqueue (.spawnVm 1), .adminCreate 0 2 1 (some "10.0.0.3") {},
  .start (.spawnVm 1) { shuffled := smallRange.ipRanges }, .save, .start (.assignVmIp 2 1 (some "10.0.0.3")) {},
  .save, .adminCheck 2 (some "10.0.0.5"), .adminWrite { id := 2, vmId := 2, ipRangeId := 1, ip := "10.0.0.5" }],
  RunIf.exists_and_of_execIf (by decide +kernel) fun _ hrun _ =>
   ips_stay_unique plainText smallRange_keys (smallRange_unique _) rfl hrun⟩

/-- Two administrators ask for any free address before the worker comes to the first request. Both requests carry
10.0.0.2, and the worker stores it twice. -/
theorem two_requests_one_address : NetworkKeys smallRange ∧ IpsUnique plainText smallRange ∧
  ¬ ∀ ls t, Run (step plainText) { net := smallRange } ls t → IpsUnique plainText t.net := by
 refine ⟨smallRange_keys, smallRange_unique _, fun hall => ?_⟩
 obtain ⟨t, hrun, hmem⟩ : ∃ t, Run (step plainText) { net := smallRange }
   [.adminCreate 0 1 1 none {}, .adminCreate 0 2 1 none {}, .start (.assignVmIp 1 1 (some "10.0.0.2")) {}, .save,
    .start (.assignVmIp 2 1 (some "10.0.0.2")) {}, .save] t ∧
   t.net.vmIpAssignments = [{ id := 1, vmId := 1, ipRangeId := 1, ip := "10.0.0.2" },
    { id := 2, vmId := 2, ipRangeId := 1, ip := "10.0.0.2" }] :=
  Run.exists_of_exec (by decide +kernel)
 have hparse : plainText.parse "10.0.0.2" = some ⟨.v4, 167772162, by decide⟩ := by decide +kernel
 have heq := (hall _ t hrun).distinct { id := 1, vmId := 1, ipRangeId := 1, ip := "10.0.0.2" } (by rw [hmem]; simp)
  { id := 2, vmId := 2, ipRangeId := 1, ip := "10.0.0.2" } (by rw [hmem]; simp) rfl rfl _ hparse hparse
 cases heq

end Provisioning

end Lnvps
