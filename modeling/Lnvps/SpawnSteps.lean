import Lnvps.Spawn

/-! # The steps of a spawn -/

namespace Lnvps.Spawn

open Table Net Pipeline Option State

variable {text : IpText} {answers : Nat → Answer}

theorem forEachIp_rule {f : VmIpAssignment → State → Except (OpError String) VmIpAssignment × State}
  {J : List VmIpAssignment → List VmIpAssignment → State → Prop}
  {K : List VmIpAssignment → OpError String → State → Prop}
  (hround : ∀ done ip rest u, J done (ip :: rest) u → (∃ e v, f ip u = (.error e, v) ∧ K (done ++ ip :: rest) e v) ∨
   ∃ ip' v, f ip u = (.ok ip', v) ∧ J (done ++ [ip']) rest v)
  {done rest : List VmIpAssignment} {s : State} (h : J done rest s) :
  (∃ e ips u, forEachIp f done rest s = (.error e, { u with ips }) ∧ K ips e u) ∨
   ∃ ips u, forEachIp f done rest s = (.ok (), { u with ips }) ∧ J ips [] u := by
 induction rest generalizing done s with
 | nil => exact .inr ⟨done, s, rfl, h⟩
 | cons ip rest ih =>
  obtain ⟨e, v, hv, hK⟩ | ⟨ip', v, hv, hJ⟩ := hround done ip rest s h <;> rw [forEachIp, hv]
  · exact .inl ⟨e, _, v, rfl, hK⟩
  · exact ih hJ

def Ranged (s : State) : Prop := ∀ r ∈ s.ranges, s.net.getIpRange r.id = some r

def macEntry (s : State) : Option (Nat × Option String) :=
 match s.generatedMac.bind (·.id), findRouter s.net s.ranges s.ips with
 | some id, .ok (some router) => some (router, some id)
 | _, _ => none

def RouterKnown (s : State) : Prop :=
 ∀ id, s.generatedMac.bind (·.id) = some id → ∃ router, findRouter s.net s.ranges s.ips = .ok (some router)

def Quiet (text : IpText) (ips : List VmIpAssignment) : Prop :=
 ∀ ip ∈ ips, ip.arpRef = none → ∃ a, text.parse ip.ip = some a ∧ a.kind = .v6

structure Loaded (s : State) : Prop where
 generatedMac : s.generatedMac = none
 arp : s.arp = []
 dns : s.dns = []
 hostVm : s.hostVm = false
 replies : s.replies = {}
 ranged : Ranged s

structure Unwritten (s t : State) : Prop where
 net : t.net = s.net
 dns : t.dns = []
 hostVm : t.hostVm = false
 arp : t.replies.macEntries = 0 ↔ t.arp = []
 replies : t.replies = { macEntries := t.replies.macEntries }

structure Allocated (text : IpText) (s t : State) : Prop where
 vm : t.vm = { s.vm with macAddress := t.vm.macAddress }
 dns : t.dns = []
 hostVm : t.hostVm = false
 arp : t.arp = (macEntry t).toList
 known : RouterKnown t
 ips : t.generatedMac = none ∧ t.ips = s.ips ∨
  t.vm.macAddress.isSome ∧ (∀ ip ∈ t.ips, ip.dnsForwardRef = none ∧ ip.dnsReverseRef = none) ∧
   ((t.generatedMac.bind (·.id)).isSome → Quiet text t.ips)

def Retried (s t : State) : Prop := ∃ calls ranges, t = { s with calls, ranges } ∧ Ranged t

variable {ranges : List IpRange} {ips done rest : List VmIpAssignment} {s t : State} {calls router : Nat}
 {ip : VmIpAssignment}

theorem findRouter_congr {net net' : NetworkDb} {ips' : List VmIpAssignment}
  (hnet : net'.accessPolicies = net.accessPolicies) (hips : ips'.map (·.ipRangeId) = ips.map (·.ipRangeId)) :
  findRouter net' ranges ips' = findRouter net ranges ips := by
 induction ips generalizing ips' with
 | nil =>
  rw [List.map_nil, List.map_eq_nil_iff] at hips
  rw [hips]
  rfl
 | cons ip ips ih =>
  cases ips' with
  | nil => cases hips
  | cons ip' ips' =>
   rw [List.map_cons, List.map_cons, List.cons.injEq] at hips
   have hrouter : ∀ range, getRangeRouter net' range = getRangeRouter net range := by
    intro range
    unfold getRangeRouter NetworkDb.getAccessPolicy
    rw [hnet]
   unfold findRouter
   simp only [hips.1, hrouter, ih hips.2]

theorem pushRange_ranged {s : State} {range : IpRange} (h : Ranged s)
  (hrange : s.net.getIpRange range.id = some range) :
  ∃ ranges, s.pushRange range = { s with ranges } ∧ Ranged { s with ranges } ∧
   lookup (·.id) range.id ranges = some range := by
 unfold pushRange
 by_cases hany : (s.ranges.any fun r => decide (r.id = range.id)) = true
 · rw [if_pos hany]
   refine ⟨s.ranges, rfl, h, ?_⟩
   rcases hfind : lookup (·.id) range.id s.ranges with _ | r
   · obtain ⟨r, hr, hid⟩ := List.any_eq_true.mp hany
     exact absurd (of_decide_eq_true hid) (lookup_eq_none.mp hfind r hr)
   have hrow := h r (mem_of_lookup hfind)
   rw [key_of_lookup hfind, hrange] at hrow
   rw [hrow]
   exact hfind
 · rw [if_neg hany]
   refine ⟨s.ranges ++ [range], rfl, ?_, ?_⟩
   · intro r hr
     rcases mem_snoc.mp hr with hr | rfl
     · exact h r hr
     · exact hrange
   have hnone : lookup (·.id) range.id s.ranges = none := by
    rw [lookup_eq_none]
    intro r hr hid
    exact hany (List.any_eq_true.mpr ⟨r, hr, decide_eq_true hid⟩)
   unfold lookup at hnone ⊢
   rw [List.find?_append, hnone]
   simp

inductive MacResult (s : State) (assignment : VmIpAssignment) : Except (OpError String) VmIpAssignment × State → Prop
 | failed (e : OpError String) (calls : Nat) (ranges : List IpRange) (h : Ranged { s with ranges }) :
   MacResult s assignment (.error e, { s with calls, ranges })
 | entryLeft (e : String) (calls : Nat) (ranges : List IpRange) (router : Nat) :
   MacResult s assignment (.error (.fatal e), { s with
    calls, ranges
    arp := s.arp ++ [(router, none)]
    replies := { s.replies with macEntries := s.replies.macEntries + 1 } })
 | unnamed (mac : ArpEntry) (calls : Nat) (ranges : List IpRange) (hid : mac.id = none) :
   MacResult s assignment (.ok assignment, { s with
    calls, ranges
    vm := { s.vm with macAddress := some mac.macAddress }
    generatedMac := some mac })
 | named (mac : ArpEntry) (id : String) (calls : Nat) (ranges : List IpRange) (router : Nat) (hid : mac.id = some id)
   (hrouter : ∀ extra rest, findRouter s.net (ranges ++ extra) ({ assignment with arpRef := some id } :: rest) =
    .ok (some router)) :
   MacResult s assignment (.ok { assignment with arpRef := some id }, { s with
    calls, ranges
    vm := { s.vm with macAddress := some mac.macAddress }
    generatedMac := some mac
    arp := s.arp ++ [(router, some id)]
    replies := { s.replies with macEntries := s.replies.macEntries + 1 } })

theorem hostMac_result {assignment : VmIpAssignment}
  (h : Ranged { s with ranges }) : MacResult s assignment (hostMac answers assignment { s with calls, ranges }) := by
 unfold hostMac
 dsimp only
 split
 · exact .failed _ _ _ h
 · exact .unnamed { macAddress := _ } _ _ rfl

theorem assignMac_result {s : State} {assignment : VmIpAssignment} (hranged : Ranged s) (hmac : s.generatedMac = none)
  (href : assignment.arpRef = none) : MacResult s assignment (assignMac answers assignment s) := by
 unfold assignMac
 split
 · rename_i mac hsome
   rw [hmac] at hsome
   cases hsome
 dsimp only
 split
 · exact .failed _ _ _ hranged
 rename_i range hrange
 have hid : range.id = assignment.ipRangeId := key_of_lookup hrange
 rw [← hid] at hrange
 by_cases hdb : (answers s.calls).dbFault = true
 · rw [if_pos hdb]
   exact .failed _ _ _ hranged
 obtain ⟨ranges, hpush, hranged', hfind⟩ :=
  @pushRange_ranged { s with calls := s.calls + 1 } range hranged hrange
 rw [if_neg hdb, hpush]
 split
 · exact .failed _ _ _ hranged'
 · exact hostMac_result hranged'
 rename_i router hrouter
 rcases (answers s.calls).error with _ | e
 · rcases (answers s.calls).entry with _ | mac
   · exact hostMac_result hranged'
   rcases hmacId : mac.id with _ | id
   · have heq : { assignment with arpRef := none } = assignment := by
      rw [← href]
     dsimp only
     rw [hmacId, if_neg (by simp), heq]
     exact .unnamed mac _ _ hmacId
   · dsimp only
     rw [hmacId, if_pos (by simp)]
     refine .named mac id _ _ router hmacId ?_
     intro extra rest
     have hfind' : lookup (·.id) range.id (ranges ++ extra) = some range := by
      unfold lookup at hfind ⊢
      rw [List.find?_append, hfind]
      rfl
     unfold findRouter
     rw [← hid, hfind']
     dsimp only
     rw [hrouter]
 · by_cases heffect : (answers s.calls).takesEffect = true
   · rw [if_pos heffect]
     exact .entryLeft _ _ _ router
   · rw [if_neg heffect]
     exact .failed _ _ _ hranged'

theorem v6ToAllocation_kind {v6 : AvailableIp} {mac : BitVec 48} {p : PendingIp} (hv6 : v6.ip.ip.kind = .v6)
    (h : v6ToAllocation text v6 mac = some p) : ∃ a, text.parse p.ip = some a ∧ a.kind = .v6 := by
  unfold v6ToAllocation at h
  split at h
  · obtain ⟨a, ha, rfl⟩ := map_eq_some_iff.mp h
    refine ⟨a, text.parse_format a, ?_⟩
    unfold calculateEui64 at ha
    rw [dif_pos hv6] at ha
    cases ha
    rfl
  · cases h
    exact ⟨v6.ip.ip, text.parse_format _, hv6⟩

theorem assignV6_result {ip6 : Option AvailableIp} (hkind : ∀ v6 ∈ ip6, v6.ip.ip.kind = .v6) :
  (∃ e ips calls, assignV6 text answers ip6 s = (.error (.fatal e), { s with ips, calls })) ∨
   ∃ rest extra calls, (∀ ip ∈ rest, ip.dnsForwardRef = none ∧ ip.dnsReverseRef = none) ∧ Quiet text rest ∧
    assignV6 text answers ip6 s =
     (.ok (), { s with ips := s.ips ++ rest, ranges := s.ranges ++ extra, calls }) := by
 unfold assignV6
 split
 · refine .inr ⟨[], [], s.calls, by simp, by simp [Quiet], ?_⟩
   rw [List.append_nil, List.append_nil]
 rename_i v6
 split
 · exact .inl ⟨_, s.ips, s.calls, rfl⟩
 rename_i p hp
 have hrefs : ∀ ip ∈ [s.newIp p], ip.dnsForwardRef = none ∧ ip.dnsReverseRef = none := by simp [newIp]
 have hquiet : Quiet text [s.newIp p] := by
  intro ip hip _
  rw [List.mem_singleton.mp hip]
  exact v6ToAllocation_kind (hkind v6 rfl) hp
 dsimp only
 split
 · refine .inr ⟨[s.newIp p], [], s.calls, hrefs, hquiet, ?_⟩
   rw [List.append_nil]
 split
 · exact .inl ⟨_, _, _, rfl⟩
 · split
   · exact .inl ⟨_, _, _, rfl⟩
   · exact .inr ⟨[s.newIp p], [_], _, hrefs, hquiet, rfl⟩

theorem Loaded.unwritten (h : Loaded s) (calls : Nat) (ips : List VmIpAssignment) (ranges : List IpRange)
  (vm : Vm) (generatedMac : Option ArpEntry) :
  Unwritten s { s with calls, ips, ranges, vm, generatedMac } where
 net := rfl
 dns := h.dns
 hostVm := h.hostVm
 arp := by simp [h.replies, h.arp]
 replies := by simp [h.replies]

theorem Loaded.entry_unwritten (h : Loaded s) (calls : Nat) (ips : List VmIpAssignment)
  (ranges : List IpRange) (vm : Vm) (generatedMac : Option ArpEntry) (entry : Nat × Option String) :
  Unwritten s { s with
   calls, ips, ranges, vm, generatedMac
   arp := s.arp ++ [entry]
   replies := { s.replies with macEntries := s.replies.macEntries + 1 } } where
 net := rfl
 dns := h.dns
 hostVm := h.hostVm
 arp := by simp
 replies := by simp [h.replies]

theorem Loaded.unnamed (h : Loaded s) {mac : ArpEntry} (hid : mac.id = none)
  (hips : ∀ ip ∈ ips, ip.dnsForwardRef = none ∧ ip.dnsReverseRef = none) :
  Allocated text s { s with
   calls, ips, ranges
   vm := { s.vm with macAddress := some mac.macAddress }
   generatedMac := some mac } where
 vm := rfl
 dns := h.dns
 hostVm := h.hostVm
 arp := by simp [macEntry, hid, h.arp]
 known := by simp [RouterKnown, hid]
 ips := .inr ⟨rfl, hips, by simp [hid]⟩

theorem Loaded.named (h : Loaded s) {mac : ArpEntry} {id : String} (hid : mac.id = some id)
  (hrouter : findRouter s.net ranges ips = .ok (some router))
  (hips : ∀ ip ∈ ips, ip.dnsForwardRef = none ∧ ip.dnsReverseRef = none) (hquiet : Quiet text ips) :
  Allocated text s { s with
   calls, ips, ranges
   vm := { s.vm with macAddress := some mac.macAddress }
   generatedMac := some mac
   arp := s.arp ++ [(router, some id)]
   replies := { s.replies with macEntries := s.replies.macEntries + 1 } } where
 vm := rfl
 dns := h.dns
 hostVm := h.hostVm
 arp := by simp [macEntry, hid, h.arp, hrouter]
 known := fun _ _ => ⟨router, hrouter⟩
 ips := .inr ⟨rfl, hips, fun _ => hquiet⟩

theorem assignIps_result {s t : State} (h : Loaded s) (ht : Retried s t) :
  (∃ e u, assignIps text answers t = (.error e, u) ∧ Unwritten s u ∧
    ∀ m, e = .transient m → Retried s u) ∨
   ∃ u, assignIps text answers t = (.ok (), u) ∧ Allocated text s u ∧ Unwritten s u := by
 obtain ⟨calls, ranges, rfl, hranged⟩ := ht
 have hretried : ∀ calls, Retried s { s with calls, ranges } := fun calls => ⟨calls, ranges, rfl, hranged⟩
 unfold assignIps
 dsimp only
 split
 · refine .inr ⟨_, rfl, ⟨rfl, h.dns, h.hostVm, ?_, ?_, .inl ⟨h.generatedMac, rfl⟩⟩,
    h.unwritten _ _ _ _ _⟩
   · simp [macEntry, h.generatedMac, h.arp]
   · intro id hid
     rw [h.generatedMac] at hid
     cases hid
 · rename_i hips
   have hnil : s.ips = [] := by simpa using hips
   split
   · exact .inl ⟨_, _, rfl, h.unwritten _ _ _ _ _, fun _ _ => hretried _⟩
   split
   · exact .inl ⟨_, _, rfl, h.unwritten _ _ _ _ _, fun _ _ => hretried _⟩
   · exact .inl ⟨_, _, rfl, h.unwritten _ _ _ _ _, fun _ _ => hretried _⟩
   rename_i v4 ip6 hpick
   have hkind : ∀ v6 ∈ ip6, v6.ip.ip.kind = .v6 := by
    intro v6 hv6
    obtain ⟨range, -, cidr, hcidr, hkind, hfrom⟩ := (Provisioning.pickIpForRegion_spec hpick).2 v6 hv6
    obtain ⟨-, cidr', hcidr', hsame, -⟩ := Provisioning.pickIpFromRange_spec hfrom
    rw [hcidr] at hcidr'
    rw [hsame, ← some.inj hcidr', hkind]
   have hmac := @assignMac_result answers { s with calls := calls + 1, ranges }
    (newIp { s with calls := calls + 1, ranges } (v4.toPending text)) hranged h.generatedMac rfl
   generalize assignMac answers (newIp { s with calls := calls + 1, ranges } (v4.toPending text))
    { s with calls := calls + 1, ranges } = r at hmac ⊢
   cases hmac with
   | failed e c rs hranged' =>
    exact .inl ⟨e, _, rfl, h.unwritten _ _ _ _ _, fun _ _ => ⟨_, _, rfl, hranged'⟩⟩
   | entryLeft e c rs router =>
    exact .inl ⟨_, _, rfl, h.entry_unwritten _ _ _ _ _ _, fun _ he => by cases he⟩
   | unnamed mac c rs hid =>
    dsimp only
    rw [hnil, List.nil_append]
    obtain ⟨e, ips, calls', hv6⟩ | ⟨rest, extra, calls', hrefs, -, hv6⟩ := assignV6_result hkind
    · rw [hv6]
      exact .inl ⟨_, _, rfl, h.unwritten _ _ _ _ _, fun _ he => by cases he⟩
    rw [hv6]
    refine .inr ⟨_, rfl, h.unnamed hid ?_, h.unwritten _ _ _ _ _⟩
    rw [List.forall_mem_append]
    exact ⟨by simp [newIp], hrefs⟩
   | named mac id c rs router hid hrouter =>
    dsimp only
    rw [hnil, List.nil_append]
    obtain ⟨e, ips, calls', hv6⟩ | ⟨rest, extra, calls', hrefs, hquiet, hv6⟩ := assignV6_result hkind
    · rw [hv6]
      exact .inl ⟨_, _, rfl, h.entry_unwritten _ _ _ _ _ _, fun _ he => by cases he⟩
    rw [hv6]
    refine .inr ⟨_, rfl, h.named hid (hrouter extra rest) ?_ ?_, h.entry_unwritten _ _ _ _ _ _⟩
    · rw [List.forall_mem_append]
      exact ⟨by simp [newIp], hrefs⟩
    intro ip hip href
    rcases List.mem_append.mp hip with hip | hip
    · rw [List.mem_singleton.mp hip] at href
      cases href
    · exact hquiet ip hip href

structure SameContext (s t : State) : Prop where
 vm : t.vm = s.vm
 db : t.net.db = s.net.db
 policies : t.net.accessPolicies = s.net.accessPolicies
 generatedMac : t.generatedMac = s.generatedMac
 ranges : t.ranges = s.ranges
 ips : t.ips.map (·.ipRangeId) = s.ips.map (·.ipRangeId)

theorem macEntry_congr (hpolicies : t.net.accessPolicies = s.net.accessPolicies)
  (hmac : t.generatedMac = s.generatedMac) (hranges : t.ranges = s.ranges)
  (hips : t.ips.map (·.ipRangeId) = s.ips.map (·.ipRangeId)) : macEntry t = macEntry s := by
 unfold macEntry
 rw [hmac, hranges, findRouter_congr hpolicies hips]

theorem RouterKnown.congr (h : RouterKnown s) (hpolicies : t.net.accessPolicies = s.net.accessPolicies)
  (hmac : t.generatedMac = s.generatedMac) (hranges : t.ranges = s.ranges)
  (hips : t.ips.map (·.ipRangeId) = s.ips.map (·.ipRangeId)) : RouterKnown t := by
 unfold RouterKnown
 rw [hmac, hranges, findRouter_congr hpolicies hips]
 exact h

variable {policy : Option RetryPolicy}

theorem ipAllocation_result {s : State} (h : Loaded s) :
  (attempt policy (ipAllocation text answers) s).Leaves (Unwritten s) fun t => Allocated text s t ∧
   t.net = { s.net with db := s.net.db.updateVm t.vm } ∧
   t.replies = { vmUpdated := true, macEntries := t.replies.macEntries } := by
 refine @attempt_outcome State String _ s policy (Retried s) _ _ (fun u hu => ?_) ⟨s.calls, s.ranges, rfl, h.ranged⟩
 unfold ipAllocation
 obtain ⟨e, v, hv, hfailed, hretry⟩ | ⟨v, hv, hdone, hunwritten⟩ := @assignIps_result text answers s u h hu
 · rw [hv]
   exact .inl ⟨e, v, rfl, hfailed, hretry⟩
 rw [hv]
 dsimp only
 split
 · refine .inl ⟨dbError, _, rfl, ?_, nofun⟩
   exact ⟨hunwritten.net, hunwritten.dns, hunwritten.hostVm, hunwritten.arp, hunwritten.replies⟩
 refine .inr ⟨_, rfl, ?_, ?_, ?_⟩
 · refine ⟨hdone.vm, hdone.dns, hdone.hostVm, ?_, hdone.known.congr rfl rfl rfl rfl, hdone.ips⟩
   refine hdone.arp.trans (congrArg toList ?_)
   exact macEntry_congr rfl rfl rfl rfl
 · rw [hunwritten.net]
 · rw [hunwritten.replies]

def VmLeft (s t : State) : Prop :=
 ∃ calls left, t = { s with calls, hostVm := left, replies := { s.replies with vmLeft := left } }

def VmCreated (s t : State) : Prop := ∃ calls left,
 t = { s with calls, hostVm := true, replies := { s.replies with vmLeft := left, vmCreated := true } }

theorem createVm_result {s : State} (hhost : s.hostVm = false)
  (hleft : s.replies.vmLeft = false) : (attempt policy (createVm answers) s).Leaves (VmLeft s) (VmCreated s) := by
 refine @attempt_outcome State String _ s policy (VmLeft s) _ _ ?_ ?_
 · rintro u ⟨calls, left, rfl⟩
   unfold createVm
   dsimp only
   split
   · split
     · exact .inl ⟨_, _, rfl, ⟨_, true, rfl⟩, fun _ _ => ⟨_, true, rfl⟩⟩
     · exact .inl ⟨_, _, rfl, ⟨_, left, rfl⟩, fun _ _ => ⟨_, left, rfl⟩⟩
   · exact .inr ⟨_, rfl, _, left, rfl⟩
 · have hreplies : s.replies = { s.replies with vmLeft := s.hostVm } := by rw [hhost, ← hleft]
   exact ⟨s.calls, s.hostVm, by rw [← hreplies]⟩

def routerOf (text : IpText) (net : NetworkDb) (ip : VmIpAssignment) : Except (OpError String) (Option Nat) :=
 match net.getIpRange ip.ipRangeId with
 | none => .error rowNotFound
 | some range => arpRouter text net range ip

theorem routerOf_ne_of_v6 {net : NetworkDb} {a : Addr}
  (hparse : text.parse ip.ip = some a) (hkind : a.kind = .v6) : routerOf text net ip ≠ .ok (some router) := by
 unfold routerOf arpRouter
 rw [hparse]
 simp only [hkind, reduceCtorEq, and_false, if_false]
 split
 · simp
 · split
   · simp
   · split <;> simp

theorem setupArp_cases (ip : VmIpAssignment) (s : State) :
  (∃ e, setupArp text answers ip s = (.error e, { s with calls := s.calls + 1 })) ∨
   (setupArp text answers ip s = (.ok ip, { s with calls := s.calls + 1 }) ∧ ∃ k, routerOf text s.net ip = .ok k) ∨
   ∃ router, ip.arpRef = none ∧ routerOf text s.net ip = .ok (some router) ∧
    ((∃ e, setupArp text answers ip s = (.error e, .addArp { s with calls := s.calls + 1 } router none)) ∨
     ∃ id, setupArp text answers ip s = (.ok { ip with arpRef := some id },
      .addArp { s with calls := s.calls + 1 } router (some id))) := by
 unfold setupArp routerOf
 dsimp only
 rcases s.net.getIpRange ip.ipRangeId with _ | range
 · exact .inl ⟨_, rfl⟩
 dsimp only
 split
 · exact .inl ⟨_, rfl⟩
 split
 · exact .inl ⟨_, rfl⟩
 rcases arpRouter text s.net range ip with e | router
 · exact .inl ⟨_, rfl⟩
 rcases router with _ | router
 · exact .inr (.inl ⟨rfl, _, rfl⟩)
 unfold updateAccessPolicy
 rcases href : ip.arpRef with _ | ref
 · simp only [isNone_none, true_and, if_true]
   rcases (answers s.calls).error with _ | e
   · rcases (answers s.calls).id with _ | id
     · exact .inr (.inr ⟨router, rfl, .inl ⟨_, rfl⟩⟩)
     · exact .inr (.inr ⟨router, rfl, .inr ⟨id, rfl⟩⟩)
   dsimp only
   split
   · exact .inr (.inr ⟨router, rfl, .inl ⟨e, rfl⟩⟩)
   · exact .inl ⟨e, rfl⟩
 · rcases (answers s.calls).error with _ | e
   · dsimp only
     split
     · exact .inl ⟨_, rfl⟩
     · exact .inr (.inl ⟨rfl, _, rfl⟩)
   · exact .inl ⟨e, rfl⟩

structure ArpSetup (text : IpText) (s : State) (ips : List VmIpAssignment) (t : State) : Prop where
 frame : t = { s with
  calls := t.calls, ips := t.ips, arp := t.arp, replies := { s.replies with arpAdded := t.replies.arpAdded } }
 same : ips.map (fun ip => { ip with arpRef := none }) = s.ips.map fun ip => { ip with arpRef := none }
 added : ∃ added, t.arp = s.arp ++ added ∧ t.replies.arpAdded = added.map (·.2) ∧
  ∀ k r, (k, some r) ∈ added → ∃ ip ∈ ips, routerOf text s.net ip = .ok (some k) ∧ ip.arpRef = some r
 quiet : Quiet text s.ips → Quiet text ips ∧ t.arp = s.arp

theorem ArpSetup.net (h : ArpSetup text s ips t) : t.net = s.net := by
 rw [h.frame]

theorem ArpSetup.called (h : ArpSetup text s ips t) (calls : Nat)
  (ips' : List VmIpAssignment) : ArpSetup text s ips { t with calls, ips := ips' } := by
 refine ⟨?_, h.same, h.added, h.quiet⟩
 conv_lhs => rw [h.frame]

theorem ArpSetup.add
  (h : ArpSetup text s (done ++ ip :: rest) t) (href : ip.arpRef = none)
  (hrouter : routerOf text s.net ip = .ok (some router)) (id : Option String) :
  ArpSetup text s (done ++ { ip with arpRef := id } :: rest) (t.addArp router id) := by
 obtain ⟨added, harp, hadded, howner⟩ := h.added
 refine ⟨?_, ?_, ⟨added ++ [(router, id)], ?_, ?_, ?_⟩, ?_⟩
 · unfold addArp
   conv_lhs => rw [h.frame]
 · rw [← h.same]
   simp
 · simp [addArp, harp]
 · simp [addArp, hadded]
 · intro k r hmem
   rcases List.mem_append.mp hmem with hmem | hmem
   · obtain ⟨ip', hip', hrouter', href'⟩ := howner k r hmem
     refine ⟨ip', ?_, hrouter', href'⟩
     simp only [List.mem_append, List.mem_cons] at hip' ⊢
     rcases hip' with hip' | rfl | hip'
     · exact .inl hip'
     · rw [href] at href'
       cases href'
     · exact .inr (.inr hip')
   · rw [List.mem_singleton, Prod.mk.injEq] at hmem
     obtain ⟨rfl, rfl⟩ := hmem
     exact ⟨{ ip with arpRef := some r }, by simp, hrouter, rfl⟩
 · intro hquiet
   obtain ⟨a, hparse, hkind⟩ := (h.quiet hquiet).1 ip (by simp) href
   exact absurd hrouter (routerOf_ne_of_v6 hparse hkind)

theorem ArpSetup.loop {s t : State} (h : ArpSetup text s t.ips t) :
  (∃ e u, loopIps (setupArp text answers) t = (.error e, u) ∧ ArpSetup text s u.ips u) ∨
   ∃ u, loopIps (setupArp text answers) t = (.ok (), u) ∧ ArpSetup text s u.ips u ∧
    ∀ ip ∈ u.ips, ∃ k, routerOf text s.net ip = .ok k := by
 have hloop := @forEachIp_rule (setupArp text answers) (fun done rest u => ArpSetup text s (done ++ rest) u ∧
  ∀ ip ∈ done, ∃ k, routerOf text s.net ip = .ok k) (fun ips _ u => ArpSetup text s ips u) ?_ [] t.ips t ⟨h, by simp⟩
 · obtain ⟨e, ips, u, hend, hu⟩ | ⟨ips, u, hend, hu, hrouters⟩ := hloop
   · exact .inl ⟨e, _, hend, hu.called _ _⟩
   · rw [List.append_nil] at hu
     exact .inr ⟨_, hend, hu.called _ _, hrouters⟩
 rintro done ip rest u ⟨hu, hrouters⟩
 have hsnoc : ∀ ip' k, routerOf text s.net ip' = .ok k →
   ∀ i ∈ done ++ [ip'], ∃ k, routerOf text s.net i = .ok k := fun ip' k hk =>
  List.forall_mem_append.mpr ⟨hrouters, by simpa using ⟨k, hk⟩⟩
 obtain ⟨e, hcase⟩ | ⟨hcase, k, hk⟩ | ⟨router, href, hrouter, ⟨e, hcase⟩ | ⟨id, hcase⟩⟩ :=
  @setupArp_cases text answers ip u
 · exact .inl ⟨e, _, hcase, hu.called _ _⟩
 · rw [hu.net] at hk
   refine .inr ⟨_, _, hcase, ?_, hsnoc _ k hk⟩
   rw [List.append_assoc]
   exact hu.called _ _
 · rw [hu.net] at hrouter
   have hadd := (hu.called (u.calls + 1) u.ips).add href hrouter none
   have heq : { ip with arpRef := none } = ip := by rw [← href]
   rw [heq] at hadd
   exact .inl ⟨e, _, hcase, hadd⟩
 · rw [hu.net] at hrouter
   refine .inr ⟨_, _, hcase, ?_, hsnoc _ (some router) hrouter⟩
   rw [List.append_assoc]
   exact (hu.called _ _).add href hrouter (some id)

theorem arpSetup_result {s : State} (hadded : s.replies.arpAdded = []) :
  (attempt policy (loopIps (setupArp text answers)) s).Leaves (fun t => ArpSetup text s t.ips t) fun t =>
   ArpSetup text s t.ips t ∧ ∀ ip ∈ t.ips, ∃ k, routerOf text s.net ip = .ok k := by
 have hstart : ArpSetup text s s.ips s :=
  ⟨rfl, rfl, ⟨[], by simp, by simp [hadded], fun k r hkr => absurd hkr List.not_mem_nil⟩, fun hq => ⟨hq, rfl⟩⟩
 refine @attempt_outcome State String _ s policy (fun u => ArpSetup text s u.ips u) _ _ (fun u hu => ?_) hstart
 obtain ⟨e, v, hv, hset⟩ | hdone := @ArpSetup.loop text answers s u hu
 · exact .inl ⟨e, v, hv, hset, fun _ _ => hset⟩
 · exact .inr hdone

def bareIp (ip : VmIpAssignment) : VmIpAssignment :=
 { ip with dnsForward := none, dnsForwardRef := none, dnsReverse := none, dnsReverseRef := none }

def State.addRecords (s : State) (l : List ((Nat × Bool) × Option String)) : State := { s with
 dns := s.dns ++ l
 replies := { s.replies with recordsAdded := s.replies.recordsAdded ++ l.map (·.2) } }

theorem updateRecord_cases (a : Answer) (server : Nat) (forward : Bool) (ref : Option String) (s : State) :
  ∃ l : List (Option String),
   (updateRecord a server forward ref s).2 = s.addRecords (l.map fun r => ((server, forward), r)) ∧
   (∀ r, some r ∈ l → (updateRecord a server forward ref s).1 = some (some r)) ∧
   ∀ r, ref = some r → (updateRecord a server forward ref s).1 = none ∨
    (updateRecord a server forward ref s).1 = some (some r) := by
 unfold updateRecord
 rcases ref with _ | ref
 · by_cases heffect : a.takesEffect = true
   · rcases a.error with _ | e
     · exact ⟨[none, a.id], by simp [heffect, addRecords, addRecord], fun r hr => by simp_all, by simp⟩
     · exact ⟨[none], by simp [heffect, addRecords, addRecord], by simp, by simp⟩
   · rcases a.error with _ | e
     · exact ⟨[a.id], by simp [heffect, addRecords, addRecord], fun r hr => by simp_all, by simp⟩
     · exact ⟨[], by simp [heffect, addRecords], by simp, by simp⟩
 · rcases a.error with _ | e
   · exact ⟨[], by simp [addRecords], by simp, by simp⟩
   · exact ⟨[], by simp [addRecords], by simp, by simp⟩

theorem bareIp_storeRecord (forward : Bool) (name : String) (ref : Option String) (ip : VmIpAssignment) :
  bareIp (storeRecord forward name ref ip) = bareIp ip := by
 unfold storeRecord bareIp
 split <;> rfl

theorem recordRef_storeRecord (dir forward : Bool) (name : String) (ref : Option String) (ip : VmIpAssignment) :
  recordRef dir (storeRecord forward name ref ip) =
   if dir = forward then ref.or (recordRef forward ip) else recordRef dir ip := by
 cases dir <;> cases forward <;> rfl

theorem ownsRecord_iff {net : NetworkDb} {record : (Nat × Bool) × Option String} :
  ownsRecord net ip record = true ↔ ∃ range r, net.getIpRange ip.ipRangeId = some range ∧ record.2 = some r ∧
   dnsServer record.1.2 range = some record.1.1 ∧ recordRef record.1.2 ip = some r := by
 unfold ownsRecord
 rcases net.getIpRange ip.ipRangeId with _ | range
 · simp
 · rcases record.2 with _ | r <;> simp

theorem updateIpDns_result (forward : Bool) (ip : VmIpAssignment) (s : State) :
  ∃ ip' l calls, updateIpDns text answers forward ip s = (.ok ip', addRecords { s with calls } l) ∧
   bareIp ip' = bareIp ip ∧ (∀ k r, (k, some r) ∈ l → ownsRecord s.net ip' (k, some r) = true) ∧
   ∀ record, ownsRecord s.net ip record = true → ownsRecord s.net ip' record = true := by
 have hsame : ∀ calls, ({ s with calls } : State) = .addRecords { s with calls } [] := by
  simp [addRecords]
 unfold updateIpDns
 dsimp only
 split
 · exact ⟨ip, [], s.calls + 1, by rw [← hsame], rfl, by simp, fun _ h => h⟩
 rename_i range hrange
 split
 · exact ⟨ip, [], s.calls + 1, by rw [← hsame], rfl, by simp, fun _ h => h⟩
 rename_i server hserver
 split
 · exact ⟨ip, [], s.calls + 1, by rw [← hsame], rfl, by simp, fun _ h => h⟩
 obtain ⟨l, hstate, hadded, hkept⟩ := updateRecord_cases (answers s.calls) server forward (recordRef forward ip)
  { s with calls := s.calls + 1 }
 rcases hupdate : updateRecord (answers s.calls) server forward (recordRef forward ip)
  { s with calls := s.calls + 1 } with ⟨_ | ref, t⟩
 · rw [hupdate] at hstate hadded
   refine ⟨ip, l.map fun r => ((server, forward), r), s.calls + 1, ?_, rfl, ?_, fun _ h => h⟩
   · rw [← hstate]
   intro k r hkr
   obtain ⟨r', hr', heq⟩ := List.mem_map.mp hkr
   rw [Prod.mk.injEq] at heq
   have := hadded r (heq.2 ▸ hr')
   cases this
 · rw [hupdate] at hstate hadded hkept
   have hrangeId : (storeRecord forward (answers s.calls).name ref ip).ipRangeId = ip.ipRangeId := by
    change (bareIp (storeRecord forward (answers s.calls).name ref ip)).ipRangeId = (bareIp ip).ipRangeId
    rw [bareIp_storeRecord]
   refine ⟨storeRecord forward (answers s.calls).name ref ip, l.map fun r => ((server, forward), r), s.calls + 1,
    ?_, bareIp_storeRecord .., ?_, ?_⟩
   · rw [← hstate]
   · intro k r hkr
     obtain ⟨r', hr', heq⟩ := List.mem_map.mp hkr
     obtain ⟨rfl, rfl⟩ := heq
     have href := some.inj (hadded r hr')
     rw [ownsRecord_iff]
     refine ⟨range, r, ?_, rfl, hserver, ?_⟩
     · rw [hrangeId]
       exact hrange
     · rw [recordRef_storeRecord, if_pos rfl, href]
       rfl
   · intro record hrecord
     rw [ownsRecord_iff] at hrecord ⊢
     obtain ⟨range', r, hrange', hr, hserver', href⟩ := hrecord
     refine ⟨range', r, ?_, hr, hserver', ?_⟩
     · rw [hrangeId]
       exact hrange'
     rw [recordRef_storeRecord]
     by_cases hdir : record.1.2 = forward
     · rw [hdir] at href
       rw [if_pos hdir, href]
       rcases hkept r href with hnone | hsome
       · cases hnone
       · rw [some.inj hsome]
         rfl
     · rw [if_neg hdir]
       exact href

structure DnsSetup (s : State) (ips : List VmIpAssignment) (t : State) : Prop where
 frame : t = { s with
  calls := t.calls, ips := t.ips, dns := t.dns, replies := { s.replies with recordsAdded := t.replies.recordsAdded } }
 same : ips.map bareIp = s.ips.map bareIp
 refs : t.replies.recordsAdded = t.dns.map (·.2)
 owned : ∀ k r, (k, some r) ∈ t.dns → ∃ ip ∈ ips, ownsRecord s.net ip (k, some r) = true

theorem DnsSetup.net (h : DnsSetup s ips t) : t.net = s.net := by
 rw [h.frame]

theorem DnsSetup.round {ip' : VmIpAssignment}
  {l : List ((Nat × Bool) × Option String)} (h : DnsSetup s (done ++ ip :: rest) t) (hbare : bareIp ip' = bareIp ip)
  (hnew : ∀ k r, (k, some r) ∈ l → ownsRecord s.net ip' (k, some r) = true)
  (hkept : ∀ record, ownsRecord s.net ip record = true → ownsRecord s.net ip' record = true) :
  DnsSetup s (done ++ ip' :: rest) (addRecords { t with calls } l) := by
 refine ⟨?_, ?_, ?_, ?_⟩
 · unfold addRecords
   conv_lhs => rw [h.frame]
 · rw [← h.same, List.map_append, List.map_append, List.map_cons, List.map_cons, hbare]
 · simp [addRecords, h.refs]
 intro k r hmem
 rcases List.mem_append.mp hmem with hmem | hmem
 · obtain ⟨i, hi, howns⟩ := h.owned k r hmem
   simp only [List.mem_append, List.mem_cons] at hi
   rcases hi with hi | rfl | hi
   · exact ⟨i, by simp [hi], howns⟩
   · exact ⟨ip', by simp, hkept _ howns⟩
   · exact ⟨i, by simp [hi], howns⟩
 · exact ⟨ip', by simp, hnew k r hmem⟩

theorem DnsSetup.loop {s t : State} (h : DnsSetup s t.ips t) (forward : Bool) :
  ∃ u, loopIps (updateIpDns text answers forward) t = (.ok (), u) ∧ DnsSetup s u.ips u := by
 have hloop := @forEachIp_rule (updateIpDns text answers forward) (fun done rest u => DnsSetup s (done ++ rest) u)
  (fun _ _ _ => False) ?_ [] t.ips t h
 · obtain ⟨_, _, _, -, hnone⟩ | ⟨ips, u, hend, hu⟩ := hloop
   · exact hnone.elim
   · rw [List.append_nil] at hu
     refine ⟨_, hend, ?_, hu.same, hu.refs, hu.owned⟩
     conv_lhs => rw [hu.frame]
 · intro done ip rest u hu
   obtain ⟨ip', l, calls, hcase, hbare, hnew, hkept⟩ := @updateIpDns_result text answers forward ip u
   rw [hu.net] at hnew hkept
   refine .inr ⟨ip', _, hcase, ?_⟩
   rw [List.append_assoc]
   exact hu.round hbare hnew hkept

theorem saveIps_result {s : State} (hinserted : s.replies.ipsInserted = 0) :
  (attempt policy (loopIps (persistIpAssignment answers)) s).Leaves (fun t =>
   ∃ calls ips inserted nextId, (∀ i ∈ inserted, i.deleted = false) ∧
    ips.map (fun ip => { ip with id := 0 }) = s.ips.map (fun ip => { ip with id := 0 }) ∧ t = { s with
     calls, ips
     net := { s.net with vmIpAssignments := s.net.vmIpAssignments ++ inserted, nextId }
     replies := { s.replies with ipsInserted := inserted.length, insertFailed := true } }) fun _ => True := by
 let same (ips : List VmIpAssignment) : Prop :=
  ips.map (fun ip => { ip with id := 0 }) = s.ips.map (fun ip => { ip with id := 0 })
 let saved (calls : Nat) (inserted : List VmIpAssignment) (nextId : Nat) (insertFailed : Bool) : State := { s with
  calls
  net := { s.net with vmIpAssignments := s.net.vmIpAssignments ++ inserted, nextId }
  replies := { s.replies with ipsInserted := inserted.length, insertFailed } }
 have hstart : s = saved s.calls [] s.net.nextId s.replies.insertFailed := by
  have hreplies : s.replies = { s.replies with ipsInserted := 0 } := by rw [← hinserted]
  simp only [saved]
  rw [List.append_nil, List.length_nil, ← hreplies]
 have hloop := @forEachIp_rule (persistIpAssignment answers)
  (fun done rest u => same (done ++ rest) ∧ ∃ calls inserted nextId, (∀ i ∈ inserted, i.deleted = false) ∧
   u = saved calls inserted nextId s.replies.insertFailed)
  (fun ips e u => e = dbError ∧ same ips ∧ ∃ calls inserted nextId, (∀ i ∈ inserted, i.deleted = false) ∧
   u = saved calls inserted nextId true) ?_ [] s.ips s ⟨rfl, s.calls, [], s.net.nextId, by simp, hstart⟩
 · obtain ⟨e, ips, u, hend, rfl, hsame, calls, inserted, nextId, hnew, rfl⟩ | ⟨ips, u, hend, -⟩ := hloop
   · rw [show attempt policy (loopIps _) s = _ from attempt_of_fatal hend]
     exact .inl ⟨⟨_, rfl⟩, calls, ips, inserted, nextId, hnew, hsame, rfl⟩
   · rw [show attempt policy (loopIps _) s = _ from attempt_of_ok hend]
     exact .inr ⟨rfl, trivial⟩
 · rintro done ip rest u ⟨hsame, calls, inserted, nextId, hnew, rfl⟩
   have hsnoc : ∀ id, same ((done ++ [{ ip with id }]) ++ rest) := fun id => by simpa [same] using hsame
   unfold persistIpAssignment
   dsimp only
   split
   · exact .inr ⟨ip, _, rfl, hsnoc ip.id, calls, inserted, nextId, hnew, rfl⟩
   split
   · exact .inl ⟨_, _, rfl, rfl, hsame, calls + 1, inserted, nextId, hnew, rfl⟩
   · refine .inr ⟨_, _, rfl, hsnoc nextId, calls + 1, inserted ++ [{ ip with id := nextId, deleted := false }],
      nextId + 1, List.forall_mem_append.mpr ⟨hnew, by simp⟩, ?_⟩
     simp [saved, NetworkDb.insertAssignment]

end Lnvps.Spawn
