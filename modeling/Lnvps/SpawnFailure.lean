import Lnvps.SpawnSteps

/-! # What a failed spawn leaves behind -/

namespace Lnvps.Spawn

open Table Net Pipeline List Option

variable {text : IpText} {answers : Nat → Answer}

variable {ip : VmIpAssignment} {s : State}

theorem removeDnsIf_result (p : VmIpAssignment → Bool)
  (hrange : ∃ range, s.net.getIpRange ip.ipRangeId = some range) :
  ∃ ip', removeDnsIf p ip s =
    (.ok ip', { s with dns := s.dns.filter fun record => !(p ip && ownsRecord s.net ip record) }) ∧
   bareIp ip' = bareIp ip ∧ (p ip = false → ip' = ip) := by
 obtain ⟨range, hrange⟩ := hrange
 unfold removeDnsIf removeIpDns
 cases hp : p ip with
 | false => exact ⟨ip, by simp, rfl, fun _ => rfl⟩
 | true =>
  refine ⟨clearDns range ip, ?_, ?_, nofun⟩
  · rw [if_pos rfl, hrange]
    simp
  · unfold clearDns bareIp
    dsimp only
    split <;> split <;> rfl

theorem removeDns_loop {p : VmIpAssignment → Bool} {done rest : List VmIpAssignment} {s : State}
  (hranges : ∀ ip ∈ rest, ∃ range, s.net.getIpRange ip.ipRangeId = some range) :
  ∃ ips dns, forEachIp (removeDnsIf p) done rest s = (.ok (), { s with ips := done ++ ips, dns }) ∧
   ips.map bareIp = rest.map bareIp ∧ (∀ ip ∈ rest, p ip = false → ip ∈ ips) ∧
   (∀ record ∈ dns, record ∈ s.dns ∧ ∀ ip ∈ rest, p ip = true → ownsRecord s.net ip record = false) ∧
   ∀ record ∈ s.dns, record.2 = none → record ∈ dns := by
 induction rest generalizing done s with
 | nil => exact ⟨[], s.dns, by simp [forEachIp], rfl, by simp, by simp, fun _ h _ => h⟩
 | cons ip rest ih =>
  obtain ⟨ip', hop, hbare', hsame⟩ := removeDnsIf_result p (hranges ip mem_cons_self)
  obtain ⟨ips, dns, hloop, hbare, hstay, hgone, hkept⟩ := @ih (done ++ [ip'])
   { s with dns := s.dns.filter fun record => !(p ip && ownsRecord s.net ip record) }
   fun ip hip => hranges ip (mem_cons_of_mem _ hip)
  refine ⟨ip' :: ips, dns, ?_, ?_, ?_, ?_, ?_⟩
  · rw [forEachIp, hop]
    dsimp only
    rw [hloop]
    simp
  · rw [map_cons, map_cons, hbare, hbare']
  · intro i hi hpi
    rcases mem_cons.mp hi with rfl | hi
    · rw [hsame hpi]
      exact mem_cons_self
    · exact mem_cons_of_mem _ (hstay i hi hpi)
  · intro record hrecord
    obtain ⟨hmem, hrest⟩ := hgone record hrecord
    obtain ⟨hmem, hown⟩ := mem_filter.mp hmem
    refine ⟨hmem, forall_mem_cons.mpr ⟨fun hp => ?_, hrest⟩⟩
    simpa [hp] using hown
  · intro record hrecord hnone
    refine hkept record (mem_filter.mpr ⟨hrecord, ?_⟩) hnone
    simp [ownsRecord, hnone]

theorem removeArp_result {k : Option Nat} (hk : routerOf text s.net ip = .ok k) :
  ∃ ip', removeArp text ip s = (.ok ip', { s with
    arp := s.arp.filter fun entry => !(entry.2.isSome && k = some entry.1 && ip.arpRef = entry.2) }) ∧
   ip'.ipRangeId = ip.ipRangeId := by
 unfold removeArp
 unfold routerOf at hk
 rcases href : ip.arpRef with _ | ref
 · refine ⟨ip, ?_, rfl⟩
   have hall : ∀ entry ∈ s.arp, !(entry.2.isSome && k = some entry.1 && (none : Option String) = entry.2) := by
    rintro ⟨k', _ | ref⟩ - <;> simp
   rw [filter_eq_self.mpr hall]
   rfl
 · rcases hrange : s.net.getIpRange ip.ipRangeId with _ | range
   · rw [hrange] at hk
     cases hk
   rw [hrange] at hk
   simp only [isNone_some, Bool.false_eq_true, if_false, hk]
   rcases k with _ | router
   · exact ⟨ip, by simp, rfl⟩
   refine ⟨{ ip with arpRef := none }, ?_, rfl⟩
   have hkeep : ∀ entry ∈ s.arp, decide (entry ≠ (router, some ref)) =
     !(entry.2.isSome && some router = some entry.1 && some ref = entry.2) := by
    rintro ⟨k', _ | ref'⟩ - <;> simp [eq_comm]
   rw [← filter_congr hkeep]

theorem removeArp_loop {done rest : List VmIpAssignment} {s : State}
  (hrouters : ∀ ip ∈ rest, ∃ k, routerOf text s.net ip = .ok k) :
  ∃ ips arp, forEachIp (removeArp text) done rest s = (.ok (), { s with ips := done ++ ips, arp }) ∧
   ips.map (·.ipRangeId) = rest.map (·.ipRangeId) ∧
   (∀ entry ∈ arp, entry ∈ s.arp ∧
    ∀ ip ∈ rest, routerOf text s.net ip = .ok (some entry.1) → ip.arpRef = entry.2 → entry.2 = none) ∧
   ∀ entry ∈ s.arp, entry.2 = none → entry ∈ arp := by
 induction rest generalizing done s with
 | nil => exact ⟨[], s.arp, by simp [forEachIp], rfl, by simp, fun _ h _ => h⟩
 | cons ip rest ih =>
  obtain ⟨k, hk⟩ := hrouters ip mem_cons_self
  obtain ⟨ip', hop, hid⟩ := removeArp_result hk
  obtain ⟨ips, arp, hloop, hids, hgone, hkept⟩ := @ih (done ++ [ip'])
   { s with arp := s.arp.filter fun entry => !(entry.2.isSome && k = some entry.1 && ip.arpRef = entry.2) }
   fun ip hip => hrouters ip (mem_cons_of_mem _ hip)
  refine ⟨ip' :: ips, arp, ?_, ?_, ?_, ?_⟩
  · rw [forEachIp, hop]
    dsimp only
    rw [hloop]
    simp
  · rw [map_cons, map_cons, hids, hid]
  · intro entry hentry
    obtain ⟨hmem, hrest⟩ := hgone entry hentry
    obtain ⟨hmem, hkeep⟩ := mem_filter.mp hmem
    refine ⟨hmem, forall_mem_cons.mpr ⟨?_, hrest⟩⟩
    intro hrouter href
    rw [hk] at hrouter
    simpa [Except.ok.inj hrouter, href] using hkeep
  · intro entry hentry hnone
    refine hkept entry (mem_filter.mpr ⟨hentry, ?_⟩) hnone
    simp [hnone]

theorem rollbackAssignIps_result (h : RouterKnown s) :
  ∃ arp, rollbackAssignIps s = (.ok (), resetMac { s with arp }) ∧
   ∀ entry, entry ∈ arp ↔ entry ∈ s.arp ∧ macEntry s ≠ some entry := by
 unfold rollbackAssignIps macEntry
 rcases hid : s.generatedMac.bind (·.id) with _ | id
 · exact ⟨s.arp, rfl, by simp⟩
 obtain ⟨router, hrouter⟩ := h id hid
 rw [hrouter]
 refine ⟨_, rfl, ?_⟩
 intro entry
 simp only [mem_filter, decide_eq_true_eq, ne_eq, Option.some.injEq]
 exact and_congr_right fun _ => not_congr eq_comm

theorem updateVm_updateVm (db : Db) (vm vm' : Vm) (hid : vm'.id = vm.id) :
  (db.updateVm vm).updateVm vm' = db.updateVm vm' := by
 unfold Db.updateVm
 rw [hid]
 rw [updateWhere_updateWhere]
 · intro v hv
   exact hv
 · intro v
   rfl

theorem resetMac_eq {db : Db} {vm : Vm} {s : State} (hvm : s.vm = { vm with macAddress := s.vm.macAddress })
  (hdb : s.net.db = db.updateVm s.vm) :
  resetMac s = { s with
   vm := { vm with macAddress := none }
   net := { s.net with db := db.updateVm { vm with macAddress := none } } } := by
 unfold resetMac
 split
 · have hbare : { s.vm with macAddress := none } = { vm with macAddress := none } := by rw [hvm]
   have hid : vm.id = s.vm.id := by rw [hvm]
   dsimp only
   rw [hdb, hbare, updateVm_updateVm db s.vm { vm with macAddress := none } hid]
 rename_i hmac
 have hnone : s.vm.macAddress = none := by simpa using hmac
 rw [hnone] at hvm
 rw [← hvm, ← hdb]

theorem updateVm_vms_iff {db : Db} {vm : Vm} (hkeys : Keyed (·.id) db.vms) (hvm : vm ∈ db.vms) :
  (db.updateVm { vm with macAddress := none }).vms = db.vms ↔ vm.macAddress = none := by
 unfold Db.updateVm
 constructor
 · intro h
   have hmem : { vm with macAddress := none } ∈ db.vms := by
    rw [← h]
    exact mem_updateWhere_of hvm (by simp)
   rw [← hkeys.eq_of_key hmem hvm rfl]
 · intro hmac
   apply updateWhere_eq_self
   intro v hv hid
   rw [hkeys.eq_of_key hv hvm (of_decide_eq_true hid), ← hmac]

theorem load_loaded {net : NetworkDb} {vmId : Nat} (h : load net vmId = some s) :
  Loaded s ∧ s.net = net ∧ s.vm ∈ net.db.vms ∧ ∀ ip ∈ s.ips, ip ∈ net.vmIpAssignments := by
 obtain ⟨vm, hvm, h⟩ := bind_eq_some_iff.mp h
 obtain ⟨host, -, h⟩ := bind_eq_some_iff.mp h
 cases h
 refine ⟨⟨rfl, rfl, rfl, rfl, rfl, ?_⟩, rfl, mem_of_lookup hvm, fun ip hip => (mem_filter.mp hip).1⟩
 intro range hrange
 obtain ⟨id, -, hid⟩ := mem_filterMap.mp hrange
 have hkey : range.id = id := key_of_lookup hid
 change net.getIpRange range.id = some range
 rw [hkey, hid]

section Failure

variable {policy : Option RetryPolicy} {s a b t w : State}

structure FirstStep (text : IpText) (s a : State) : Prop extends Allocated text s a where
 net : a.net = { s.net with db := s.net.db.updateVm a.vm }
 replies : a.replies = { vmUpdated := true, macEntries := a.replies.macEntries }
 keys : Keyed (·.id) s.net.db.vms
 mem : s.vm ∈ s.net.db.vms

theorem VmCreated.arpAdded (h : VmCreated a b) : b.replies.arpAdded = a.replies.arpAdded := by
 obtain ⟨_, _, rfl⟩ := h
 rfl

theorem Unwritten.restored_iff (h : Unwritten s t) :
  Restored s.net t ↔ failsClean s.vm.macAddress t.replies = true := by
 have hclean : failsClean s.vm.macAddress t.replies = true ↔ t.replies.macEntries = 0 := by
  rw [h.replies]
  simp [failsClean]
 rw [hclean, h.arp]
 constructor
 · intro hrestored
   exact hrestored.arp
 · intro harp
   exact ⟨by rw [h.net], by rw [h.net], harp, h.dns, h.hostVm⟩

theorem FirstStep.rollback_iff (h : FirstStep text s a) (hw : SameContext a w) :
    let x := (attempt policy rollbackAssignIps w).state
    x.replies = w.replies ∧ (Restored s.net x ↔ s.vm.macAddress = none ∧
      w.net.vmIpAssignments.filter (fun i => !i.deleted) = a.net.vmIpAssignments.filter (fun i => !i.deleted) ∧
      (∀ entry ∈ w.arp, macEntry a = some entry) ∧ w.dns = [] ∧ w.hostVm = false) := by
  have hentry : macEntry w = macEntry a := macEntry_congr hw.policies hw.generatedMac hw.ranges hw.ips
  obtain ⟨arp, hop, harp⟩ :=
    rollbackAssignIps_result (h.known.congr hw.policies hw.generatedMac hw.ranges hw.ips)
  have hreset := @resetMac_eq s.net.db s.vm { w with arp } (by rw [hw.vm]; exact h.vm) (by
    change w.net.db = _
    rw [hw.db, h.net, hw.vm])
  intro x
  have hx : x = _ := congrArg Tried.state (attempt_of_ok hop)
  rw [hx, hreset]
  refine ⟨rfl, ?_⟩
  rw [hentry] at harp
  have hnil : arp = [] ↔ ∀ entry ∈ w.arp, macEntry a = some entry := by
    rw [eq_nil_iff_forall_not_mem]
    constructor
    · intro hnone entry hentry
      by_contra hne
      exact hnone entry ((harp entry).mpr ⟨hentry, hne⟩)
    · intro hall entry hentry
      obtain ⟨hmem, hne⟩ := (harp entry).mp hentry
      exact hne (hall entry hmem)
  have hrows : a.net.vmIpAssignments = s.net.vmIpAssignments := by rw [h.net]
  rw [hrows]
  constructor
  · intro hrestored
    exact ⟨(updateVm_vms_iff h.keys h.mem).mp hrestored.vms, hrestored.rows, hnil.mp hrestored.arp, hrestored.dns,
      hrestored.hostVm⟩
  · rintro ⟨hmac, hrows, hentries, hdns, hhost⟩
    exact ⟨(updateVm_vms_iff h.keys h.mem).mpr hmac, hrows, hnil.mpr hentries, hdns, hhost⟩

theorem FirstStep.host_failure (h : FirstStep text s a) (hb : VmLeft a b) :
  let x := (attempt policy rollbackAssignIps b).state
  Restored s.net x ↔ failsClean s.vm.macAddress x.replies = true := by
 obtain ⟨calls, left, rfl⟩ := hb
 intro x
 obtain ⟨hlog, hiff⟩ : x.replies = _ ∧ (Restored s.net x ↔ _) := h.rollback_iff ⟨rfl, rfl, rfl, rfl, rfl, rfl⟩
 rw [hiff, hlog]
 rw [h.replies, h.arp, h.dns]
 cases left <;> simp [failsClean]

theorem map_eq_of_map_eq {α β : Type} {f : α → α} {g : α → β} {l l' : List α} (h : l.map f = l'.map f)
  (hg : ∀ x, g (f x) = g x) : l.map g = l'.map g := by
 have hcomp := congrArg (List.map g) h
 simpa [List.map_map, Function.comp_def, hg] using hcomp

theorem deleteVm_attempt : (attempt policy deleteVm t).state = { t with hostVm := false } := by
 have hop : deleteVm t = (.ok (), { t with hostVm := false }) := rfl
 rw [attempt_of_ok hop]

theorem FirstStep.arp_failure (h : FirstStep text s a) (hb : VmCreated a b) (ht : ArpSetup text b t.ips t) :
  let x := (rollbackAll policy [(1, deleteVm), (0, rollbackAssignIps)] t).2
  Restored s.net x ↔ failsClean s.vm.macAddress x.replies = true := by
 obtain ⟨calls, left, hb⟩ := hb
 obtain ⟨added, harp, hadded, -⟩ := ht.added
 have hsame : SameContext a { t with hostVm := false } := by
  have hips : t.ips.map (·.ipRangeId) = b.ips.map (·.ipRangeId) := map_eq_of_map_eq ht.same fun _ => rfl
  rw [ht.frame, hb]
  rw [hb] at hips
  exact ⟨rfl, rfl, rfl, rfl, rfl, hips⟩
 have hentries : (∀ entry ∈ t.arp, macEntry a = some entry) ↔ added = [] := by
  have hbarp : b.arp = (macEntry a).toList := by
   rw [hb]
   exact h.arp
  rw [harp, hbarp]
  constructor
  · intro hall
    rcases hentry : macEntry a with _ | entry
    · rw [hentry] at hall
      simpa [eq_nil_iff_forall_not_mem] using hall
    have hmac : (a.generatedMac.bind (·.id)).isSome := by
     unfold macEntry at hentry
     split at hentry
     · rename_i hid _
       rw [hid]
       rfl
     · cases hentry
    have hquiet : Quiet text b.ips := by
     rw [hb]
     rcases h.ips with ⟨hnone, -⟩ | ⟨-, -, hquiet⟩
     · rw [hnone] at hmac
       cases hmac
     · exact hquiet hmac
    have hlen := (ht.quiet hquiet).2
    rw [harp] at hlen
    simpa using hlen
  · intro hnil
    rw [hnil]
    simp
 obtain ⟨hlog, hiff⟩ := @FirstStep.rollback_iff text policy s a { t with hostVm := false } h hsame
 have hx : (rollbackAll policy [(1, deleteVm), (0, rollbackAssignIps)] t).2 =
   (attempt policy rollbackAssignIps { t with hostVm := false }).state := by
  rw [rollbackAll, rollbackAll, rollbackAll, deleteVm_attempt]
 have hdns : t.dns = [] := by
  rw [ht.frame, hb]
  exact h.dns
 have hrows : t.net.vmIpAssignments = a.net.vmIpAssignments := by
  rw [ht.frame, hb]
 have hreplies : t.replies =
   { macEntries := a.replies.macEntries
     vmUpdated := true
     vmLeft := left
     vmCreated := true
     arpAdded := added.map (·.2) } := by
  rw [ht.frame, hb, hadded]
  rw [h.replies]
 intro x
 change Restored s.net (rollbackAll policy [(1, deleteVm), (0, rollbackAssignIps)] t).2 ↔
  failsClean s.vm.macAddress (rollbackAll policy [(1, deleteVm), (0, rollbackAssignIps)] t).2.replies = true
 rw [hx, hiff, hlog, hentries, hdns, hrows, hreplies]
 simp [failsClean]

theorem exists_of_map_eq {α β : Type} {g : α → β} {l l' : List α} (h : l.map g = l'.map g) {y : α} (hy : y ∈ l') :
  ∃ x ∈ l, g x = g y := by
 have hmem : g y ∈ l.map g := by
  rw [h]
  exact mem_map_of_mem hy
 exact mem_map.mp hmem

theorem macEntry_named {entry : Nat × Option String} (h : macEntry a = some entry) : entry.2 ≠ none := by
 unfold macEntry at h
 split at h
 · rw [← Option.some.inj h]
   simp
 · cases h

theorem dns_rollback {u : State} (hranges : ∀ ip ∈ u.ips, ∃ range, u.net.getIpRange ip.ipRangeId = some range)
  (howned : ∀ k r, (k, some r) ∈ u.dns → ∃ ip ∈ u.ips, ownsRecord u.net ip (k, some r) = true)
  (rest : List (Nat × Op State String)) :
  ∃ ips dns, (rollbackAll policy ((4, loopIps (removeDnsIf (·.dnsReverseRef.isSome))) ::
    (3, loopIps (removeDnsIf (·.dnsForwardRef.isSome))) :: rest) u).2 =
     (rollbackAll policy rest { u with ips, dns }).2 ∧
   ips.map bareIp = u.ips.map bareIp ∧ (dns = [] ↔ ∀ record ∈ u.dns, record.2 ≠ none) := by
 obtain ⟨ips₁, dns₁, hloop₁, hbare₁, hstay₁, hgone₁, hkept₁⟩ :=
  @removeDns_loop (·.dnsReverseRef.isSome) [] u.ips u hranges
 have hranges₁ : ∀ ip ∈ ips₁, ∃ range, u.net.getIpRange ip.ipRangeId = some range := by
  intro ip hip
  obtain ⟨ip', hip', hbare⟩ := exists_of_map_eq hbare₁.symm hip
  have hid : ip'.ipRangeId = ip.ipRangeId := congrArg (fun i => i.ipRangeId) hbare
  rw [← hid]
  exact hranges ip' hip'
 obtain ⟨ips₂, dns₂, hloop₂, hbare₂, -, hgone₂, hkept₂⟩ :=
  @removeDns_loop (·.dnsForwardRef.isSome) [] ips₁ { u with ips := ips₁, dns := dns₁ } hranges₁
 have hop₁ : loopIps (removeDnsIf (·.dnsReverseRef.isSome)) u = (.ok (), { u with ips := ips₁, dns := dns₁ }) := hloop₁
 have hop₂ : loopIps (removeDnsIf (·.dnsForwardRef.isSome)) { u with ips := ips₁, dns := dns₁ } =
   (.ok (), { u with ips := ips₂, dns := dns₂ }) := hloop₂
 refine ⟨ips₂, dns₂, ?_, hbare₂.trans hbare₁, ?_⟩
 · rw [rollbackAll, rollbackAll, attempt_of_ok hop₁, attempt_of_ok hop₂]
 constructor
 · intro hnil record hrecord hnone
   have hmem := hkept₂ record (hkept₁ record hrecord hnone) hnone
   rw [hnil] at hmem
   cases hmem
 intro hnamed
 rw [eq_nil_iff_forall_not_mem]
 rintro ⟨k, ref⟩ hmem
 obtain ⟨hmem₁, hfree₂⟩ := hgone₂ _ hmem
 obtain ⟨hmem₀, hfree₁⟩ := hgone₁ _ hmem₁
 rcases ref with _ | r
 · exact hnamed _ hmem₀ rfl
 obtain ⟨ip, hip, howns⟩ := howned k r hmem₀
 by_cases hreverse : ip.dnsReverseRef.isSome = true
 · rw [hfree₁ ip hip hreverse] at howns
   cases howns
 have hip₁ : ip ∈ ips₁ := hstay₁ ip hip (by simpa using hreverse)
 obtain ⟨range, r', -, hr, -, href⟩ := ownsRecord_iff.mp howns
 cases hk : k.2 with
 | false =>
  rw [hk] at href
  simp only [recordRef, Bool.false_eq_true, if_false] at href
  simp [href] at hreverse
 | true =>
  rw [hk] at href
  simp only [recordRef, if_true] at href
  have hfree := hfree₂ ip hip₁ (by simp [href])
  rw [howns] at hfree
  cases hfree

theorem arp_rollback {u : State} (hresolved : ∀ ip ∈ u.ips, ∃ k, routerOf text u.net ip = .ok k)
  (howned : ∀ k r, (k, some r) ∈ u.arp → macEntry a = some (k, some r) ∨
   ∃ ip ∈ u.ips, routerOf text u.net ip = .ok (some k) ∧ ip.arpRef = some r)
  (rest : List (Nat × Op State String)) :
  ∃ ips arp, (rollbackAll policy ((2, loopIps (removeArp text)) :: rest) u).2 =
    (rollbackAll policy rest { u with ips, arp }).2 ∧
   ips.map (·.ipRangeId) = u.ips.map (·.ipRangeId) ∧
   ((∀ entry ∈ arp, macEntry a = some entry) ↔ ∀ entry ∈ u.arp, entry.2 ≠ none) := by
 obtain ⟨ips, arp, hloop, hids, hgone, hkept⟩ := @removeArp_loop text [] u.ips u hresolved
 have hop : loopIps (removeArp text) u = (.ok (), { u with ips, arp }) := hloop
 refine ⟨ips, arp, ?_, hids, ?_⟩
 · rw [rollbackAll, attempt_of_ok hop]
 constructor
 · intro hall entry hentry hnone
   exact macEntry_named (hall entry (hkept entry hentry hnone)) hnone
 rintro hnamed ⟨k, ref⟩ hentry
 obtain ⟨hmem, hfree⟩ := hgone _ hentry
 rcases ref with _ | r
 · exact absurd rfl (hnamed _ hmem)
 · rcases howned k r hmem with hmac | ⟨ip, hip, hrouter, href⟩
   · exact hmac
   · cases hfree ip hip hrouter href

variable {net : NetworkDb} {ip ip' : VmIpAssignment}

theorem routerOf_congr {net' : NetworkDb} (hranges : net'.ipRanges = net.ipRanges)
  (hpolicies : net'.accessPolicies = net.accessPolicies) (hid : ip'.ipRangeId = ip.ipRangeId) (hip : ip'.ip = ip.ip) :
  routerOf text net' ip' = routerOf text net ip := by
 unfold routerOf arpRouter NetworkDb.getIpRange NetworkDb.getAccessPolicy
 rw [hranges, hpolicies, hid, hip]

theorem routerOf_bareIp (h : bareIp ip' = bareIp ip) : routerOf text net ip' = routerOf text net ip :=
 routerOf_congr rfl rfl (congrArg (fun i => i.ipRangeId) h) (congrArg (fun i => i.ip) h)

theorem ownsRecord_congr {net' : NetworkDb} {record : (Nat × Bool) × Option String}
  (hranges : net'.ipRanges = net.ipRanges) (hip : { ip' with id := 0 } = { ip with id := 0 }) :
  ownsRecord net' ip' record = ownsRecord net ip record := by
 have hid : ip'.ipRangeId = ip.ipRangeId := congrArg (fun i => i.ipRangeId) hip
 have hforward : ip'.dnsForwardRef = ip.dnsForwardRef := congrArg (fun i => i.dnsForwardRef) hip
 have hreverse : ip'.dnsReverseRef = ip.dnsReverseRef := congrArg (fun i => i.dnsReverseRef) hip
 unfold ownsRecord NetworkDb.getIpRange recordRef
 rw [hranges, hid, hforward, hreverse]

structure Provisioned (text : IpText) (a t : State) (added : List (Nat × Option String))
  (inserted : List VmIpAssignment) : Prop where
 same : SameContext a t
 rows : t.net.vmIpAssignments = a.net.vmIpAssignments ++ inserted
 arp : t.arp = (macEntry a).toList ++ added
 routers : ∀ ip ∈ t.ips, ∃ k, routerOf text t.net ip = .ok k
 arpOwned : ∀ k r, (k, some r) ∈ added → ∃ ip ∈ t.ips, routerOf text t.net ip = .ok (some k) ∧ ip.arpRef = some r
 dnsOwned : ∀ k r, (k, some r) ∈ t.dns → ∃ ip ∈ t.ips, ownsRecord t.net ip (k, some r) = true

theorem Provisioned.rollback {added : List (Nat × Option String)} {inserted : List VmIpAssignment}
  (h : Provisioned text a t added inserted) :
  ∃ ips dns arp, (rollbackAll policy [(4, loopIps (removeDnsIf (·.dnsReverseRef.isSome))),
    (3, loopIps (removeDnsIf (·.dnsForwardRef.isSome))), (2, loopIps (removeArp text)), (1, deleteVm),
    (0, rollbackAssignIps)] t).2 =
     (attempt policy rollbackAssignIps { t with ips, dns, arp, hostVm := false }).state ∧
   SameContext a { t with ips, dns, arp, hostVm := false } ∧ (dns = [] ↔ ∀ record ∈ t.dns, record.2 ≠ none) ∧
   ((∀ entry ∈ arp, macEntry a = some entry) ↔ ∀ entry ∈ added, entry.2 ≠ none) := by
 have hranges : ∀ ip ∈ t.ips, ∃ range, t.net.getIpRange ip.ipRangeId = some range := by
  intro ip hip
  obtain ⟨k, hk⟩ := h.routers ip hip
  unfold routerOf at hk
  split at hk
  · cases hk
  · rename_i range hrange
    exact ⟨range, hrange⟩
 obtain ⟨ips₁, dns, hdns, hbare, hdnsNil⟩ := @dns_rollback policy t hranges h.dnsOwned
  [(2, loopIps (removeArp text)), (1, deleteVm), (0, rollbackAssignIps)]
 have hresolved : ∀ ip ∈ ips₁, ∃ k, routerOf text t.net ip = .ok k := by
  intro ip hip
  obtain ⟨ip', hip', heq⟩ := exists_of_map_eq hbare.symm hip
  rw [← routerOf_bareIp heq]
  exact h.routers ip' hip'
 have howned : ∀ k r, (k, some r) ∈ t.arp → macEntry a = some (k, some r) ∨
   ∃ ip ∈ ips₁, routerOf text t.net ip = .ok (some k) ∧ ip.arpRef = some r := by
  intro k r hmem
  rw [h.arp] at hmem
  rcases mem_append.mp hmem with hmem | hmem
  · exact .inl (by simpa using hmem)
  obtain ⟨ip, hip, hrouter, href⟩ := h.arpOwned k r hmem
  obtain ⟨ip', hip', heq⟩ := exists_of_map_eq hbare hip
  have href' : ip'.arpRef = ip.arpRef := congrArg (fun i => i.arpRef) heq
  exact .inr ⟨ip', hip', (routerOf_bareIp heq).trans hrouter, href'.trans href⟩
 obtain ⟨ips₂, arp, harpAll, hids, hentries⟩ :=
  @arp_rollback text policy a { t with ips := ips₁, dns } hresolved howned [(1, deleteVm), (0, rollbackAssignIps)]
 refine ⟨ips₂, dns, arp, ?_, ⟨h.same.vm, h.same.db, h.same.policies, h.same.generatedMac, h.same.ranges, ?_⟩, hdnsNil,
  hentries.trans ?_⟩
 · rw [hdns, harpAll, rollbackAll, rollbackAll, rollbackAll, deleteVm_attempt]
 · exact (hids.trans (map_eq_of_map_eq hbare fun _ => rfl)).trans h.same.ips
 change (∀ entry ∈ t.arp, entry.2 ≠ none) ↔ _
 rw [h.arp]
 constructor
 · intro hall entry hentry
   exact hall entry (mem_append_right _ hentry)
 intro hall entry hentry
 rcases mem_append.mp hentry with hentry | hentry
 · exact macEntry_named (a := a) (by simpa using hentry)
 · exact hall entry hentry

section SaveFailure

variable (h : FirstStep text s a) {c d : State} {calls nextId : Nat} {ips inserted : List VmIpAssignment}
  (hb : VmCreated a b) (hc : ArpSetup text b c.ips c) (hrouters : ∀ ip ∈ c.ips, ∃ k, routerOf text b.net ip = .ok k)
  (hd : DnsSetup c d.ips d)
  (hips : ips.map (fun ip => { ip with id := 0 }) = d.ips.map (fun ip => { ip with id := 0 }))
  (ht : t = { d with
   calls, ips
   net := { d.net with vmIpAssignments := d.net.vmIpAssignments ++ inserted, nextId }
   replies := { d.replies with ipsInserted := inserted.length, insertFailed := true } })

include h hb hc hrouters hd hips ht

theorem FirstStep.provisioned :
  ∃ added left, Provisioned text a t added inserted ∧ t.replies =
   { macEntries := a.replies.macEntries
     vmUpdated := true
     vmLeft := left
     vmCreated := true
     arpAdded := added.map (·.2)
     recordsAdded := t.dns.map (·.2)
     ipsInserted := inserted.length
     insertFailed := true } := by
 obtain ⟨_, left, hb⟩ := hb
 obtain ⟨added, harp, hadded, howner⟩ := hc.added
 have htnet : t.net = { a.net with vmIpAssignments := a.net.vmIpAssignments ++ inserted, nextId } := by
  rw [ht, hd.net, hc.net, hb]
 have htips : t.ips = ips := by rw [ht]
 have hstatic : ips.map (fun ip => (ip.ipRangeId, ip.ip, ip.arpRef)) =
   c.ips.map (fun ip => (ip.ipRangeId, ip.ip, ip.arpRef)) :=
  (map_eq_of_map_eq hips fun _ => rfl).trans (map_eq_of_map_eq hd.same fun _ => rfl)
 have hrouter : ∀ ip ip', ip.ipRangeId = ip'.ipRangeId → ip.ip = ip'.ip →
   routerOf text t.net ip = routerOf text b.net ip' := by
  intro ip ip' hid hip
  exact routerOf_congr (by rw [htnet, hb]) (by rw [htnet, hb]) hid hip
 refine ⟨added, left, ⟨⟨?_, ?_, ?_, ?_, ?_, ?_⟩, ?_, ?_, ?_, ?_, ?_⟩, ?_⟩
 · rw [ht, hd.frame, hc.frame, hb]
 · rw [htnet]
 · rw [htnet]
 · rw [ht, hd.frame, hc.frame, hb]
 · rw [ht, hd.frame, hc.frame, hb]
 · have hranges : c.ips.map (·.ipRangeId) = b.ips.map (·.ipRangeId) := map_eq_of_map_eq hc.same fun _ => rfl
   rw [hb] at hranges
   rw [htips, ← hranges]
   exact (map_eq_of_map_eq hips fun _ => rfl).trans (map_eq_of_map_eq hd.same fun _ => rfl)
 · rw [htnet]
 · rw [ht, hd.frame]
   change c.arp = _
   rw [harp, hb]
   exact congrArg (· ++ added) h.arp
 · rw [htips]
   intro ip hip
   obtain ⟨ip', hip', heq⟩ := exists_of_map_eq hstatic.symm hip
   rw [Prod.mk.injEq, Prod.mk.injEq] at heq
   rw [hrouter ip ip' heq.1.symm heq.2.1.symm]
   exact hrouters ip' hip'
 · intro k r hmem
   obtain ⟨ip, hip, hrouter', href⟩ := howner k r hmem
   obtain ⟨ip', hip', heq⟩ := exists_of_map_eq hstatic hip
   rw [Prod.mk.injEq, Prod.mk.injEq] at heq
   rw [htips]
   exact ⟨ip', hip', (hrouter ip' ip heq.1 heq.2.1).trans hrouter', heq.2.2.trans href⟩
 · intro k r hmem
   rw [ht] at hmem
   obtain ⟨ip, hip, howns⟩ := hd.owned k r hmem
   obtain ⟨ip', hip', heq⟩ := exists_of_map_eq hips hip
   rw [htips]
   refine ⟨ip', hip', ?_⟩
   rw [← howns]
   exact ownsRecord_congr (by rw [htnet, hc.net, hb]) heq
 · rw [ht, hd.frame, hd.refs, hc.frame, hadded, hb]
   rw [h.replies]

theorem FirstStep.save_failure (hnew : ∀ i ∈ inserted, i.deleted = false) :
  let x := (rollbackAll policy [(4, loopIps (removeDnsIf (·.dnsReverseRef.isSome))),
   (3, loopIps (removeDnsIf (·.dnsForwardRef.isSome))), (2, loopIps (removeArp text)), (1, deleteVm),
   (0, rollbackAssignIps)] t).2
  Restored s.net x ↔ failsClean s.vm.macAddress x.replies = true := by
 obtain ⟨added, left, hprov, hreplies⟩ := h.provisioned hb hc hrouters hd hips ht
 obtain ⟨ips', dns, arp, hstate, hsame, hdnsNil, hentries⟩ :=
  @Provisioned.rollback text policy a t added inserted hprov
 obtain ⟨hlog, hiff⟩ := @FirstStep.rollback_iff text policy s a _ h hsame
 have hrows : (t.net.vmIpAssignments.filter fun i => !i.deleted) = (a.net.vmIpAssignments.filter fun i => !i.deleted) ↔
   inserted = [] := by
  have hall : (inserted.filter fun i => !i.deleted) = inserted := by
   rw [filter_eq_self]
   intro i hi
   rw [hnew i hi]
   rfl
  rw [hprov.rows, filter_append, hall]
  simp
 intro x
 rw [show x = _ from hstate, hiff, hlog]
 rw [hrows, hentries, hdnsNil, hreplies]
 simp [failsClean, isSome_iff_ne_none]

end SaveFailure

end Failure

theorem FirstStep.later_failure {policy : Option RetryPolicy} {a b c : State} (h : FirstStep text s a) {e : String}
  (hb : VmCreated a b) (hc : ArpSetup text b c.ips c) (hrouters : ∀ ip ∈ c.ips, ∃ k, routerOf text b.net ip = .ok k)
  (herr : (executeFrom policy ((spawnVmPipeline text answers).steps.drop 3) 3
   [(0, rollbackAssignIps), (1, deleteVm), (2, loopIps (removeArp text))] c).result = .error e) :
  let x := (executeFrom policy ((spawnVmPipeline text answers).steps.drop 3) 3
   [(0, rollbackAssignIps), (1, deleteVm), (2, loopIps (removeArp text))] c).state
  Restored s.net x ↔ failsClean s.vm.macAddress x.replies = true := by
 intro x
 have hnew : c.dns = [] ∧ c.replies.recordsAdded = [] ∧ c.replies.ipsInserted = 0 := by
  obtain ⟨_, _, hb⟩ := hb
  rw [hc.frame, hb]
  refine ⟨h.dns, ?_⟩
  rw [h.replies]
  exact ⟨rfl, rfl⟩
 have hstart : DnsSetup c c.ips c := ⟨rfl, rfl, by rw [hnew.1, hnew.2.1]; rfl, by simp [hnew.1]⟩
 obtain ⟨d₁, hop₁, hd₁⟩ := @DnsSetup.loop text answers c c hstart true
 obtain ⟨d, hop, hd⟩ := @DnsSetup.loop text answers c d₁ hd₁ false
 obtain ⟨hnone, -⟩ | ⟨rfl, herr, hstate₁⟩ := executeFrom_error_cases rfl (leaves_of_ok hop₁) herr
 · exact hnone.elim
 obtain ⟨hnone, -⟩ | ⟨rfl, herr, hstate₂⟩ := executeFrom_error_cases rfl (leaves_of_ok hop) herr
 · exact hnone.elim
 obtain ⟨⟨calls, ips, inserted, nextId, hnew, hips, ht⟩, hstate⟩ | ⟨-, herr, -⟩ :=
  executeFrom_error_cases rfl (@saveIps_result answers policy _ (by rw [hd.frame]; exact hnew.2.2)) herr
 · have hx : x = _ := hstate₁.trans (hstate₂.trans hstate)
   rw [hx]
   exact h.save_failure hb hc hrouters hd hips ht hnew
 · cases herr

def routedRange : NetworkDb := { Provisioning.smallRange with
 ipRanges := Provisioning.smallRange.ipRanges.map fun range => { range with accessPolicyId := some 1 }
 accessPolicies := [{ id := 1, routerId := some 7 }] }

def fullHost : Nat → Answer
 | 0 => { choices := { shuffled := routedRange.ipRanges } }
 | 1 => { entry := some { id := some "vmac", macAddress := 5 } }
 | 2 => {}
 | _ => { error := some (.fatal "no space") }

def firstVm : State :=
 { net := routedRange
   vm := { id := 1, hostId := 1, subscriptionLineItemId := 1 }
   host := { id := 1 }
   ips := []
   ranges := [] }

def spawnedVm : NetworkDb := { Provisioning.smallRange with
 vmIpAssignments := [{ id := 1, vmId := 2, ipRangeId := 1, ip := "10.0.0.2" }]
 nextId := 2 }

end Lnvps.Spawn
