import Lnvps.Firewall.Mitigation

/-! # The floor of the mitigation -/

namespace Lnvps.Firewall

open Lpm Steps List Bool Family

variable {w : Nat}

namespace Rules

def layered (r : Rules w) : Bool :=
 r.overrides.all (fun o => o.flags ≠ 0#32 &&
  r.overrides.all (fun o' => !(o'.net.len ≤ o.net.len && o'.net.covers o.net.net) || hasAll o.flags o'.flags) &&
  r.protectedNets.all (fun c => !(c.len < o.net.len && c.covers o.net.net) || hasAll o.flags PORT_FILTER)) &&
 r.protectedNets.all (fun c => c.len < w)

variable {r : Rules w} {o o' : Override w} {c : Cidr w}

theorem flags_ne_zero (h : r.layered = true) (ho : o ∈ r.overrides) : o.flags ≠ 0#32 := by
 simp only [layered, and_eq_true, all_eq_true] at h
 simpa using (h.1 o ho).1.1

theorem hasAll_of_inside (h : r.layered = true) (ho : o ∈ r.overrides) (ho' : o' ∈ r.overrides)
  (hlen : o'.net.len ≤ o.net.len) (hcov : o'.net.covers o.net.net = true) : hasAll o.flags o'.flags = true := by
 simp only [layered, and_eq_true, all_eq_true] at h
 simpa [hlen, hcov] using (h.1 o ho).1.2 o' ho'

theorem portFilter_of_inside (h : r.layered = true) (ho : o ∈ r.overrides) (hc : c ∈ r.protectedNets)
  (hlen : c.len < o.net.len) (hcov : c.covers o.net.net = true) : hasAll o.flags PORT_FILTER = true := by
 simp only [layered, and_eq_true, all_eq_true] at h
 simpa [hlen, hcov] using (h.1 o ho).2 c hc

theorem len_lt (h : r.layered = true) (hc : c ∈ r.protectedNets) : c.len < w := by
 simp only [layered, and_eq_true, all_eq_true] at h
 simpa using h.2 c hc

theorem manualFlags_ne_zero (h : r.layered = true) (ho : o ∈ r.overrides) : r.manualFlags o.net.net ≠ 0#32 := by
 intro hzero
 have hall := hasAll_manualFlags ho o.net.covers_net
 rw [hzero, hasAll, decide_eq_true_eq, BitVec.zero_and] at hall
 exact flags_ne_zero h ho hall.symm

end Rules

def Entered (rules : Rules w) (c : Cidr w) (e : Option Flags) : Prop :=
 ∀ o ∈ rules.overrides, o.net = c → ∃ u, e = some u ∧ hasAll u o.flags = true

structure Held (rules : Rules w) (c : Cidr w) (v : Cell) : Prop where
 enforced : v.1.mode = .portFilter → v.2 = some v.1.flags ∧ hasAll v.1.flags PORT_FILTER = true ∧
  hasAll v.1.flags (rules.manualFlags c.net) = true
 entered : Entered rules c v.2

structure Ready (rules : Rules w) (c : Cidr w) (v : Cell) : Prop where
 enforced : v.1.mode = .portFilter → rules.manualFlags c.net = 0#32 → v.2 = some v.1.flags
 entered : Entered rules c v.2

section

variable {rules : Rules w} {c : Cidr w} {v v' : Cell}

theorem Held.ready (h : Held rules c v) : Ready rules c v := ⟨fun hmode _ => (h.enforced hmode).1, h.entered⟩

private theorem entered_of_manualFlags {u : Flags} (hu : hasAll u (rules.manualFlags c.net) = true) :
  Entered rules c (some u) := by
 rintro o ho rfl
 exact ⟨u, rfl, hasAll_trans hu (Rules.hasAll_manualFlags ho o.net.covers_net)⟩

theorem Ready.held (h : Ready rules c v) (hrules : rules.layered = true)
  (hm : Moves (rules.manualFlags c.net) v v') : Held rules c v' := by
 cases hm with
 | rest _ hcalm he =>
  refine ⟨fun hmode => ?_, he ▸ h.entered⟩
  rw [hcalm] at hmode
  cases hmode
 | leave _ hcalm he =>
  refine ⟨fun hmode => ?_, fun o ho hc => ?_⟩
  · rw [hcalm] at hmode
    cases hmode
  have hmanual : rules.manualFlags c.net ≠ 0#32 := hc ▸ Rules.manualFlags_ne_zero hrules ho
  rw [he, restore, ite_cond_eq_true _ _ (eq_true hmanual)]
  exact entered_of_manualFlags hasAll_self o ho hc
 | enforce _ hbase hmanual he => exact ⟨fun _ => ⟨he, hbase, hmanual⟩, he ▸ entered_of_manualFlags hmanual⟩
 | hold hmode _ hflags hbase hnone he =>
  refine ⟨fun _ => ⟨?_, hbase, by rw [hnone]; exact hasAll_zero⟩, he ▸ h.entered⟩
  rw [he, h.enforced hmode hnone, hflags]

end

namespace Family

variable {f : Family w} {p q : Pass} {samples : Samples w} {rules : Rules w} {r : Option (Rules w)} {a : BitVec w}
 {c : Cidr w}

def Floored (f : Family w) (a : BitVec w) : Prop :=
 ((f.own a).mode = .portFilter ∨ (∃ c ∈ f.rules.protectedNets, c.covers a = true ∧ (f.net c).mode = .portFilter) →
  hasAll (f.destMode a) PORT_FILTER = true) ∧
 ∀ o ∈ f.rules.overrides, o.net.covers a = true → hasAll (f.destMode a) o.flags = true

structure Firm (f : Family w) : Prop where
 clean : f.Clean
 own : ∀ a, Held f.rules (.host a) (f.ownCell a)
 net : ∀ c ∈ f.rules.protectedNets, Held f.rules c (f.netCell c)
 entered : ∀ c, Entered f.rules c (f.destState.lookup c)
 nets : ∀ c, (f.net c).mode = .portFilter → c ∈ f.rules.protectedNets

private theorem destMode_of_lookup {u : Flags} (hc : c.covers a = true) (hu : f.destState.lookup c = some u) :
  ∃ k, k.covers a = true ∧ c.len ≤ k.len ∧ c.covers k.net = true ∧ f.destState.lookup k = some (f.destMode a) := by
 obtain ⟨k, v, hl, hv, hk, hlen⟩ := Trie.longest_of_lookup hc hu
 refine ⟨k, hk, hlen, Cidr.covers_net_of_covers hc hk hlen, ?_⟩
 rw [destMode, hl]
 exact hv

private theorem Firm.entry_of_tracker (h : f.Firm) {u : Flags} (hu : f.destState.lookup c = some u)
  (hb : (c.len = w ∧ (f.own c.net).mode = .portFilter) ∨
   (c ∈ f.rules.protectedNets ∧ (f.net c).mode = .portFilter)) :
  hasAll u PORT_FILTER = true ∧ hasAll u (f.rules.manualFlags c.net) = true := by
 rcases hb with ⟨hlen, hmode⟩ | ⟨hnet, hmode⟩
 · obtain ⟨he, hfloor⟩ := (h.own c.net).enforced hmode
   have hhost : (f.ownCell c.net).2 = f.destState.lookup c := by rw [ownCell, ← Cidr.eq_host_of_len hlen]
   rw [hhost, hu] at he
   rw [Option.some.inj he]
   exact hfloor
 · obtain ⟨he, hfloor⟩ := (h.net c hnet).enforced hmode
   have hentry : (f.netCell c).2 = f.destState.lookup c := rfl
   rw [hentry, hu] at he
   rw [Option.some.inj he]
   exact hfloor

theorem Firm.floored (h : f.Firm) (hrules : f.rules.layered = true) (a : BitVec w) : f.Floored a := by
 refine ⟨?_, ?_⟩
 · rintro (hown | ⟨c, hc, hcov, hmode⟩)
   · obtain ⟨he, hbase, -⟩ := (h.own a).enforced hown
     rw [destMode, Trie.longest_of_host he]
     exact hbase
   obtain ⟨he, hbase, -⟩ := (h.net c hc).enforced hmode
   obtain ⟨k, -, hlen, hin, hk⟩ := destMode_of_lookup hcov he
   rcases h.clean.backed k _ hk with hk' | hb
   · obtain ⟨o, ho, rfl⟩ := mem_map.mp hk'
     rcases Nat.lt_or_eq_of_le hlen with hlt | heq
     · obtain ⟨u, hu, hflags⟩ := h.entered o.net o ho rfl
       rw [hk] at hu
       rw [Option.some.inj hu]
       exact hasAll_trans hflags (Rules.portFilter_of_inside hrules ho hc hlt hin)
     · have hsame : c = o.net := Cidr.eq_of_covers hin o.net.covers_net heq
       rw [← hsame] at hk
       exact (h.entry_of_tracker hk (.inr ⟨hc, hmode⟩)).1
   · exact (h.entry_of_tracker hk hb).1
 · intro o ho hcov
   obtain ⟨u, hu, -⟩ := h.entered o.net o ho rfl
   obtain ⟨k, -, hlen, hin, hk⟩ := destMode_of_lookup hcov hu
   rcases h.clean.backed k _ hk with hk' | hb
   · obtain ⟨o', ho', rfl⟩ := mem_map.mp hk'
     obtain ⟨u', hu', hflags⟩ := h.entered o'.net o' ho' rfl
     rw [hk] at hu'
     rw [Option.some.inj hu']
     exact hasAll_trans hflags (Rules.hasAll_of_inside hrules ho' ho hlen hin)
   · exact hasAll_trans (h.entry_of_tracker hk hb).2 (Rules.hasAll_manualFlags ho hin)

def dropsCalmOverrides (f : Family w) (rules : Rules w) : Bool :=
 f.rules.overrideNets.all (fun c => c ∈ rules.overrideNets || rules.manualFlags c.net ≠ 0#32 ||
  ((f.own c.net).mode = .normal || c.len < w) && (f.net c).mode = .normal)

def steady (f : Family w) (r : Option (Rules w)) (p q : Pass) (samples : Samples w) : Bool :=
 f.tidy r p q samples && (f.inForce r).layered && f.dropsCalmOverrides (f.inForce r)

theorem entered_push (h : f.Firm) (hrules : (f.inForce r).layered = true) (c : Cidr w) :
  Entered (f.inForce r) c ((f.push r).destState.lookup c) := by
 cases r with
 | none => exact h.entered c
 | some rules =>
  rintro o ho rfl
  have hmem : o.net ∈ (rules.overrides.map (fun o => (o.net, o.flags))).map Prod.fst := by
   rw [map_map]
   exact mem_map_of_mem ho
  obtain ⟨u, hu, hlookup⟩ : ∃ u, (o.net, u) ∈ rules.overrides.map (fun o => (o.net, o.flags)) ∧
    (f.push (some rules)).destState.lookup o.net = some u := Trie.lookup_writeAll_of_mem hmem
  obtain ⟨o', ho', he⟩ := mem_map.mp hu
  obtain ⟨hnet, rfl⟩ := Prod.mk.inj he
  refine ⟨o'.flags, hlookup, Rules.hasAll_of_inside hrules ho' ho (hnet ▸ le_rfl) ?_⟩
  rw [hnet]
  exact o.net.covers_net

private theorem lookup_push_of_mode (h : f.Firm) (hrules : (f.inForce r).layered = true)
  (hdrop : f.dropsCalmOverrides (f.inForce r) = true) {t : DestTracker}
  (ht : (c.len = w ∧ t = f.own c.net) ∨ t = f.net c) (hmode : t.mode = .portFilter)
  (hnone : (f.inForce r).manualFlags c.net = 0#32) (he : f.destState.lookup c = some t.flags) :
  (f.push r).destState.lookup c = some t.flags := by
 have hnew : c ∉ (f.inForce r).overrideNets := by
  intro hc
  obtain ⟨o, ho, rfl⟩ := mem_map.mp hc
  exact Rules.manualFlags_ne_zero hrules ho hnone
 rw [lookup_push_of_notMem hnew]
 have hkept : ¬ (c ∈ f.applied ∧ r.isSome = true) := by
  rintro ⟨hc, -⟩
  rw [h.clean.applied_eq] at hc
  have hcalm := all_eq_true.mp hdrop c hc
  simp only [hnew, hnone, decide_false, Bool.false_or, ne_eq, not_true_eq_false, Bool.and_eq_true, Bool.or_eq_true,
   decide_eq_true_eq] at hcalm
  rcases ht with ⟨hlen, rfl⟩ | rfl
  · rcases hcalm.1 with hown | hlt
    · rw [hown] at hmode
      cases hmode
    · omega
  · rw [hcalm.2] at hmode
    cases hmode
 rw [ite_cond_eq_false _ _ (eq_false hkept)]
 exact he

theorem ready_own_push (h : f.Firm) (hrules : (f.inForce r).layered = true)
  (hdrop : f.dropsCalmOverrides (f.inForce r) = true) (a : BitVec w) :
  Ready (f.inForce r) (.host a) ((f.push r).ownCell a) := by
 refine ⟨fun hmode hnone => ?_, entered_push h hrules _⟩
 rw [ownCell, own_push] at hmode ⊢
 exact lookup_push_of_mode h hrules hdrop (.inl ⟨rfl, rfl⟩) hmode hnone ((h.own a).enforced hmode).1

theorem ready_net_push (h : f.Firm) (hrules : (f.inForce r).layered = true)
  (hdrop : f.dropsCalmOverrides (f.inForce r) = true) (c : Cidr w) :
  Ready (f.inForce r) c ((f.push r).netCell c) := by
 refine ⟨fun hmode hnone => ?_, entered_push h hrules _⟩
 rw [netCell, net_push] at hmode ⊢
 have hold := (h.net c (h.nets c hmode)).enforced hmode
 exact lookup_push_of_mode h hrules hdrop (.inr rfl) hmode hnone hold.1

private theorem netCell_detectFamily (hc : c.len < w) :
  (detectFamily p f.rules.manualFlags samples f).netCell c = f.netCell c := by
 have hlen : ¬ c.len = w := by omega
 rw [netCell, net_detectFamily, lookup_detectFamily, ite_cond_eq_false _ _ (eq_false hlen), netCell]

theorem held_own_runControl (hrules : f.rules.layered = true) (h : Ready f.rules (.host a) (f.ownCell a)) :
  Held f.rules (.host a) ((f.runControl p q samples).ownCell a) := by
 have hnot : .host a ∉ f.rules.protectedNets := by
  intro hmem
  have hlt := Rules.len_lt hrules hmem
  simp at hlt
 have hcell : (f.runControl p q samples).ownCell a = ownStep p f.rules.manualFlags samples a (f.ownCell a) := by
  rw [ownCell, own_runControl, lookup_runControl_of_notMem hnot, lookup_detectFamily]
  simp
 rw [hcell]
 exact h.held hrules (ownStep_moves p f.rules.manualFlags samples a (f.ownCell a))

theorem held_net_runControl (hrules : f.rules.layered = true) (hc : c ∈ f.rules.protectedNets)
  (h : Ready f.rules c (f.netCell c)) : Held f.rules c ((f.runControl p q samples).netCell c) := by
 rw [netCell_runControl, netCell_detectFamily (Rules.len_lt hrules hc)]
 refine Sweep.iterate_of_step (P := Ready f.rules c) (Q := Held f.rules c) (fun v hv => ?_) (fun v hv => hv.ready)
  (count_pos_iff.mpr hc) h
 exact hv.held hrules (netStep_moves q f.rules.manualFlags samples c v)

theorem entered_runControl (hrules : f.rules.layered = true) (hown : ∀ a, Ready f.rules (.host a) (f.ownCell a))
  (hnet : ∀ c, Ready f.rules c (f.netCell c)) (c : Cidr w) :
  Entered f.rules c ((f.runControl p q samples).destState.lookup c) := by
 by_cases hc : c ∈ f.rules.protectedNets
 · exact (held_net_runControl hrules hc (hnet c)).entered
 by_cases hlen : c.len = w
 · have hheld : Held f.rules (.host c.net) ((f.runControl p q samples).ownCell c.net) :=
    held_own_runControl hrules (hown c.net)
   have hentered := hheld.entered
   rw [ownCell, ← Cidr.eq_host_of_len hlen] at hentered
   exact hentered
 · rw [lookup_runControl_of_notMem hc, lookup_detectFamily, ite_cond_eq_false _ _ (eq_false hlen)]
   exact (hnet c).entered

theorem Firm.tick (h : f.Firm) (hsteady : f.steady r p q samples = true) :
  ((f.push r).runControl p q samples).Firm := by
 rw [steady, and_eq_true, and_eq_true] at hsteady
 obtain ⟨⟨htidy, hrules⟩, hdrop⟩ := hsteady
 have hown : ∀ a, Ready (f.push r).rules (.host a) ((f.push r).ownCell a) := by
  rw [rules_push]
  exact ready_own_push h hrules hdrop
 have hnet : ∀ c, Ready (f.push r).rules c ((f.push r).netCell c) := by
  rw [rules_push]
  exact ready_net_push h hrules hdrop
 have hrules' : (f.push r).rules.layered = true := by rwa [rules_push]
 constructor
 · exact h.clean.tick htidy
 · intro a
   rw [rules_runControl]
   exact held_own_runControl hrules' (hown a)
 · intro c hc
   rw [rules_runControl] at hc ⊢
   exact held_net_runControl hrules' hc (hnet c)
 · intro c
   rw [rules_runControl]
   exact entered_runControl hrules' hown hnet c
 · intro c hmode
   rw [rules_runControl]
   by_contra hc
   rw [net_runControl_of_notMem hc, net_push] at hmode
   rw [rules_push] at hc
   rw [tidy, and_eq_true] at htidy
   have hkept := all_eq_true.mp htidy.1 c (h.nets c hmode)
   simp [hmode, hc] at hkept

instance (f : Family w) (a : BitVec w) : Decidable (f.Floored a) := inferInstanceAs (Decidable (_ ∧ _))

end Family

namespace Daemon

def Floored (s : Daemon) : Dst → Prop
 | .v4 a => s.v4.Floored a
 | .v6 a => s.v6.Floored a

def steady (s : Daemon) (l : Tick) : Bool :=
 s.v4.steady (l.rules.map (·.v4)) (s.passes l).1 (s.passes l).2 l.samplesV4 &&
  s.v6.steady (l.rules.map (·.v6)) (s.passes l).1 (s.passes l).2 l.samplesV6

structure Firm (s : Daemon) : Prop where
 v4 : s.v4.Firm
 v6 : s.v6.Firm

private theorem firm_of_protectedNets (nets : List (Cidr w)) :
  Family.Firm ({ rules := { protectedNets := nets } } : Family w) where
 clean := ⟨rfl, fun c flags h => by simp at h⟩
 own := fun a => ⟨fun hmode => by simp [ownCell, own] at hmode, fun o ho => by simp at ho⟩
 net := fun c _ => ⟨fun hmode => by simp [netCell, net] at hmode, fun o ho => by simp at ho⟩
 entered := fun c o ho => by simp at ho
 nets := fun c hmode => by simp [net] at hmode

theorem firm_start (cfg : RuntimeConfig) (nets : ProtectedNets) : (start cfg nets).Firm :=
 ⟨firm_of_protectedNets nets.v4, firm_of_protectedNets nets.v6⟩

theorem Firm.tick {s t : Daemon} {l : Tick} (h : s.Firm) (hsteady : s.steady l = true) (ht : s.tick l = some t) :
  t.Firm := by
 obtain ⟨-, -, -, h4, h6⟩ := tick_eq_some ht
 rw [Daemon.steady, and_eq_true] at hsteady
 constructor
 · rw [h4]
   exact h.v4.tick hsteady.1
 · rw [h6]
   exact h.v6.tick hsteady.2

private theorem floored_tick {s t : Daemon} {l : Tick} (h : s.Firm) (hsteady : s.steady l = true)
  (ht : s.tick l = some t) (d : Dst) : t.Floored d := by
 have hfirm := h.tick hsteady ht
 obtain ⟨-, -, -, h4, h6⟩ := tick_eq_some ht
 simp only [Daemon.steady, Family.steady, and_eq_true] at hsteady
 cases d with
 | v4 a =>
  refine hfirm.v4.floored ?_ a
  rw [h4, Family.rules_runControl, Family.rules_push]
  exact hsteady.1.1.2
 | v6 a =>
  refine hfirm.v6.floored ?_ a
  rw [h6, Family.rules_runControl, Family.rules_push]
  exact hsteady.2.1.2

private theorem floored_start (cfg : RuntimeConfig) (nets : ProtectedNets) (d : Dst) : (start cfg nets).Floored d := by
 cases d with
 | v4 a | v6 a =>
  refine ⟨fun hmode => ?_, fun o ho => by simp [start] at ho⟩
  simp [start, own, net] at hmode

/-- In a run of steady ticks the lookup of every destination finds the port filter while its tracker or the tracker of
one of its protected networks mitigates, and all flags of its overrides. -/
theorem mitigation_floor {cfg : RuntimeConfig} {nets : ProtectedNets} {ls : List Tick} {s : Daemon}
  (hrun : RunIf tick (fun s l => s.steady l = true) (start cfg nets) ls s) (d : Dst) : s.Floored d := by
 cases hrun with
 | nil => exact floored_start cfg nets d
 | snoc hbefore hsteady ht =>
  exact floored_tick (hbefore.invariant (fun _ _ _ h hs ht => h.tick hs ht) (firm_start cfg nets)) hsteady ht d

theorem override_taken_back_under_attack :
  ∃ s, Run tick (start smallLimits ⟨[], []⟩)
    [{ nowNs := 1 }, { nowNs := 1000000001, samplesV4 := flood },
     { nowNs := 2000000001, samplesV4 := flood,
       rules := some (overrideRules (.host attacked) PORT_FILTER) },
     { nowNs := 3000000001, samplesV4 := flood, rules := some noRules }] s ∧
   (s.v4.own attacked).mode = .portFilter ∧ s.destMode (.v4 attacked) = 0#32 ∧ ¬ s.Floored (.v4 attacked) :=
 Run.exists_of_exec_imp (P := fun s => (s.v4.own attacked).mode = .portFilter ∧ s.v4.destMode attacked = 0#32 ∧
  ¬ s.v4.Floored attacked) (fun _ _ h => h) (by decide +kernel)

def layeredRules : RuleSet where
 v4 := { protectedNets := [.around attacked 24], overrides := [⟨.host attacked, PORT_FILTER ||| SYN_PROXY⟩] }
 v6 := {}

def bigFlood : Samples 32 := AList.singleton attacked { packets := 2000, bytes := 2000 }

/-- The destination of the override and its network are attacked. -/
theorem mitigation_floor_layered :
  ∃ s, RunIf tick (fun s l => s.steady l = true) (start smallLimits ⟨[.around attacked 24], []⟩)
    [{ nowNs := 1, rules := some layeredRules }, { nowNs := 1000000001, samplesV4 := bigFlood }] s ∧
   (s.v4.net (.around attacked 24)).mode = .portFilter ∧ s.Floored (.v4 attacked) :=
 RunIf.exists_and_of_execIf (by decide +kernel) fun _ hrun _ => mitigation_floor hrun (.v4 attacked)

end Daemon

end Lnvps.Firewall
