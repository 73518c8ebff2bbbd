import Lnvps.Firewall.Control
import Lnvps.Lib.Run

/-! # Entries of the dest-state map -/

namespace Lnvps.Firewall

open Lpm Steps List

variable {w : Nat}

namespace Family

variable {f : Family w} {p q : Pass} {samples : Samples w} {rules : Rules w} {r : Option (Rules w)} {a : BitVec w}
 {c : Cidr w}

def Justified (f : Family w) (a : BitVec w) : Prop :=
 (f.own a).mode = .portFilter ∨
  (∃ c ∈ f.rules.protectedNets, c.covers a = true ∧ (f.net c).mode = .portFilter) ∨
  ∃ o ∈ f.rules.overrides, o.net.covers a = true

def Backed (f : Family w) (c : Cidr w) : Prop :=
 c ∈ f.rules.overrideNets ∨ (c.len = w ∧ (f.own c.net).mode = .portFilter) ∨
  (c ∈ f.rules.protectedNets ∧ (f.net c).mode = .portFilter)

structure Clean (f : Family w) : Prop where
 applied_eq : f.applied = f.rules.overrideNets
 backed : ∀ c flags, f.destState.lookup c = some flags → f.Backed c

theorem Backed.justified (h : f.Backed c) (hc : c.covers a = true) : f.Justified a := by
 rcases h with ho | ⟨hlen, hown⟩ | ⟨hnet, hmode⟩
 · obtain ⟨o, hmem, rfl⟩ := mem_map.mp ho
   exact .inr (.inr ⟨o, hmem, hc⟩)
 · rw [Cidr.eq_host_of_len hlen, Cidr.host_covers] at hc
   rw [← hc] at hown
   exact .inl hown
 · exact .inr (.inl ⟨c, hnet, hc, hmode⟩)

theorem Clean.justified (h : f.Clean) (ha : f.destMode a ≠ 0#32) : f.Justified a := by
 cases hl : f.destState.longest a with
 | none => simp [destMode, hl] at ha
 | some flags =>
  obtain ⟨c, hc, hlookup, -⟩ := Trie.exists_of_longest hl
  exact (h.backed c flags hlookup).justified hc

def inForce (f : Family w) (r : Option (Rules w)) : Rules w := r.getD f.rules

@[simp] theorem rules_push (f : Family w) (r : Option (Rules w)) : (f.push r).rules = f.inForce r := by
 cases r <;> rfl

@[simp] theorem own_push (f : Family w) (r : Option (Rules w)) (a : BitVec w) : (f.push r).own a = f.own a := by
 cases r <;> rfl

@[simp] theorem net_push (f : Family w) (r : Option (Rules w)) (c : Cidr w) : (f.push r).net c = f.net c := by
 cases r <;> rfl

def borrows (rules : Rules w) (c : Cidr w) : Bool := rules.manualFlags c.net ≠ 0#32 && c ∉ rules.overrideNets

def dropsCalmNets (f : Family w) (rules : Rules w) : Bool :=
 f.rules.protectedNets.all (fun c => c ∈ rules.protectedNets || (f.net c).mode = .normal)

def counters (f : Family w) (samples : Samples w) (a : BitVec w) : DestCounters :=
 if a ∈ samples then sampled samples a (f.own a).prev else (f.own a).prev

def netCounters (f : Family w) (samples : Samples w) (c : Cidr w) : DestCounters :=
 (f.net c).prev.add (aggregate samples c)

def leavesNoFloor (f : Family w) (rules : Rules w) (p q : Pass) (samples : Samples w) : Bool :=
 f.trackers.keys.all (fun a => !(leaves p (f.counters samples a) (f.own a) && borrows rules (.host a))) &&
  rules.protectedNets.all (fun c =>
   !((leaves q (f.netCounters samples c) (f.net c) || 1 < rules.protectedNets.count c) && borrows rules c))

def tidy (f : Family w) (r : Option (Rules w)) (p q : Pass) (samples : Samples w) : Bool :=
 f.dropsCalmNets (f.inForce r) && f.leavesNoFloor (f.inForce r) p q samples

theorem mem_overrideNets_of_restore {flags : Flags} {e : Option Flags} (hb : borrows rules c = false)
  (h : (restore (rules.manualFlags c.net)).entry e = some flags) : c ∈ rules.overrideNets := by
 by_contra hc
 have hnone : rules.manualFlags c.net = 0#32 := by simpa [borrows, hc] using hb
 simp [restore, hnone, Write.entry] at h

theorem lookup_push_of_notMem (hc : c ∉ (f.inForce r).overrideNets) :
  (f.push r).destState.lookup c = if c ∈ f.applied ∧ r.isSome = true then none else f.destState.lookup c := by
 cases r with
 | none => simp [push]
 | some rules =>
  have hwritten : c ∉ (rules.overrides.map (fun o => (o.net, o.flags))).map Prod.fst := by
   simpa [inForce, Rules.overrideNets] using hc
  have hpush : (f.push (some rules)).destState = (f.applyRules rules).destState := rfl
  rw [hpush, applyRules, Trie.lookup_writeAll_of_notMem hwritten, Trie.lookup_eraseAll]
  have hc' : c ∉ rules.overrideNets := hc
  simp [hc']

theorem Clean.push (h : f.Clean) (hdrop : f.dropsCalmNets (f.inForce r) = true) : (f.push r).Clean := by
 constructor
 · cases r with
   | none => exact h.applied_eq
   | some rules => rfl
 intro c flags hlookup
 by_cases hc : c ∈ (f.inForce r).overrideNets
 · left
   rwa [rules_push]
 rw [lookup_push_of_notMem hc] at hlookup
 split_ifs at hlookup with hgone
 rcases h.backed c flags hlookup with ho | hown | ⟨hnet, hmode⟩
 · cases r with
   | none => exact absurd ho hc
   | some rules =>
    rw [← h.applied_eq] at ho
    exact absurd ⟨ho, rfl⟩ hgone
 · right; left
   rwa [own_push]
 · right; right
   rw [rules_push, net_push]
   have hkept := all_eq_true.mp hdrop c hnet
   simp only [hmode, Bool.or_eq_true, decide_eq_true_eq] at hkept
   exact ⟨hkept.resolve_right (by simp), hmode⟩

theorem leaves_of_ownStep {manual : BitVec w → Flags} {e : Option Flags} (hmode : (f.own a).mode = .portFilter)
  (h : (ownStep p manual samples a (f.own a, e)).1.mode = .normal) :
  leaves p (f.counters samples a) (f.own a) = true := by
 unfold counters
 unfold ownStep at h
 split_ifs at h ⊢ with hsample
 · exact leaves_of_decision keepsClock_dest hmode h
 · exact leaves_of_decision keepsClock_dest hmode h
 · rw [hmode] at h
   cases h

theorem Clean.backed_detectFamily (h : f.Clean) (hfloor : f.leavesNoFloor f.rules p q samples = true) {flags : Flags}
  (hlookup : (detectFamily p f.rules.manualFlags samples f).destState.lookup c = some flags) :
  c ∈ f.rules.overrideNets ∨ (c.len = w ∧ ((f.runControl p q samples).own c.net).mode = .portFilter) ∨
   (c ∈ f.rules.protectedNets ∧ (f.net c).mode = .portFilter) := by
 rw [own_runControl]
 rw [lookup_detectFamily] at hlookup
 split_ifs at hlookup with hlen
 · have hhost : .host c.net = c := (Cidr.eq_host_of_len hlen).symm
   have hentry : (f.ownCell c.net).2 = f.destState.lookup c := by rw [ownCell, hhost]
   cases ownStep_moves p f.rules.manualFlags samples c.net (f.ownCell c.net) with
   | rest hcalm _ he =>
    rw [he, hentry] at hlookup
    rcases h.backed c flags hlookup with ho | ⟨-, hown⟩ | hnet
    · exact .inl ho
    · rw [ownCell, hown] at hcalm
      cases hcalm
    · exact .inr (.inr hnet)
   | leave hmode hcalm he =>
    left
    rw [he] at hlookup
    refine mem_overrideNets_of_restore ?_ hlookup
    rw [leavesNoFloor, Bool.and_eq_true] at hfloor
    have hactive : (f.own c.net).mode = .portFilter := hmode
    have hkey : c.net ∈ f.trackers.keys := mem_keys_of_mode (by simp [hactive])
    have hleaves := leaves_of_ownStep hmode hcalm
    simpa [hleaves, hhost] using all_eq_true.mp hfloor.1 c.net hkey
   | enforce hmode _ _ _ | hold _ hmode _ _ _ _ => exact .inr (.inl ⟨hlen, hmode⟩)
 · rcases h.backed c flags hlookup with ho | ⟨hlen', -⟩ | hnet
   · exact .inl ho
   · exact absurd hlen' hlen
   · exact .inr (.inr hnet)

private def EntryBacked (B : Prop) (v : Cell) : Prop := v.2.isSome = true → B ∨ v.1.mode = .portFilter

private theorem EntryBacked.netStep {B : Prop} {v : Cell} (hv : EntryBacked B v) (hB : c ∈ rules.overrideNets → B)
  (hb : borrows rules c = true → leaves q (v.1.prev.add (aggregate samples c)) v.1 = false) :
  EntryBacked B (netStep q rules.manualFlags samples c v) := by
 intro hsome
 cases netStep_moves q rules.manualFlags samples c v with
 | rest hcalm _ he =>
  rw [he] at hsome
  refine .inl ((hv hsome).resolve_right ?_)
  simp [hcalm]
 | leave hmode hcalm he =>
  left
  have hnb : borrows rules c = false := by
   by_contra hborrows
   rw [Bool.not_eq_false] at hborrows
   rw [leaves_of_decision keepsClock_net hmode hcalm] at hb
   cases hb hborrows
  obtain ⟨flags, hflags⟩ := Option.isSome_iff_exists.mp hsome
  rw [he] at hflags
  exact hB (mem_overrideNets_of_restore hnb hflags)
 | enforce hmode _ _ _ => exact .inr hmode
 | hold _ hmode _ _ _ _ => exact .inr hmode

private theorem EntryBacked.netCell_runControl {B : Prop} (hc : c ∈ f.rules.protectedNets)
  (hfloor : f.leavesNoFloor f.rules p q samples = true) (hB : c ∈ f.rules.overrideNets → B)
  (hv : EntryBacked B ((detectFamily p f.rules.manualFlags samples f).netCell c)) :
  EntryBacked B ((f.runControl p q samples).netCell c) := by
 rw [Family.netCell_runControl]
 rw [leavesNoFloor, Bool.and_eq_true] at hfloor
 have hnet := all_eq_true.mp hfloor.2 c hc
 by_cases hb : borrows f.rules c = true
 · simp only [hb, Bool.and_true, Bool.not_eq_true', Bool.or_eq_false_iff, decide_eq_false_iff_not] at hnet
   have hcount : f.rules.protectedNets.count c = 1 := by
    have hpos := count_pos_iff.mpr hc
    omega
   rw [hcount, Function.iterate_one]
   refine hv.netStep hB fun _ => ?_
   have hsame : ((detectFamily p f.rules.manualFlags samples f).netCell c).1 = f.net c := net_detectFamily
   rw [hsame]
   exact hnet.1
 · refine Function.Iterate.rec (EntryBacked B) hv (fun v hv => ?_) _
   exact hv.netStep hB fun hb' => absurd hb' hb

theorem Clean.runControl (h : f.Clean) (hfloor : f.leavesNoFloor f.rules p q samples = true) :
  (f.runControl p q samples).Clean := by
 constructor
 · rw [applied_runControl, rules_runControl, h.applied_eq]
 intro c flags hlookup
 unfold Backed
 rw [rules_runControl]
 by_cases hc : c ∈ f.rules.protectedNets
 · have hB : EntryBacked (c ∈ f.rules.overrideNets ∨
     (c.len = w ∧ ((f.runControl p q samples).own c.net).mode = .portFilter))
     ((Family.detectFamily p f.rules.manualFlags samples f).netCell c) := by
    intro hsome
    obtain ⟨flags', hflags'⟩ := Option.isSome_iff_exists.mp hsome
    rcases h.backed_detectFamily hfloor hflags' with ho | hown | ⟨-, hnet⟩
    · exact .inl (.inl ho)
    · exact .inl (.inr hown)
    · exact .inr ((congrArg DestTracker.mode net_detectFamily).trans hnet)
   have hsome : ((f.runControl p q samples).netCell c).2.isSome = true := by rw [netCell, hlookup]; rfl
   rcases (hB.netCell_runControl hc hfloor .inl) hsome with (ho | hown) | hnet
   · exact .inl ho
   · exact .inr (.inl hown)
   · exact .inr (.inr ⟨hc, hnet⟩)
 · rw [lookup_runControl_of_notMem hc] at hlookup
   rcases h.backed_detectFamily hfloor hlookup with ho | hown | ⟨hnet, -⟩
   · exact .inl ho
   · exact .inr (.inl hown)
   · exact absurd hnet hc

theorem leavesNoFloor_push : (f.push r).leavesNoFloor rules p q samples = f.leavesNoFloor rules p q samples := by
 cases r <;> rfl

theorem Clean.tick (h : f.Clean) (htidy : f.tidy r p q samples = true) : ((f.push r).runControl p q samples).Clean := by
 rw [tidy, Bool.and_eq_true] at htidy
 refine (h.push htidy.1).runControl ?_
 rw [leavesNoFloor_push, rules_push]
 exact htidy.2

instance (f : Family w) (a : BitVec w) : Decidable (f.Justified a) :=
 inferInstanceAs (Decidable (_ ∨ _ ∨ _))

end Family

namespace Daemon

variable (s : Daemon)

def destMode : Dst → Flags
 | .v4 a => s.v4.destMode a
 | .v6 a => s.v6.destMode a

def Justified : Dst → Prop
 | .v4 a => s.v4.Justified a
 | .v6 a => s.v6.Justified a

def passes (l : Tick) : Pass × Pass :=
 (destPass (s.config l) l.nowNs (s.elapsedNs l.nowNs), netPass (s.config l) l.nowNs (s.elapsedNs l.nowNs))

theorem tick_eq_some {s t : Daemon} {l : Tick} (h : s.tick l = some t) :
  s.lastSampleNs < l.nowNs ∧ t.lastSampleNs = l.nowNs ∧ t.cfg = s.config l ∧
   t.v4 = (s.v4.push (l.rules.map (·.v4))).runControl (s.passes l).1 (s.passes l).2 l.samplesV4 ∧
   t.v6 = (s.v6.push (l.rules.map (·.v6))).runControl (s.passes l).1 (s.passes l).2 l.samplesV6 := by
 unfold tick at h
 split_ifs at h with htime
 rw [← Option.some.inj h]
 exact ⟨htime, rfl, rfl, rfl, rfl⟩

def tidy (l : Tick) : Bool :=
 s.v4.tidy (l.rules.map (·.v4)) (s.passes l).1 (s.passes l).2 l.samplesV4 &&
  s.v6.tidy (l.rules.map (·.v6)) (s.passes l).1 (s.passes l).2 l.samplesV6

structure Clean (s : Daemon) : Prop where
 v4 : s.v4.Clean
 v6 : s.v6.Clean

theorem clean_start (cfg : RuntimeConfig) (nets : ProtectedNets) : (start cfg nets).Clean := by
 constructor
 · exact ⟨rfl, fun c flags h => by simp [start] at h⟩
 · exact ⟨rfl, fun c flags h => by simp [start] at h⟩

theorem Clean.tick {s t : Daemon} {l : Tick} (h : s.Clean) (htidy : s.tidy l = true) (ht : s.tick l = some t) :
  t.Clean := by
 obtain ⟨-, -, -, h4, h6⟩ := tick_eq_some ht
 rw [Daemon.tidy, Bool.and_eq_true] at htidy
 constructor
 · rw [h4]
   exact h.v4.tick htidy.1
 · rw [h6]
   exact h.v6.tick htidy.2

/-- In a run of ticks that leave no entry behind, a destination is mitigated only if its tracker, the tracker of one of
its protected networks or one of its overrides accounts for it. -/
theorem no_unjustified_mitigation {cfg : RuntimeConfig} {nets : ProtectedNets} {ls : List Tick} {s : Daemon}
  (hrun : RunIf tick (fun s l => s.tidy l = true) (start cfg nets) ls s) (d : Dst) (hd : s.destMode d ≠ 0#32) :
  s.Justified d := by
 have hclean : s.Clean := hrun.invariant (fun _ _ _ h htidy ht => h.tick htidy ht) (clean_start cfg nets)
 cases d with
 | v4 a => exact hclean.v4.justified hd
 | v6 a => exact hclean.v6.justified hd

def smallLimits : RuntimeConfig where
 detection := ⟨100, 100, 100000, 50, 0⟩
 network := ⟨1000, 1000, 1000000, 50, 0⟩
 escalatePassPps := 50000
 synProxyPps := 0

def attacked : BitVec 32 := 0x0a000005#32

def flood : Samples 32 := AList.singleton attacked { packets := 500, bytes := 500 }

def synFlood : Samples 32 :=
 AList.singleton attacked { packets := 500, bytes := 30000, synPackets := 500, tcpPackets := 500 }

def overrideRules (net : Cidr 32) (flags : Flags) : RuleSet := ⟨{ overrides := [⟨net, flags⟩] }, {}⟩

def noRules : RuleSet := ⟨{}, {}⟩

/-- The attacked destination keeps the flags of an override of its network for good. -/
theorem override_outlived_by_floor :
  ∃ s, Run tick (start smallLimits ⟨[], []⟩)
    [{ nowNs := 1, rules := some (overrideRules (.around attacked 24) SYN_PROXY) },
     { nowNs := 1000000001, samplesV4 := flood },
     { nowNs := 2000000001 },
     { nowNs := 3000000001, rules := some noRules }] s ∧
   s.destMode (.v4 attacked) = SYN_PROXY ∧ ¬ s.Justified (.v4 attacked) :=
 Run.exists_of_exec_imp (P := fun s => s.v4.destMode attacked = SYN_PROXY ∧ ¬ s.v4.Justified attacked)
  (fun _ _ h => h) (by decide +kernel)

/-- An attack on a destination with an override of its own, from the start of the mitigation to its end. -/
theorem no_unjustified_mitigation_own_override :
  ∃ s, RunIf tick (fun s l => s.tidy l = true) (start smallLimits ⟨[], []⟩)
    [{ nowNs := 1, rules := some (overrideRules (.host attacked) SYN_PROXY) },
     { nowNs := 1000000001, samplesV4 := flood },
     { nowNs := 2000000001 }] s ∧
   s.destMode (.v4 attacked) = SYN_PROXY ∧ s.Justified (.v4 attacked) := by
 refine RunIf.exists_and_of_execIf (by decide +kernel) fun s hrun hmode => ?_
 exact no_unjustified_mitigation hrun (.v4 attacked) (by rw [hmode]; decide)

end Daemon

end Lnvps.Firewall
