import Lnvps.Firewall.Detect
import Lnvps.Firewall.Scope
import Lnvps.Lib.Sweep

/-! # The control loop -/

namespace Lnvps.Firewall

open Lpm AList

variable {w : Nat}

def PORT_FILTER : Flags := 1#32
def SYN_PROXY : Flags := 2#32
def SOURCE_BLOCK : Flags := 8#32

def hasAll (g f : Flags) : Bool := g &&& f = f

section

variable {f g h : Flags}

theorem hasAll_iff : hasAll g f = true ↔ ∀ i < 32, f.getLsbD i = true → g.getLsbD i = true := by
 unfold hasAll
 rw [decide_eq_true_eq]
 constructor
 · intro he i _ hf
   rw [← he, BitVec.getLsbD_and, Bool.and_eq_true] at hf
   exact hf.1
 intro hall
 refine BitVec.eq_of_getLsbD_eq fun i hi => ?_
 rw [BitVec.getLsbD_and]
 cases hf : f.getLsbD i with
 | false => simp
 | true => simp [hall i hi hf]

@[simp] theorem hasAll_self : hasAll f f = true := hasAll_iff.mpr fun _ _ hi => hi

@[simp] theorem hasAll_zero : hasAll f 0#32 = true := hasAll_iff.mpr fun _ _ hi => by simp at hi

theorem hasAll_trans (h₁ : hasAll h g = true) (h₂ : hasAll g f = true) : hasAll h f = true := by
 rw [hasAll_iff] at *
 exact fun i hi hf => h₁ i hi (h₂ i hi hf)

@[simp] theorem hasAll_or_iff : hasAll h (f ||| g) = true ↔ hasAll h f = true ∧ hasAll h g = true := by
 simp only [hasAll_iff, BitVec.getLsbD_or, Bool.or_eq_true]
 exact ⟨fun hall => ⟨fun i hi hf => hall i hi (.inl hf), fun i hi hg => hall i hi (.inr hg)⟩,
  fun hboth i hi hfg => hfg.elim (hboth.1 i hi) (hboth.2 i hi)⟩

theorem hasAll_or_left (hg : hasAll g f = true) : hasAll (g ||| h) f = true :=
 hasAll_trans (hasAll_or_iff.mp hasAll_self).1 hg

theorem hasAll_or_right (hg : hasAll g f = true) : hasAll (h ||| g) f = true :=
 hasAll_trans (hasAll_or_iff.mp hasAll_self).2 hg

end

structure Override (w : Nat) where
 net : Cidr w
 flags : Flags

structure Rules (w : Nat) where
 protectedNets : List (Cidr w) := []
 overrides : List (Override w) := []

structure RuleSet where
 v4 : Rules 32
 v6 : Rules 128

namespace Rules

def overrideNets (r : Rules w) : List (Cidr w) := r.overrides.map (·.net)

def manualFlags (r : Rules w) (a : BitVec w) : Flags :=
 (r.overrides.filter (fun o => o.net.covers a)).foldl (fun acc o => acc ||| o.flags) 0#32

private theorem hasAll_foldl (l : List (Override w)) (acc : Flags) :
  hasAll (l.foldl (fun acc o => acc ||| o.flags) acc) acc = true ∧
   ∀ o ∈ l, hasAll (l.foldl (fun acc o => acc ||| o.flags) acc) o.flags = true := by
 induction l generalizing acc with
 | nil => simp
 | cons o l ih =>
  obtain ⟨hacc, hl⟩ := ih (acc ||| o.flags)
  obtain ⟨h₁, h₂⟩ := hasAll_or_iff.mp hacc
  refine ⟨h₁, ?_⟩
  intro o' ho'
  rcases List.mem_cons.mp ho' with rfl | ho'
  · exact h₂
  · exact hl o' ho'

theorem hasAll_manualFlags {r : Rules w} {a : BitVec w} {o : Override w} (ho : o ∈ r.overrides)
  (hc : o.net.covers a = true) : hasAll (r.manualFlags a) o.flags = true :=
 (hasAll_foldl _ _).2 o (List.mem_filter.mpr ⟨ho, hc⟩)

end Rules

structure Limits where
 (pps synPps bps netPps netSynPps netBps exitPct cooldownSecs : UInt64)
 srcRatePps : UInt64 := 10000
 synProxyPps : UInt64 := 5000

def putLimits (l : Limits) : Except String Limits :=
 if [l.pps, l.synPps, l.bps, l.netPps, l.netSynPps, l.netBps, l.srcRatePps].contains 0 then
  .error "all thresholds must be > 0"
 else if l.exitPct = 0 ∨ 100 ≤ l.exitPct then .error "exit_pct must be 1..99"
 else .ok l

structure RuntimeConfig where
 (detection network : DetectionConfig)
 (escalatePassPps synProxyPps : Nat)
 deriving DecidableEq

def applyLimits (rt : RuntimeConfig) (l : Limits) : RuntimeConfig :=
 let cooldownNs := saturatingMul l.cooldownSecs.toNat 1000000000
 { rt with
   detection := ⟨l.pps.toNat, l.synPps.toNat, l.bps.toNat, l.exitPct.toNat, cooldownNs⟩
   network := ⟨l.netPps.toNat, l.netSynPps.toNat, l.netBps.toNat, l.exitPct.toNat, cooldownNs⟩
   synProxyPps := l.synProxyPps.toNat }

def enforcedFlags (rates : Rates) (escalatePassPps synProxyPps : Nat) : Flags :=
 PORT_FILTER ||| (if synProxyPps ≠ 0 ∧ synProxyPps ≤ rates.synPps then SYN_PROXY else 0#32) |||
  (if escalatePassPps ≤ rates.passPps then SOURCE_BLOCK else 0#32)

structure Pass where
 cfg : DetectionConfig
 (escalatePassPps synProxyPps nowNs elapsedNs : Nat)

inductive Write
 | keep
 | put (flags : Flags)
 | drop

namespace Write

def apply (k : Cidr w) (t : Trie w Flags) : Write → Trie w Flags
 | .keep => t
 | .put flags => t.insert k flags
 | .drop => t.erase k

def entry (e : Option Flags) : Write → Option Flags
 | .keep => e
 | .put flags => some flags
 | .drop => none

theorem lookup_apply (wr : Write) (k : Cidr w) (t : Trie w Flags) (k' : Cidr w) :
  (wr.apply k t).lookup k' = if k' = k then wr.entry (t.lookup k) else t.lookup k' := by
 by_cases hk : k' = k
 · subst hk
   cases wr <;> simp [apply, entry]
 cases wr with
 | keep => simp [apply, hk]
 | put flags => simp [apply, hk, lookup_insert_ne hk]
 | drop => simp [apply, hk, lookup_erase_ne hk]

end Write

def restore (manual : Flags) : Write := if manual ≠ 0#32 then .put manual else .drop

variable (p : Pass)

def enact (reset : DestTracker → DestTracker) (manual : Flags) (next : DestTracker) (transition : Transition)
  (rates : Rates) : DestTracker × Write :=
 match next.mode with
 | .normal => if transition = .exited then ({ reset next with flags := 0#32 }, restore manual) else (next, .keep)
 | .portFilter =>
  let target := enforcedFlags rates p.escalatePassPps p.synProxyPps ||| manual
  if transition = .entered then ({ next with flags := target }, .put target)
  else if target ≠ next.flags then ({ next with flags := target }, .put target)
  else if manual ≠ 0#32 then (next, .put target)
  else (next, .keep)

def decision (reset : DestTracker → DestTracker) (manual : Flags) (cur : DestCounters)
  (tracker : DestTracker) : DestTracker × Write :=
 let r := processSample cur tracker p.cfg p.nowNs p.elapsedNs
 enact p reset manual r.1 r.2.1 r.2.2

def applyDestDecision (manual : Flags) (cur : DestCounters) (tracker : DestTracker) : DestTracker × Write :=
 decision p (fun t => { t with peak := {} }) manual cur tracker

def applyNetDecision (manual : Flags) (cur : DestCounters) (tracker : DestTracker) : DestTracker × Write :=
 decision p id manual cur tracker

abbrev Samples (w : Nat) := AList (fun _ : BitVec w => DestCounters)

structure Family (w : Nat) where
 destState : Trie w Flags := ∅
 trackers : AList (fun _ : BitVec w => DestTracker) := ∅
 netTrackers : AList (fun _ : Cidr w => DestTracker) := ∅
 rules : Rules w := {}
 applied : List (Cidr w) := []

namespace Family

variable (f : Family w)

def own (a : BitVec w) : DestTracker := (f.trackers.lookup a).getD {}

def net (c : Cidr w) : DestTracker := (f.netTrackers.lookup c).getD {}

def destMode (a : BitVec w) : Flags := (f.destState.longest a).getD 0#32

def detectDest (p : Pass) (manual : BitVec w → Flags) (cur : BitVec w → DestCounters → DestCounters)
  (f : Family w) (a : BitVec w) : Family w :=
 let tracker := f.own a
 let d := applyDestDecision p (manual a) (cur a tracker.prev) tracker
 { f with trackers := f.trackers.insert a d.1, destState := d.2.apply (.host a) f.destState }

variable (samples : Samples w)

def sampled (a : BitVec w) (prev : DestCounters) : DestCounters :=
 prev.add ((samples.lookup a).getD {})

def silent (f : Family w) : List (BitVec w) :=
 f.trackers.keys.filter (fun a => a ∉ samples ∧ (f.own a).mode ≠ .normal)

def detectFamily (p : Pass) (manual : BitVec w → Flags) (samples : Samples w) (f : Family w) : Family w :=
 let f := samples.keys.foldl (detectDest p manual (sampled samples)) f
 (silent samples f).foldl (detectDest p manual (fun _ prev => prev)) f

def aggregate (c : Cidr w) : DestCounters :=
 samples.entries.foldl (fun acc e => if c.covers e.1 then acc.add e.2 else acc) {}

def detectPrefix (p : Pass) (manual : BitVec w → Flags) (samples : Samples w) (f : Family w) (c : Cidr w) :
  Family w :=
 let tracker := f.net c
 let d := applyNetDecision p (manual c.net) (tracker.prev.add (aggregate samples c)) tracker
 { f with netTrackers := f.netTrackers.insert c d.1, destState := d.2.apply c f.destState }

def runControl (p q : Pass) (samples : Samples w) (f : Family w) : Family w :=
 let manual := f.rules.manualFlags
 f.rules.protectedNets.foldl (detectPrefix q manual samples) (detectFamily p manual samples f)

def applyRules (rules : Rules w) : Family w :=
 let gone := f.applied.filter (fun c => c ∉ rules.overrideNets)
 { f with
   rules := rules
   destState := (f.destState.eraseAll gone).writeAll (rules.overrides.map (fun o => (o.net, o.flags)))
   applied := rules.overrideNets }

def push (rules : Option (Rules w)) : Family w := rules.elim f (fun r => f.applyRules r)

end Family

structure Daemon where
 cfg : RuntimeConfig
 v4 : Family 32 := {}
 v6 : Family 128 := {}
 scope : Scope := .start
 lastSampleNs : Nat := 0

structure Tick where
 nowNs : Nat
 rules : Option RuleSet := none
 limits : Option Limits := none
 samplesV4 : Samples 32 := ∅
 samplesV6 : Samples 128 := ∅

namespace Daemon

variable (cfg : RuntimeConfig)

def start (nets : ProtectedNets) : Daemon where
 cfg := cfg
 v4 := { rules := { protectedNets := nets.v4 } }
 v6 := { rules := { protectedNets := nets.v6 } }
 scope := Scope.start.syncProtected nets

def destPass (nowNs elapsedNs : Nat) : Pass :=
 ⟨cfg.detection, cfg.escalatePassPps, cfg.synProxyPps, nowNs, elapsedNs⟩

def netPass (nowNs elapsedNs : Nat) : Pass :=
 ⟨cfg.network, cfg.escalatePassPps, cfg.synProxyPps, nowNs, elapsedNs⟩

variable (s : Daemon)

def elapsedNs (nowNs : Nat) : Nat := if s.lastSampleNs = 0 then 0 else nowNs - s.lastSampleNs

def config (l : Tick) : RuntimeConfig := l.limits.elim s.cfg (applyLimits s.cfg)

def tick (l : Tick) : Option Daemon :=
 if s.lastSampleNs < l.nowNs then
  let p := destPass (s.config l) l.nowNs (s.elapsedNs l.nowNs)
  let q := netPass (s.config l) l.nowNs (s.elapsedNs l.nowNs)
  some
   { cfg := s.config l
     v4 := (s.v4.push (l.rules.map (·.v4))).runControl p q l.samplesV4
     v6 := (s.v6.push (l.rules.map (·.v6))).runControl p q l.samplesV6
     scope := l.rules.elim s.scope (fun r => s.scope.syncProtected ⟨r.v4.protectedNets, r.v6.protectedNets⟩)
     lastSampleNs := l.nowNs }
 else none

end Daemon

abbrev Cell := DestTracker × Option Flags

inductive Moves (manual : Flags) (v v' : Cell) : Prop
 | rest (h : v.1.mode = .normal) (h' : v'.1.mode = .normal) (he : v'.2 = v.2)
 | leave (h : v.1.mode = .portFilter) (h' : v'.1.mode = .normal) (he : v'.2 = (restore manual).entry v.2)
 | enforce (h' : v'.1.mode = .portFilter) (hbase : hasAll v'.1.flags PORT_FILTER = true)
   (hmanual : hasAll v'.1.flags manual = true) (he : v'.2 = some v'.1.flags)
 | hold (h : v.1.mode = .portFilter) (h' : v'.1.mode = .portFilter) (hflags : v'.1.flags = v.1.flags)
   (hbase : hasAll v'.1.flags PORT_FILTER = true) (hnone : manual = 0#32) (he : v'.2 = v.2)

def Cell.decide (v : Cell) (d : DestTracker → DestTracker × Write) : Cell := ((d v.1).1, (d v.1).2.entry v.2)

section

variable {p : Pass} {reset : DestTracker → DestTracker} {manual : Flags} {cur : DestCounters} {t : DestTracker}

theorem hasAll_enforcedFlags (rates : Rates) (m n : Nat) : hasAll (enforcedFlags rates m n) PORT_FILTER = true :=
 hasAll_or_left (hasAll_or_left hasAll_self)

def leaves (p : Pass) (cur : DestCounters) (t : DestTracker) : Bool :=
 t.mode = .portFilter && belowExit (computeRates t.prev cur p.elapsedNs) p.cfg &&
  p.cfg.cooldownNs ≤ p.nowNs - t.belowSinceNs.getD p.nowNs

def KeepsClock (reset : DestTracker → DestTracker) : Prop :=
 ∀ t, (reset t).mode = t.mode ∧ (reset t).belowSinceNs = t.belowSinceNs

theorem enact_mode (hreset : KeepsClock reset) (next : DestTracker) (transition : Transition) (rates : Rates) :
  (enact p reset manual next transition rates).1.mode = next.mode := by
 unfold enact
 cases hm : next.mode with
 | normal =>
  by_cases ht : transition = .exited
  · simp [ht, (hreset next).1, hm]
  · simp [ht, hm]
 | portFilter =>
  simp only
  split_ifs <;> simp [hm]

theorem enact_belowSinceNs (hreset : KeepsClock reset) (next : DestTracker) (transition : Transition)
  (rates : Rates) : (enact p reset manual next transition rates).1.belowSinceNs = next.belowSinceNs := by
 unfold enact
 cases hm : next.mode with
 | normal =>
  by_cases ht : transition = .exited
  · simp [ht, (hreset next).2]
  · simp [ht]
 | portFilter =>
  simp only
  split_ifs <;> rfl

theorem enact_of_normal {next : DestTracker} {transition : Transition} {rates : Rates} (hm : next.mode = .normal) :
  (enact p reset manual next transition rates).2 = if transition = .exited then restore manual else .keep := by
 unfold enact
 rw [hm]
 simp only
 split_ifs <;> rfl

theorem enact_of_portFilter {next : DestTracker} {transition : Transition} {rates : Rates}
  (hm : next.mode = .portFilter) :
  hasAll (enact p reset manual next transition rates).1.flags PORT_FILTER = true ∧
   hasAll (enact p reset manual next transition rates).1.flags manual = true ∧
   ((enact p reset manual next transition rates).2 =
     .put (enact p reset manual next transition rates).1.flags ∨
    (transition ≠ .entered ∧ manual = 0#32 ∧
     (enact p reset manual next transition rates).1.flags = next.flags ∧
     (enact p reset manual next transition rates).2 = .keep)) := by
 have hbase : hasAll (enforcedFlags rates p.escalatePassPps p.synProxyPps ||| manual) PORT_FILTER = true :=
  hasAll_or_left (hasAll_enforcedFlags rates _ _)
 have hmanual : hasAll (enforcedFlags rates p.escalatePassPps p.synProxyPps ||| manual) manual = true :=
  hasAll_or_right hasAll_self
 unfold enact
 rw [hm]
 simp only
 split_ifs with hentered htarget hnone
 · exact ⟨hbase, hmanual, .inl rfl⟩
 · exact ⟨hbase, hmanual, .inl rfl⟩
 · rw [ne_eq, not_not] at htarget
   rw [← htarget]
   exact ⟨hbase, hmanual, .inl rfl⟩
 · rw [ne_eq, not_not] at htarget hnone
   rw [← htarget]
   exact ⟨hbase, hmanual, .inr ⟨hentered, hnone, rfl, rfl⟩⟩

variable (p reset manual cur t) in
theorem decision_clock (hreset : KeepsClock reset) :
  (decision p reset manual cur t).1.mode =
    (evaluate t.mode (computeRates t.prev cur p.elapsedNs) p.cfg p.nowNs t.belowSinceNs).1 ∧
   (decision p reset manual cur t).1.belowSinceNs =
    (evaluate t.mode (computeRates t.prev cur p.elapsedNs) p.cfg p.nowNs t.belowSinceNs).2.2 :=
 ⟨enact_mode hreset _ _ _, enact_belowSinceNs hreset _ _ _⟩

variable (p reset manual cur t) in
theorem decision_moves (hreset : KeepsClock reset) (e : Option Flags) :
  Moves manual (t, e) ((decision p reset manual cur t).1, (decision p reset manual cur t).2.entry e) := by
 have hclock := (decision_clock p reset manual cur t hreset).1
 have hstep := @evaluate_cases t.mode (computeRates t.prev cur p.elapsedNs) p.cfg p.nowNs t.belowSinceNs
 generalize hr : evaluate t.mode (computeRates t.prev cur p.elapsedNs) p.cfg p.nowNs t.belowSinceNs = r at hclock hstep
 have hactive : r.1 = .portFilter → (r.2.1 = .entered ∨ t.mode = .portFilter) →
   Moves manual (t, e) ((decision p reset manual cur t).1, (decision p reset manual cur t).2.entry e) := by
  intro hmode hbefore
  have hnext : (processSample cur t p.cfg p.nowNs p.elapsedNs).1.mode = .portFilter := by simpa [processSample, hr]
  obtain ⟨hbase, hmanual, hwrite | ⟨hentered, hnone, hsame, hwrite⟩⟩ :
    hasAll (decision p reset manual cur t).1.flags PORT_FILTER = true ∧
     hasAll (decision p reset manual cur t).1.flags manual = true ∧
     ((decision p reset manual cur t).2 = .put (decision p reset manual cur t).1.flags ∨
      (r.2.1 ≠ .entered ∧ manual = 0#32 ∧ (decision p reset manual cur t).1.flags = t.flags ∧
       (decision p reset manual cur t).2 = .keep)) := by
   simpa [decision, processSample, hr] using enact_of_portFilter hnext
  · exact .enforce (hclock.trans hmode) hbase hmanual (by rw [hwrite]; rfl)
  · exact .hold (hbefore.resolve_left hentered) (hclock.trans hmode) hsame hbase hnone (by rw [hwrite]; rfl)
 have hcalm : r.1 = .normal →
   (decision p reset manual cur t).2 = if r.2.1 = .exited then restore manual else .keep := by
  intro hmode
  have hnext : (processSample cur t p.cfg p.nowNs p.elapsedNs).1.mode = .normal := by simpa [processSample, hr]
  simpa [decision, processSample, hr] using enact_of_normal hnext
 rcases hstep with ⟨-, -, rfl⟩ | ⟨hmode, -, rfl⟩ | ⟨hmode, -, -, rfl⟩ | ⟨hmode, -, -, rfl⟩ | ⟨hmode, -, rfl⟩
 · exact hactive rfl (.inl rfl)
 · exact .rest hmode hclock (by rw [hcalm rfl]; rfl)
 · exact .leave hmode hclock (by rw [hcalm rfl]; rfl)
 · exact hactive rfl (.inr hmode)
 · exact hactive rfl (.inr hmode)

theorem leaves_of_decision (hreset : KeepsClock reset) (ht : t.mode = .portFilter)
  (hd : (decision p reset manual cur t).1.mode = .normal) : leaves p cur t = true := by
 rw [(decision_clock p reset manual cur t hreset).1] at hd
 rcases @evaluate_cases t.mode (computeRates t.prev cur p.elapsedNs) p.cfg p.nowNs t.belowSinceNs with
  ⟨hm, -⟩ | ⟨hm, -⟩ | ⟨-, hbelow, hcool, -⟩ | ⟨-, -, -, he⟩ | ⟨-, -, he⟩
 · rw [hm] at ht
   cases ht
 · rw [hm] at ht
   cases ht
 · simp [leaves, ht, hbelow, hcool]
 · rw [he] at hd
   cases hd
 · rw [he] at hd
   cases hd

end

theorem keepsClock_dest : KeepsClock (fun t => { t with peak := {} }) := fun _ => ⟨rfl, rfl⟩

theorem keepsClock_net : KeepsClock id := fun _ => ⟨rfl, rfl⟩

namespace Family

variable {f : Family w} {p q : Pass} {manual : BitVec w → Flags} {samples : Samples w} {a : BitVec w} {c : Cidr w}

def ownCell (f : Family w) (a : BitVec w) : Cell := (f.own a, f.destState.lookup (.host a))

def netCell (f : Family w) (c : Cidr w) : Cell := (f.net c, f.destState.lookup c)

variable (p manual) in
theorem pointwise_detectDest (cur : BitVec w → DestCounters → DestCounters) :
  Sweep.Pointwise ownCell (detectDest p manual cur)
   (fun a v => v.decide (fun t => applyDestDecision p (manual a) (cur a t.prev) t)) := by
 intro f a b
 simp only [ownCell, detectDest, own, Cell.decide, Write.lookup_apply]
 by_cases hb : b = a
 · subst hb
   simp
 · have hhost : Cidr.host b ≠ .host a := fun h => hb (Cidr.host_injective h)
   simp [hb, hhost, lookup_insert_ne hb]

variable (q manual samples) in
theorem pointwise_detectPrefix :
  Sweep.Pointwise netCell (detectPrefix q manual samples)
   (fun c v => v.decide (fun t => applyNetDecision q (manual c.net) (t.prev.add (aggregate samples c)) t)) := by
 intro f c d
 simp only [netCell, detectPrefix, net, Cell.decide, Write.lookup_apply]
 by_cases hd : d = c
 · subst hd
   simp
 · simp [hd, lookup_insert_ne hd]

def ownStep (p : Pass) (manual : BitVec w → Flags) (samples : Samples w) (a : BitVec w) (v : Cell) : Cell :=
 if a ∈ samples then v.decide (fun t => applyDestDecision p (manual a) (sampled samples a t.prev) t)
 else if v.1.mode ≠ .normal then v.decide (fun t => applyDestDecision p (manual a) t.prev t)
 else v

theorem mem_keys_of_mode (h : (f.own a).mode ≠ .normal) : a ∈ f.trackers.keys := by
 rw [← mem_keys, ← lookup_isSome]
 by_contra hnone
 rw [Option.not_isSome_iff_eq_none] at hnone
 simp [own, hnone] at h

theorem mem_silent : a ∈ silent samples f ↔ a ∉ samples ∧ (f.own a).mode ≠ .normal := by
 rw [silent, List.mem_filter, decide_eq_true_eq, and_iff_right_iff_imp]
 exact fun h => mem_keys_of_mode h.2

theorem ownCell_detectFamily (a : BitVec w) :
  (detectFamily p manual samples f).ownCell a = ownStep p manual samples a (f.ownCell a) := by
 have hfirst := (pointwise_detectDest p manual (sampled samples)).foldl_of_nodup samples.keys_nodup f a
 unfold detectFamily
 generalize samples.keys.foldl (detectDest p manual (sampled samples)) f = g at hfirst
 have hnodup : (silent samples g).Nodup := g.trackers.keys_nodup.filter _
 have hmode : (g.ownCell a).1 = g.own a := rfl
 rw [(pointwise_detectDest p manual (fun _ prev => prev)).foldl_of_nodup hnodup g a]
 by_cases ha : a ∈ samples
 · rw [ite_cond_eq_true _ _ (eq_true (mem_keys.mp ha))] at hfirst
   simp [ownStep, mem_silent, ha, hfirst]
 · rw [ite_cond_eq_false _ _ (eq_false (fun h => ha (mem_keys.mpr h)))] at hfirst
   simp [ownStep, mem_silent, ha, ← hmode, hfirst]

private theorem detectFamily_eq {α : Type} {g : Family w → α}
  (h : ∀ cur f a, g (detectDest p manual cur f a) = g f) : g (detectFamily p manual samples f) = g f :=
 (Sweep.foldl_eq (fun f a _ => h _ f a) _).trans (Sweep.foldl_eq (fun f a _ => h _ f a) f)

theorem net_detectFamily : (detectFamily p manual samples f).net c = f.net c := by
 have h : (detectFamily p manual samples f).netTrackers = f.netTrackers := detectFamily_eq fun _ _ _ => rfl
 rw [net, h, net]

theorem lookup_detectFamily (c : Cidr w) :
  (detectFamily p manual samples f).destState.lookup c =
   if c.len = w then (ownStep p manual samples c.net (f.ownCell c.net)).2 else f.destState.lookup c := by
 by_cases hc : c.len = w
 · rw [ite_cond_eq_true _ _ (eq_true hc), ← ownCell_detectFamily]
   conv_lhs => rw [Cidr.eq_host_of_len hc]
   rfl
 rw [ite_cond_eq_false _ _ (eq_false hc)]
 refine detectFamily_eq (g := fun f => f.destState.lookup c) fun cur f a => ?_
 have hne : c ≠ .host a := fun h => hc (by rw [h, Cidr.host_len])
 simp [detectDest, Write.lookup_apply, hne]

def netStep (q : Pass) (manual : BitVec w → Flags) (samples : Samples w) (c : Cidr w) (v : Cell) : Cell :=
 v.decide (fun t => applyNetDecision q (manual c.net) (t.prev.add (aggregate samples c)) t)

theorem netCell_runControl (c : Cidr w) :
  (f.runControl p q samples).netCell c =
   (netStep q f.rules.manualFlags samples c)^[f.rules.protectedNets.count c]
    ((detectFamily p f.rules.manualFlags samples f).netCell c) :=
 (pointwise_detectPrefix q f.rules.manualFlags samples).foldl _ _ c

private theorem runControl_eq {α : Type} {g : Family w → α}
  (h : ∀ f', ∀ c ∈ f.rules.protectedNets, g (detectPrefix q f.rules.manualFlags samples f' c) = g f') :
  g (f.runControl p q samples) = g (detectFamily p f.rules.manualFlags samples f) :=
 Sweep.foldl_eq h _

theorem net_runControl_of_notMem (hc : c ∉ f.rules.protectedNets) : (f.runControl p q samples).net c = f.net c := by
 have hcell : (f.runControl p q samples).netCell c = _ := netCell_runControl c
 rw [List.count_eq_zero_of_not_mem hc] at hcell
 exact (congrArg Prod.fst hcell).trans net_detectFamily

theorem own_runControl (a : BitVec w) :
  (f.runControl p q samples).own a = (ownStep p f.rules.manualFlags samples a (f.ownCell a)).1 := by
 have h : (f.runControl p q samples).trackers = (detectFamily p f.rules.manualFlags samples f).trackers :=
  runControl_eq fun _ _ _ => rfl
 rw [← ownCell_detectFamily, own, h]
 rfl

@[simp] theorem rules_runControl : (f.runControl p q samples).rules = f.rules := by
 have h : (f.runControl p q samples).rules = (detectFamily p f.rules.manualFlags samples f).rules :=
  runControl_eq fun _ _ _ => rfl
 rw [h]
 exact detectFamily_eq fun _ _ _ => rfl

@[simp] theorem applied_runControl : (f.runControl p q samples).applied = f.applied := by
 have h : (f.runControl p q samples).applied = (detectFamily p f.rules.manualFlags samples f).applied :=
  runControl_eq fun _ _ _ => rfl
 rw [h]
 exact detectFamily_eq fun _ _ _ => rfl

theorem lookup_runControl_of_notMem (hc : c ∉ f.rules.protectedNets) :
  (f.runControl p q samples).destState.lookup c =
   (detectFamily p f.rules.manualFlags samples f).destState.lookup c := by
 refine runControl_eq (g := fun f => f.destState.lookup c) fun f' d hd => ?_
 have hne : c ≠ d := fun h => hc (h ▸ hd)
 simp [detectPrefix, Write.lookup_apply, hne]

variable (p manual samples a) in
theorem ownStep_moves (v : Cell) : Moves (manual a) v (ownStep p manual samples a v) := by
 unfold ownStep
 split_ifs with hsample hmode
 · exact decision_moves p _ (manual a) (sampled samples a v.1.prev) v.1 keepsClock_dest v.2
 · exact decision_moves p _ (manual a) v.1.prev v.1 keepsClock_dest v.2
 · rw [ne_eq, not_not] at hmode
   exact .rest hmode hmode rfl

variable (q manual samples c) in
theorem netStep_moves (v : Cell) : Moves (manual c.net) v (netStep q manual samples c v) :=
 decision_moves q _ (manual c.net) (v.1.prev.add (aggregate samples c)) v.1 keepsClock_net v.2

end Family

end Lnvps.Firewall
