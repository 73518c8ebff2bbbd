import Lnvps.Firewall.Mitigation

/-! # The end of a mitigation -/

namespace Lnvps.Firewall

open Lpm Steps Family AList DestCounters List

variable {w : Nat}

def Rates.still (r : Rates) : Prop := r.pps = 0 ∧ r.synPps = 0 ∧ r.bps = 0

theorem still_computeRates_add (prev : DestCounters) (elapsedNs : Nat) :
  (computeRates prev (prev.add {}) elapsedNs).still := by
 have hmod : ∀ n : Nat, n % 2 ^ 64 - n = 0 := fun n => by
  have := Nat.mod_le n (2 ^ 64)
  omega
 unfold computeRates
 split
 · exact ⟨rfl, rfl, rfl⟩
 · simp only [Rates.still, add, addU64, perSec, Nat.add_zero, hmod]
   simp

namespace DetectionConfig

def canExit (cfg : DetectionConfig) : Bool :=
 100 ≤ cfg.pps * cfg.exitPct && 100 ≤ cfg.synPps * cfg.exitPct && 100 ≤ cfg.bps * cfg.exitPct

def alert (cfg : DetectionConfig) : Prop := 0 < cfg.pps ∧ 0 < cfg.synPps ∧ 0 < cfg.bps

theorem exit_pos_iff {cfg : DetectionConfig} {threshold : Nat} :
  0 < cfg.exit threshold ↔ 100 ≤ threshold * cfg.exitPct := by
 unfold exit saturatingMul
 omega

end DetectionConfig

section

variable {cfg : DetectionConfig} {rates : Rates}

theorem belowExit_of_still (h : rates.still) : belowExit rates cfg = cfg.canExit := by
 obtain ⟨h1, h2, h3⟩ := h
 rw [Bool.eq_iff_iff]
 simp only [belowExit, DetectionConfig.canExit, h1, h2, h3, Bool.and_eq_true, decide_eq_true_eq,
  DetectionConfig.exit_pos_iff]

theorem exceedsEntry_of_still (h : rates.still) (hcfg : cfg.alert) : exceedsEntry rates cfg = false := by
 obtain ⟨h1, h2, h3⟩ := h
 obtain ⟨g1, g2, g3⟩ := hcfg
 simp only [exceedsEntry, h1, h2, h3, Bool.or_eq_false_iff, decide_eq_false_iff_not]
 omega

end

def TrackerStep (R : Rates → Prop) (cfg : DetectionConfig) (nowNs : Nat) (t t' : DestTracker) : Prop :=
 (t.mode = .normal ∧ t' = t) ∨ ∃ rates, R rates ∧
  t'.mode = (evaluate t.mode rates cfg nowNs t.belowSinceNs).1 ∧
  t'.belowSinceNs = (evaluate t.mode rates cfg nowNs t.belowSinceNs).2.2

def ClockOk (nowNs : Nat) (t : DestTracker) : Prop := ∀ x, t.belowSinceNs = some x → x ≤ nowNs

def Recovering (sinceNs cooldownNs nowNs : Nat) (t : DestTracker) : Prop :=
 t.mode = .normal ∨ ((∃ x ≤ sinceNs, t.belowSinceNs = some x) ∧ nowNs < sinceNs + cooldownNs)

section

variable {R : Rates → Prop} {cfg : DetectionConfig} {nowNs sinceNs : Nat} {t t' : DestTracker}

theorem Recovering.since_le {cooldownNs now : Nat} (h : Recovering sinceNs cooldownNs nowNs t) :
  t.mode = .normal ∨ t.belowSinceNs.getD now ≤ sinceNs := by
 rcases h with h | ⟨⟨x, hx, hsince⟩, -⟩
 · exact .inl h
 · right
   rw [hsince]
   exact hx

theorem ClockOk.steps (hs : TrackerStep R cfg nowNs t t') (h : ClockOk nowNs t) : ClockOk nowNs t' := by
 rcases hs with ⟨-, rfl⟩ | ⟨rates, -, -, hsince⟩
 · exact h
 intro x hx
 rw [hsince] at hx
 rcases @evaluate_cases t.mode rates cfg nowNs t.belowSinceNs with
  ⟨-, -, he⟩ | ⟨-, -, he⟩ | ⟨-, -, -, he⟩ | ⟨-, -, -, he⟩ | ⟨-, -, he⟩
 · rw [he] at hx
   cases hx
 · rw [he] at hx
   exact h x hx
 · rw [he] at hx
   cases hx
 · rw [he] at hx
   rw [← Option.some.inj hx]
   cases hb : t.belowSinceNs with
   | none => exact le_rfl
   | some y => exact h y hb
 · rw [he] at hx
   cases hx

theorem TrackerStep.normal (hs : TrackerStep Rates.still cfg nowNs t t') (hcfg : cfg.alert) (h : t.mode = .normal) :
  t'.mode = .normal := by
 rcases hs with ⟨-, rfl⟩ | ⟨rates, hstill, hmode, -⟩
 · exact h
 · rw [hmode, h]
   simp [evaluate, exceedsEntry_of_still hstill hcfg]

theorem TrackerStep.portFilter (hs : TrackerStep Rates.still cfg nowNs t t') (hcfg : cfg.canExit = false)
  (h : t.mode = .portFilter) : t'.mode = .portFilter := by
 rcases hs with ⟨hcalm, -⟩ | ⟨rates, hstill, hmode, -⟩
 · rw [h] at hcalm
   cases hcalm
 · rw [hmode, h]
   simp [evaluate, belowExit_of_still hstill, hcfg]

theorem TrackerStep.recovering (hs : TrackerStep Rates.still cfg nowNs t t') (hcfg : cfg.alert)
  (hexit : cfg.canExit = true) (h : t.mode = .normal ∨ t.belowSinceNs.getD nowNs ≤ sinceNs) :
  Recovering sinceNs cfg.cooldownNs nowNs t' := by
 by_cases hmode : t.mode = .normal
 · exact .inl (hs.normal hcfg hmode)
 rcases hs with ⟨hcalm, -⟩ | ⟨rates, hstill, hmode', hsince⟩
 · exact absurd hcalm hmode
 have hbelow : belowExit rates cfg = true := (belowExit_of_still hstill).trans hexit
 have hle := h.resolve_left hmode
 rcases @evaluate_cases t.mode rates cfg nowNs t.belowSinceNs with
  ⟨hm, -⟩ | ⟨hm, -⟩ | ⟨-, -, -, he⟩ | ⟨-, -, hcool, he⟩ | ⟨-, hb, -⟩
 · exact absurd hm hmode
 · exact absurd hm hmode
 · left
   rw [hmode', he]
 · right
   refine ⟨⟨_, hle, by rw [hsince, he]⟩, ?_⟩
   omega
 · rw [hb] at hbelow
   cases hbelow

end

namespace Family

variable {f : Family w} {p q : Pass} {samples : Samples w} {r : Option (Rules w)} {a : BitVec w} {c : Cidr w}
 {P Q : DestTracker → Prop}

def silentDest (samples : Samples w) (a : BitVec w) : Bool := (samples.lookup a).getD {} = {}

def silentNet (samples : Samples w) (c : Cidr w) : Bool := samples.entries.all (fun e => !c.covers e.1 || e.2 = {})

theorem aggregate_of_silentNet (h : silentNet samples c = true) : aggregate samples c = {} := by
 unfold aggregate
 unfold silentNet at h
 generalize samples.entries = es at h
 induction es with
 | nil => rfl
 | cons e es ih =>
  rw [all_cons, Bool.and_eq_true] at h
  have hhead : (if c.covers e.1 then .add {} e.2 else {}) = ({} : DestCounters) := by
   by_cases hc : c.covers e.1 = true
   · have he : e.2 = {} := by simpa [hc] using h.1
     rw [he]
     simp [add, addU64]
   · simp [hc]
  rw [foldl_cons, hhead]
  exact ih h.2

theorem still_of_silentDest (h : silentDest samples a = true) (prev : DestCounters) (elapsedNs : Nat) :
  (computeRates prev (if a ∈ samples then sampled samples a prev else prev) elapsedNs).still := by
 split_ifs
 · rw [sampled, of_decide_eq_true h]
   exact still_computeRates_add prev elapsedNs
 · rw [computeRates_self]
   exact ⟨rfl, rfl, rfl⟩

theorem still_of_silentNet (h : silentNet samples c = true) (prev : DestCounters) (elapsedNs : Nat) :
  (computeRates prev (prev.add (aggregate samples c)) elapsedNs).still := by
 rw [aggregate_of_silentNet h]
 exact still_computeRates_add prev elapsedNs

theorem steps_decision (p : Pass) (reset : DestTracker → DestTracker) (hreset : KeepsClock reset) (manual : Flags)
  (cur : DestCounters) (t : DestTracker) {R : Rates → Prop} (hR : R (computeRates t.prev cur p.elapsedNs)) :
  TrackerStep R p.cfg p.nowNs t (decision p reset manual cur t).1 :=
 .inr ⟨_, hR, decision_clock p reset manual cur t hreset⟩

variable {R : Rates → Prop}

theorem steps_own
  (hR : ∀ prev, R (computeRates prev (if a ∈ samples then sampled samples a prev else prev) p.elapsedNs)) :
  TrackerStep R p.cfg p.nowNs (f.own a) (((f.push r).runControl p q samples).own a) := by
 rw [own_runControl, ← own_push f r]
 have hprev := hR ((f.push r).own a).prev
 unfold ownStep
 split_ifs with hsample hmode
 · rw [ite_cond_eq_true _ _ (eq_true hsample)] at hprev
   exact steps_decision p _ keepsClock_dest _ _ _ hprev
 · rw [ite_cond_eq_false _ _ (eq_false hsample)] at hprev
   exact steps_decision p _ keepsClock_dest _ _ _ hprev
 · rw [ne_eq, not_not] at hmode
   exact .inl ⟨hmode, rfl⟩

private theorem steps_netStep {manual : BitVec w → Flags}
  (hR : ∀ prev : DestCounters, R (computeRates prev (prev.add (aggregate samples c)) q.elapsedNs)) (v : Cell) :
  TrackerStep R q.cfg q.nowNs v.1 (netStep q manual samples c v).1 :=
 steps_decision q _ keepsClock_net _ _ _ (hR v.1.prev)

theorem steps_net (hR : ∀ prev : DestCounters, R (computeRates prev (prev.add (aggregate samples c)) q.elapsedNs))
  (hc : c ∈ (f.inForce r).protectedNets) (hstep : ∀ t t', TrackerStep R q.cfg q.nowNs t t' → P t → Q t')
  (hQ : ∀ t, Q t → P t) (h : P (f.net c)) : Q (((f.push r).runControl p q samples).net c) := by
 have hcell : ((f.push r).runControl p q samples).netCell c = _ := netCell_runControl c
 have hfirst : ((detectFamily p (f.push r).rules.manualFlags samples (f.push r)).netCell c).1 = f.net c :=
  net_detectFamily.trans (net_push f r c)
 have hnext : ((f.push r).runControl p q samples).net c = (((f.push r).runControl p q samples).netCell c).1 := rfl
 rw [hnext, hcell]
 refine Sweep.iterate_of_step (P := fun v : Cell => P v.1) (Q := fun v : Cell => Q v.1) (fun v hv => ?_)
  (fun v hv => hQ v.1 hv) ?_ (by rwa [hfirst])
 · exact hstep _ _ (steps_netStep hR v) hv
 · rw [rules_push]
   exact count_pos_iff.mpr hc

theorem clockOk_net (h : ClockOk q.nowNs (f.net c)) : ClockOk q.nowNs (((f.push r).runControl p q samples).net c) := by
 by_cases hc : c ∈ (f.inForce r).protectedNets
 · exact steps_net (R := fun _ => True) (fun _ => trivial) hc (fun t t' => .steps) (fun _ => id) h
 · rw [net_runControl_of_notMem (by rwa [rules_push]), net_push]
   exact h

end Family

inductive Target
 | dest (d : Dst)
 | netV4 (c : Cidr 32)
 | netV6 (c : Cidr 128)

def RuntimeConfig.detector (cfg : RuntimeConfig) : Target → DetectionConfig
 | .dest _ => cfg.detection
 | .netV4 _ => cfg.network
 | .netV6 _ => cfg.network

def Tick.silent (l : Tick) : Target → Bool
 | .dest (.v4 a) => Family.silentDest l.samplesV4 a
 | .dest (.v6 a) => Family.silentDest l.samplesV6 a
 | .netV4 c => Family.silentNet l.samplesV4 c
 | .netV6 c => Family.silentNet l.samplesV6 c

namespace Daemon

variable (s : Daemon)

def tracker : Target → DestTracker
 | .dest (.v4 a) => s.v4.own a
 | .dest (.v6 a) => s.v6.own a
 | .netV4 c => s.v4.net c
 | .netV6 c => s.v6.net c

def watches (l : Tick) : Target → Bool
 | .dest _ => true
 | .netV4 c => c ∈ (s.v4.inForce (l.rules.map (·.v4))).protectedNets
 | .netV6 c => c ∈ (s.v6.inForce (l.rules.map (·.v6))).protectedNets

def quiet (limits : Limits) (τ : Target) (s : Daemon) (l : Tick) : Bool :=
 s.watches l τ && l.silent τ && (s.config l).detector τ = (applyLimits (s.config l) limits).detector τ

variable {s t : Daemon} {l : Tick} {limits : Limits} {τ : Target} {P Q : DestTracker → Prop}

theorem steps_of_quiet (hquiet : quiet limits τ s l = true) (ht : s.tick l = some t)
  (hstep : ∀ u u', TrackerStep Rates.still ((applyLimits s.cfg limits).detector τ) l.nowNs u u' → P u → Q u')
  (hQ : ∀ u, Q u → P u) (h : P (s.tracker τ)) : Q (t.tracker τ) := by
 rw [quiet, Bool.and_eq_true, Bool.and_eq_true, decide_eq_true_eq] at hquiet
 obtain ⟨⟨hwatch, hsilent⟩, hlimits⟩ := hquiet
 obtain ⟨-, -, -, h4, h6⟩ := tick_eq_some ht
 cases τ with
 | dest d =>
  have hcfg : (s.passes l).1.cfg = (applyLimits s.cfg limits).detection := hlimits
  cases d with
  | v4 a =>
   rw [tracker, h4]
   refine hstep _ _ ?_ h
   have hown := steps_own (f := s.v4) (p := (s.passes l).1) (q := (s.passes l).2) (r := l.rules.map (·.v4))
    (fun prev => still_of_silentDest hsilent prev (s.passes l).1.elapsedNs)
   rwa [hcfg] at hown
  | v6 a =>
   rw [tracker, h6]
   refine hstep _ _ ?_ h
   have hown := steps_own (f := s.v6) (p := (s.passes l).1) (q := (s.passes l).2) (r := l.rules.map (·.v6))
    (fun prev => still_of_silentDest hsilent prev (s.passes l).1.elapsedNs)
   rwa [hcfg] at hown
 | netV4 c =>
  have hcfg : (s.passes l).2.cfg = (applyLimits s.cfg limits).network := hlimits
  rw [tracker, h4]
  refine steps_net (fun prev => still_of_silentNet hsilent prev _) (of_decide_eq_true hwatch)
   (fun u u' hu => ?_) hQ h
  rw [hcfg] at hu
  exact hstep u u' hu
 | netV6 c =>
  have hcfg : (s.passes l).2.cfg = (applyLimits s.cfg limits).network := hlimits
  rw [tracker, h6]
  refine steps_net (fun prev => still_of_silentNet hsilent prev _) (of_decide_eq_true hwatch)
   (fun u u' hu => ?_) hQ h
  rw [hcfg] at hu
  exact hstep u u' hu

def Timely : Prop := ∀ τ, ClockOk s.lastSampleNs (s.tracker τ)

theorem Timely.tick (h : s.Timely) (ht : s.tick l = some t) : t.Timely := by
 obtain ⟨htime, hlast, -, h4, h6⟩ := tick_eq_some ht
 intro τ
 have hnow : ClockOk l.nowNs (s.tracker τ) := fun x hx => (h τ x hx).trans htime.le
 rw [hlast]
 cases τ with
 | dest d =>
  cases d with
  | v4 a =>
   rw [tracker, h4]
   exact .steps (steps_own (R := fun _ => True) (fun _ => trivial)) hnow
  | v6 a =>
   rw [tracker, h6]
   exact .steps (steps_own (R := fun _ => True) (fun _ => trivial)) hnow
 | netV4 c =>
  rw [tracker, h4]
  exact clockOk_net hnow
 | netV6 c =>
  rw [tracker, h6]
  exact clockOk_net hnow

theorem timely_start (cfg : RuntimeConfig) (nets : ProtectedNets) : (start cfg nets).Timely := by
 intro τ x hx
 rcases τ with (a | a) | c | c <;> simp [tracker, start, own, net] at hx

def limitsDetector (limits : Limits) (τ : Target) : DetectionConfig :=
 (applyLimits ⟨⟨0, 0, 0, 0, 0⟩, ⟨0, 0, 0, 0, 0⟩, 0, 0⟩ limits).detector τ

theorem applyLimits_detector (cfg : RuntimeConfig) (limits : Limits) (τ : Target) :
  (applyLimits cfg limits).detector τ = limitsDetector limits τ := by
 cases τ <;> rfl

def Calm (τ : Target) (s : Daemon) : Prop := (s.tracker τ).mode = .normal

def Mitigates (τ : Target) (s : Daemon) : Prop := (s.tracker τ).mode = .portFilter

structure Recovers (limits : Limits) (τ : Target) : Prop where
 leaves : ∀ cfg nets ls s, Run tick (start cfg nets) ls s → Mitigates τ s →
  ∀ l ls' t, RunIf tick (fun s l => quiet limits τ s l = true) s (l :: ls') t →
   l.nowNs + (limitsDetector limits τ).cooldownNs ≤ t.lastSampleNs → Calm τ t
 stays : ∀ s ls t, RunIf tick (fun s l => quiet limits τ s l = true) s ls t → Calm τ s → Calm τ t

theorem Calm.of_quiet {ls : List Tick} (h : Calm τ s) (halert : (limitsDetector limits τ).alert)
  (hrun : RunIf tick (fun s l => quiet limits τ s l = true) s ls t) : Calm τ t := by
 refine hrun.invariant (fun s l t h hquiet ht => ?_) h
 refine steps_of_quiet (P := fun u => u.mode = .normal) hquiet ht (fun u u' hu => ?_) (fun _ => id) h
 rw [applyLimits_detector] at hu
 exact hu.normal halert

theorem Mitigates.of_quiet {ls : List Tick} (h : Mitigates τ s) (hexit : (limitsDetector limits τ).canExit = false)
  (hrun : RunIf tick (fun s l => quiet limits τ s l = true) s ls t) : Mitigates τ t := by
 refine hrun.invariant (fun s l t h hquiet ht => ?_) h
 refine steps_of_quiet (P := fun u => u.mode = .portFilter) hquiet ht (fun u u' hu => ?_) (fun _ => id) h
 rw [applyLimits_detector] at hu
 exact hu.portFilter hexit

def CoolsDown (limits : Limits) (τ : Target) (sinceNs : Nat) (s : Daemon) : Prop :=
 Recovering sinceNs (limitsDetector limits τ).cooldownNs s.lastSampleNs (s.tracker τ)

private theorem coolsDown_tick {sinceNs : Nat} (halert : (limitsDetector limits τ).alert)
  (hexit : (limitsDetector limits τ).canExit = true) (hquiet : quiet limits τ s l = true) (ht : s.tick l = some t)
  (h : (s.tracker τ).mode = .normal ∨ (s.tracker τ).belowSinceNs.getD l.nowNs ≤ sinceNs) :
  CoolsDown limits τ sinceNs t := by
 rw [CoolsDown, (tick_eq_some ht).2.1]
 refine steps_of_quiet (P := fun u => u.mode = .normal ∨ u.belowSinceNs.getD l.nowNs ≤ sinceNs) hquiet ht
  (fun u u' hu => ?_) (fun u hu => hu.since_le) h
 rw [applyLimits_detector] at hu
 exact hu.recovering halert hexit

theorem recovers_of_canExit (halert : (limitsDetector limits τ).alert)
  (hexit : (limitsDetector limits τ).canExit = true) : Recovers limits τ := by
 constructor
 · intro cfg nets ls s hreach _ l ls' t hrun hcool
   have htimely : s.Timely := hreach.invariant (fun _ _ _ h _ ht => h.tick ht) (timely_start cfg nets)
   obtain ⟨s', hquiet, hs', hrest⟩ := hrun.head
   have hfirst : CoolsDown limits τ l.nowNs s' := by
    refine coolsDown_tick halert hexit hquiet hs' (.inr ?_)
    cases hb : (s.tracker τ).belowSinceNs with
    | none => exact le_rfl
    | some x => exact (htimely τ x hb).trans (tick_eq_some hs').1.le
   have hlast : CoolsDown limits τ l.nowNs t :=
    hrest.invariant (fun _ _ _ h hquiet ht => coolsDown_tick halert hexit hquiet ht h.since_le) hfirst
   rcases hlast with h | ⟨-, hlt⟩
   · exact h
   · omega
 · intro s ls t hrun h
   exact h.of_quiet halert hrun

def attack (τ : Target) (packets : Nat) : Tick :=
  match τ with
  | .dest (.v4 a) => { nowNs := 1000000001, samplesV4 := AList.singleton a { packets := packets } }
  | .dest (.v6 a) => { nowNs := 1000000001, samplesV6 := AList.singleton a { packets := packets } }
  | .netV4 c => { nowNs := 1000000001, samplesV4 := AList.singleton c.net { packets := packets },
                  rules := some ⟨{ protectedNets := [c] }, {}⟩ }
  | .netV6 c => { nowNs := 1000000001, samplesV6 := AList.singleton c.net { packets := packets },
                  rules := some ⟨{}, { protectedNets := [c] }⟩ }

end Daemon

private theorem evaluate_flood {cfg : DetectionConfig} {packets nowNs : Nat} (hlt : packets < 2 ^ 64)
  (hle : cfg.pps ≤ packets) :
  (evaluate .normal (computeRates {} (add {} { packets := packets }) 1000000000) cfg nowNs none).1 =
   .portFilter := by
 have hpps : (computeRates {} (.add {} { packets := packets }) 1000000000).pps = packets := by
  simpa [computeRates, add, addU64, perSec] using hlt
 have hexceeds : exceedsEntry (computeRates {} (.add {} { packets := packets }) 1000000000) cfg = true := by
  simp [exceedsEntry, hpps, hle]
 simp [evaluate, hexceeds]

namespace Family

variable {f : Family w} {p q : Pass} {packets : Nat} {a : BitVec w} {c : Cidr w} {r : Option (Rules w)}

private theorem lookup_singleton {κ β : Type} [DecidableEq κ] (k : κ) (v : β) :
  (singleton k v : AList (fun _ : κ => β)).lookup k = some v := by
 rw [← insert_empty, lookup_insert]

theorem own_flood (hf : f.own a = {}) (he : p.elapsedNs = 1000000000) (hlt : packets < 2 ^ 64)
  (hle : p.cfg.pps ≤ packets) :
  (((f.push r).runControl p q (singleton a { packets := packets })).own a).mode = .portFilter := by
 have hlookup : (singleton a { packets := packets } : Samples w).lookup a = some { packets := packets } :=
  lookup_singleton a _
 have hmem : a ∈ (singleton a { packets := packets } : Samples w) := by
  rw [← lookup_isSome, hlookup]
  rfl
 rw [own_runControl, ownStep, ite_cond_eq_true _ _ (eq_true hmem)]
 refine (decision_clock p _ _ _ _ keepsClock_dest).1.trans ?_
 have hown : ((f.push r).ownCell a).1 = {} := (own_push f r a).trans hf
 rw [hown, sampled, hlookup, he]
 exact evaluate_flood hlt hle

theorem net_flood (hf : f.net c = {}) (he : q.elapsedNs = 1000000000) (hlt : packets < 2 ^ 64)
  (hle : q.cfg.pps ≤ packets) :
  (((f.push (some { protectedNets := [c] })).runControl p q
   (singleton c.net { packets := packets })).net c).mode = .portFilter := by
 have hcell : ((f.push (some { protectedNets := [c] })).runControl p q
   (singleton c.net { packets := packets })).netCell c = _ := netCell_runControl c
 have hcount : (f.push (some { protectedNets := [c] })).rules.protectedNets.count c = 1 := by
  rw [rules_push]
  exact count_singleton_self
 rw [hcount, Function.iterate_one] at hcell
 have hnet : ∀ (manual : BitVec w → Flags) (samples : Samples w),
   ((detectFamily p manual samples (f.push (some { protectedNets := [c] }))).netCell c).1 = {} :=
  fun manual samples => net_detectFamily.trans ((net_push f _ c).trans hf)
 have hagg : add {} (aggregate (singleton c.net { packets := packets }) c) =
   .add {} { packets := packets } := by
  simp [aggregate, c.covers_net, add, addU64]
 refine (congrArg (fun v : Cell => v.1.mode) hcell).trans ?_
 refine (decision_clock q _ _ _ _ keepsClock_net).1.trans ?_
 rw [hnet, hagg, he]
 exact evaluate_flood hlt hle

end Family

namespace Daemon

variable {limits : Limits} {τ : Target}

def floodOf (limits : Limits) : Target → Nat
 | .dest _ => limits.pps.toNat
 | .netV4 _ => limits.netPps.toNat
 | .netV6 _ => limits.netPps.toNat

structure Besieged (limits : Limits) (τ : Target) (nowNs : Nat) (s : Daemon) : Prop where
 mitigates : Mitigates τ s
 last : s.lastSampleNs = nowNs
 detector : s.cfg.detector τ = limitsDetector limits τ
 watched : ∀ n, s.watches { nowNs := n } τ = true

theorem tick_isSome {s : Daemon} {l : Tick} (h : s.lastSampleNs < l.nowNs) : ∃ t, s.tick l = some t :=
 ⟨_, ite_cond_eq_true _ _ (eq_true h)⟩

theorem exists_besieged (cfg : RuntimeConfig) (limits : Limits) (τ : Target) :
  ∃ s, Run tick (start cfg ⟨[], []⟩) [{ nowNs := 1, limits := some limits }, attack τ (floodOf limits τ)] s ∧
   Besieged limits τ 1000000001 s := by
 obtain ⟨s, hs⟩ : ∃ s, (start cfg ⟨[], []⟩).tick { nowNs := 1, limits := some limits } = some s :=
  tick_isSome (by simp [start])
 obtain ⟨-, hlast, hcfg, h4, h6⟩ := tick_eq_some hs
 have hfresh4 : s.v4 = {} := h4
 have hfresh6 : s.v6 = {} := h6
 have hnow : (attack τ (floodOf limits τ)).nowNs = 1000000001 := by
  rcases τ with (a | a) | c | c <;> rfl
 obtain ⟨t, ht⟩ : ∃ t, s.tick (attack τ (floodOf limits τ)) = some t := tick_isSome (by rw [hlast, hnow]; simp)
 obtain ⟨-, hlast', hcfg', h4', h6'⟩ := tick_eq_some ht
 have helapsed : s.elapsedNs 1000000001 = 1000000000 := by simp [elapsedNs, hlast]
 have hconfig : s.config (attack τ (floodOf limits τ)) = applyLimits cfg limits := by
  rcases τ with (a | a) | c | c <;> exact hcfg
 refine ⟨t, .cons trivial hs (.single trivial ht), ?_, hlast'.trans hnow, ?_, ?_⟩
 · rcases τ with (a | a) | c | c
   · rw [Mitigates, tracker, h4', hfresh4]
     exact own_flood rfl helapsed limits.pps.toNat_lt (by rw [passes, hconfig]; exact le_rfl)
   · rw [Mitigates, tracker, h6', hfresh6]
     exact own_flood rfl helapsed limits.pps.toNat_lt (by rw [passes, hconfig]; exact le_rfl)
   · rw [Mitigates, tracker, h4', hfresh4]
     exact net_flood rfl helapsed limits.netPps.toNat_lt (by rw [passes, hconfig]; exact le_rfl)
   · rw [Mitigates, tracker, h6', hfresh6]
     exact net_flood rfl helapsed limits.netPps.toNat_lt (by rw [passes, hconfig]; exact le_rfl)
 · rw [hcfg', hconfig, applyLimits_detector]
 · intro n
   rcases τ with (a | a) | c | c
   · rfl
   · rfl
   · rw [watches, h4']
     simp [attack, inForce]
   · rw [watches, h6']
     simp [attack, inForce]

theorem Besieged.silent_tick {nowNs n : Nat} {s : Daemon} (h : Besieged limits τ nowNs s) (hn : nowNs < n)
  (hexit : (limitsDetector limits τ).canExit = false) :
  ∃ t, quiet limits τ s { nowNs := n } = true ∧ s.tick { nowNs := n } = some t ∧ Besieged limits τ n t := by
 obtain ⟨t, ht⟩ : ∃ t, s.tick { nowNs := n } = some t := tick_isSome (by rw [h.last]; exact hn)
 obtain ⟨-, hlast, hcfg, h4, h6⟩ := tick_eq_some ht
 have hconfig : s.config { nowNs := n } = s.cfg := rfl
 have hsilent : ({ nowNs := n } : Tick).silent τ = true := by
  rcases τ with (a | a) | c | c <;> rfl
 have hquiet : quiet limits τ s { nowNs := n } = true := by
  rw [quiet, h.watched n, hsilent, hconfig, applyLimits_detector, h.detector]
  simp
 refine ⟨t, hquiet, ht, h.mitigates.of_quiet hexit (.single hquiet ht), hlast, ?_, ?_⟩
 · rw [hcfg, hconfig, h.detector]
 intro m
 have hwatched := h.watched m
 rcases τ with (a | a) | c | c
 · rfl
 · rfl
 · rw [watches, h4]
   simpa [inForce] using of_decide_eq_true hwatched
 · rw [watches, h6]
   simpa [inForce] using of_decide_eq_true hwatched

theorem canExit_of_recovers (h : Recovers limits τ) : (limitsDetector limits τ).canExit = true := by
 by_contra hexit
 rw [Bool.not_eq_true] at hexit
 obtain ⟨s, hrun, hs⟩ := exists_besieged smallLimits limits τ
 obtain ⟨t, hquiet, ht, hbt⟩ := hs.silent_tick (n := 1000000002) (by omega) hexit
 obtain ⟨u, hquiet', hu, hbu⟩ := hbt.silent_tick
  (n := 1000000003 + (limitsDetector limits τ).cooldownNs) (by omega) hexit
 have hcalm := h.leaves smallLimits ⟨[], []⟩ _ s hrun hs.mitigates { nowNs := 1000000002 } _ u
  (.cons hquiet ht (.single hquiet' hu)) (by rw [hbu.last]; simp only; omega)
 have hmode := hbu.mitigates
 rw [Mitigates, hcalm] at hmode
 cases hmode

theorem alert_of_putLimits (h : putLimits limits = .ok limits) (τ : Target) : (limitsDetector limits τ).alert := by
 have hpos : ∀ n : UInt64, 0 ≠ n → 0 < n.toNat := by
  intro n hn
  by_contra hzero
  exact hn (UInt64.toNat_inj.mp (by simp only [UInt64.toNat_zero]; omega))
 unfold putLimits at h
 split_ifs at h with hthresholds
 simp only [contains_eq_mem, mem_cons, not_mem_nil, or_false, decide_eq_true_eq, not_or] at hthresholds
 obtain ⟨h1, h2, h3, h4, h5, h6, -⟩ := hthresholds
 cases τ with
 | dest d => exact ⟨hpos _ h1, hpos _ h2, hpos _ h3⟩
 | netV4 c | netV6 c => exact ⟨hpos _ h4, hpos _ h5, hpos _ h6⟩

def exitsAboveZero (limits : Limits) (τ : Target) : Bool :=
 (match τ with
  | .dest _ => [limits.pps, limits.synPps, limits.bps]
  | .netV4 _ => [limits.netPps, limits.netSynPps, limits.netBps]
  | .netV6 _ => [limits.netPps, limits.netSynPps, limits.netBps]).all
  (fun threshold => 100 ≤ threshold.toNat * limits.exitPct.toNat)

theorem canExit_limitsDetector (limits : Limits) (τ : Target) :
  (limitsDetector limits τ).canExit = exitsAboveZero limits τ := by
 rw [Bool.eq_iff_iff]
 simp only [DetectionConfig.canExit, Bool.and_eq_true, decide_eq_true_eq]
 cases τ <;> simp [exitsAboveZero, limitsDetector, applyLimits, RuntimeConfig.detector, and_assoc]

theorem silence_ends_mitigation_iff (h : putLimits limits = .ok limits) (τ : Target) :
  Recovers limits τ ↔ exitsAboveZero limits τ = true := by
 rw [← canExit_limitsDetector]
 exact ⟨canExit_of_recovers, recovers_of_canExit (alert_of_putLimits h τ)⟩

def limitsWithSyn (synPps : UInt64) : Limits where
 pps := 100000
 synPps := synPps
 bps := 100000000
 netPps := 100000
 netSynPps := 100000
 netBps := 100000000
 exitPct := 50
 cooldownSecs := 60

/-- With a threshold of one SYN packet per second the mitigation of a destination is still there an hour after the last
packet. -/
theorem mitigation_without_end :
  putLimits (limitsWithSyn 1) = .ok (limitsWithSyn 1) ∧
   ∃ s t, Run tick (start smallLimits ⟨[], []⟩)
     [{ nowNs := 1, limits := some (limitsWithSyn 1) }, { nowNs := 1000000001, samplesV4 := synFlood }] s ∧
    Mitigates (.dest (.v4 attacked)) s ∧
    RunIf tick (fun s l => quiet (limitsWithSyn 1) (.dest (.v4 attacked)) s l = true) s
     [{ nowNs := 2000000001 }, { nowNs := 3602000000001 }] t ∧
    Mitigates (.dest (.v4 attacked)) t := by
 obtain ⟨s, hrun, hs, h⟩ := Run.exists_of_exec (f := tick) (s := start smallLimits ⟨[], []⟩)
  (r := [{ nowNs := 1, limits := some (limitsWithSyn 1) }, { nowNs := 1000000001, samplesV4 := synFlood }])
  (P := fun s => (s.v4.own attacked).mode = .portFilter ∧
   (execIf tick (quiet (limitsWithSyn 1) (.dest (.v4 attacked))) s
    [{ nowNs := 2000000001 }, { nowNs := 3602000000001 }]).any
     (fun t => (t.v4.own attacked).mode = .portFilter) = true) (by decide +kernel)
 obtain ⟨t, hsilent, ht⟩ := RunIf.exists_of_execIf h
 exact ⟨rfl, s, t, hrun, hs, hsilent, ht⟩

theorem silence_ends_mitigation_default :
  putLimits (limitsWithSyn 10000) = .ok (limitsWithSyn 10000) ∧
   Recovers (limitsWithSyn 10000) (.dest (.v4 attacked)) :=
 ⟨rfl, (silence_ends_mitigation_iff rfl (.dest (.v4 attacked))).mpr (by decide)⟩

end Daemon

end Lnvps.Firewall
