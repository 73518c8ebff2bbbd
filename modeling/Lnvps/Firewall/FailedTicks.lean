import Lnvps.Firewall.Control

/-! # Ticks that fail -/

namespace Lnvps.Firewall

open Family List

variable {w : Nat}

inductive ReadOutcome (w : Nat)
 | read
 | aborted
 | failed (drained : List (BitVec w))

inductive WatchStep (w : Nat)
 | packets (a : BitVec w) (c : DestCounters)
 | tick (nowNs : Nat) (cfg : RuntimeConfig) (outcome : ReadOutcome w)

structure Watched (w : Nat) where
 family : Family w := {}
 kernel : Samples w := ∅
 lastSampleNs : Nat := 0

namespace Watched

variable (s : Watched w)

def elapsedNs (nowNs : Nat) : Nat := if s.lastSampleNs = 0 then 0 else nowNs - s.lastSampleNs

def tick (nowNs : Nat) (cfg : RuntimeConfig) : ReadOutcome w → Watched w
 | .read =>
  { family := s.family.runControl (Daemon.destPass cfg nowNs (s.elapsedNs nowNs))
     (Daemon.netPass cfg nowNs (s.elapsedNs nowNs)) s.kernel
    lastSampleNs := nowNs }
 | .aborted => { s with lastSampleNs := nowNs }
 | .failed drained => { s with lastSampleNs := nowNs, kernel := drained.foldl (fun m a => m.erase a) s.kernel }

def step : WatchStep w → Watched w
 | .packets a c => { s with kernel := s.kernel.insert a (((s.kernel.lookup a).getD {}).add c) }
 | .tick nowNs cfg outcome => s.tick nowNs cfg outcome

def run (f : Family w) (steps : List (WatchStep w)) : Watched w := steps.foldl step { family := f }

def counted (a : BitVec w) (steps : List (WatchStep w)) : DestCounters :=
 steps.foldl (fun acc l => match l with
  | .packets b c => if b = a then acc.add c else acc
  | .tick .. => acc) {}

def onlyPackets (window : List (WatchStep w)) : Bool := window.all fun
 | .packets .. => true
 | .tick .. => false

def sampled (a : BitVec w) : Bool := a ∈ s.kernel || (s.family.own a).mode ≠ .normal

variable {s : Watched w} {a : BitVec w} {window : List (WatchStep w)} {nowNs : Nat} {cfg : RuntimeConfig}

theorem window_packets (h : onlyPackets window = true) :
  (window.foldl step s).family = s.family ∧ (window.foldl step s).lastSampleNs = s.lastSampleNs ∧
   ((window.foldl step s).kernel.lookup a).getD {} = window.foldl (fun acc l => match l with
    | .packets b c => if b = a then acc.add c else acc
    | .tick .. => acc) ((s.kernel.lookup a).getD {}) := by
 induction window generalizing s with
 | nil => exact ⟨rfl, rfl, rfl⟩
 | cons l window ih =>
  cases l with
  | tick => simp [onlyPackets] at h
  | packets b c =>
   obtain ⟨hfamily, hlast, hkernel⟩ := @ih (s.step (.packets b c)) (by simpa [onlyPackets] using h)
   refine ⟨hfamily, hlast, hkernel.trans ?_⟩
   by_cases hb : b = a
   · subst hb
     simp [step]
   · simp [step, hb, AList.lookup_insert_ne (.symm hb)]

theorem enact_last {p : Pass} {reset : DestTracker → DestTracker} (hreset : ∀ t, (reset t).last = t.last)
  (manual : Flags) (next : DestTracker) (transition : Transition) (rates : Rates) :
  (enact p reset manual next transition rates).1.last = next.last := by
 unfold enact
 cases next.mode with
 | normal =>
  by_cases ht : transition = .exited
  · simp [ht, hreset]
  · simp [ht]
 | portFilter =>
  simp only
  split_ifs <;> rfl

theorem last_applyDestDecision (p : Pass) (manual : Flags) (cur : DestCounters) (t : DestTracker) :
  (applyDestDecision p manual cur t).1.last = computeRates t.prev cur p.elapsedNs :=
 @enact_last p (fun t => { t with peak := {} }) (fun _ => rfl) _ _ _ _

def fits (delta prev : DestCounters) (e : Nat) : Bool :=
 [DestCounters.packets, DestCounters.synPackets, DestCounters.bytes].all fun field =>
  field prev + field delta < 2 ^ 64 ∧ field delta * 1000000000 / e < 2 ^ 64

def Exact (r : Rates) (delta : DestCounters) (e : Nat) : Prop :=
 r.pps = delta.packets * 1000000000 / e ∧ r.synPps = delta.synPackets * 1000000000 / e ∧
  r.bps = delta.bytes * 1000000000 / e

theorem computeRates_exact {delta prev : DestCounters} {e : Nat} (h : fits delta prev e = true) :
  Exact (computeRates prev (prev.add delta) e) delta e := by
 have hfield (x y : Nat) (h : x + y < 2 ^ 64 ∧ y * 1000000000 / e < 2 ^ 64) :
   perSec (addU64 x y - x) e = y * 1000000000 / e := by
  rw [addU64, Nat.mod_eq_of_lt h.1, Nat.add_sub_cancel_left, perSec, Nat.mod_eq_of_lt h.2]
 unfold computeRates
 split_ifs with he
 · simp [Exact, he]
 · simp only [fits, all_cons, all_nil, Bool.and_true, Bool.and_eq_true, decide_eq_true_eq] at h
   exact ⟨hfield _ _ h.1, hfield _ _ h.2.1, hfield _ _ h.2.2⟩

theorem last_of_read (hsampled : s.sampled a = true)
  (hfits : fits ((s.kernel.lookup a).getD {}) (s.family.own a).prev (s.elapsedNs nowNs) = true) :
  Exact ((s.tick nowNs cfg .read).family.own a).last ((s.kernel.lookup a).getD {}) (s.elapsedNs nowNs) := by
 simp only [tick, own_runControl, ownStep]
 by_cases ha : a ∈ s.kernel
 · rw [if_pos ha, Cell.decide, last_applyDestDecision]
   exact computeRates_exact hfits
 · have hmode : (s.family.ownCell a).1.mode ≠ .normal := by simpa [sampled, ha, ownCell] using hsampled
   rw [if_neg ha, if_pos hmode, Cell.decide, last_applyDestDecision, AList.lookup_eq_none.mpr ha]
   simp [Exact]

end Watched

open Watched

theorem rates_exact_of_read (f : Family w) (before window : List (WatchStep w)) (lastNs nowNs : Nat)
  (cfg cfg' : RuntimeConfig) (a : BitVec w) (hlast : 0 < lastNs) (hwindow : onlyPackets window = true)
  (hsampled : (run f (before ++ .tick lastNs cfg .read :: window)).sampled a = true)
  (hfits : fits (counted a window) ((run f (before ++ .tick lastNs cfg .read :: window)).family.own a).prev
   (nowNs - lastNs) = true) :
  Exact (((run f (before ++ .tick lastNs cfg .read :: window)).tick nowNs cfg' .read).family.own a).last
   (counted a window) (nowNs - lastNs) := by
 generalize hs : run f (before ++ .tick lastNs cfg .read :: window) = s at *
 obtain ⟨-, hlastNs, hkernel⟩ := @window_packets w ((run f before).tick lastNs cfg .read) a window hwindow
 simp only [run, foldl_append, foldl_cons] at hs
 rw [← run, step] at hs
 rw [hs] at hlastNs hkernel
 have helapsed : s.elapsedNs nowNs = nowNs - lastNs := by
  rw [elapsedNs, hlastNs]
  exact if_neg hlast.ne'
 have hrates := @last_of_read w s a nowNs cfg' hsampled
 rw [hkernel, helapsed] at hrates
 exact hrates hfits

def calm : RuntimeConfig := ⟨⟨5000, 5000, 5000, 50, 0⟩, ⟨5000, 5000, 5000, 50, 0⟩, 1, 1⟩

theorem rates_exact_after_read : Exact (((run {} [.tick 1000000000 calm .read, .packets 1#32 { packets := 1000 }]).tick
  2000000000 calm .read).family.own 1).last { packets := 1000 } 1000000000 :=
 rates_exact_of_read {} [] [.packets 1 { packets := 1000 }] 1000000000 2000000000 calm calm 1 (by decide) (by decide)
  (by decide +kernel) (by decide +kernel)

/-- A thousand packets in each of two seconds, and the tick between them fails. -/
theorem rates_doubled : ∃ steps : List (WatchStep 32),
  steps = [.tick 1000000000 calm .read, .packets 1 { packets := 1000 }, .tick 2000000000 calm .aborted,
   .packets 1 { packets := 1000 }] ∧
  (counted 1 steps).packets * 1000000000 / (3000000000 - 1000000000) = 1000 ∧
   (((run {} steps).tick 3000000000 calm .read).family.own 1).last.pps = 2000 :=
 ⟨_, rfl, by decide +kernel, by decide +kernel⟩

end Lnvps.Firewall
