import Lnvps.Firewall.Detect
import Lnvps.Lib.Hysteresis

/-! # Episodes of mitigation -/

namespace Lnvps.Firewall

open Hysteresis List

structure Sample where
 cur : DestCounters
 (nowNs elapsedNs : Nat)

variable (cfg : DetectionConfig) (s : Nat → Sample)

def call (t : DestTracker) (i : Nat) : DestTracker × Transition × Rates :=
 processSample (s i).cur t cfg (s i).nowNs (s i).elapsedNs

def track : Nat → DestTracker
 | 0 => {}
 | n + 1 => (call cfg s (track n) n).1

def transitionAt (i : Nat) : Transition := (call cfg s (track cfg s i) i).2.1

def ratesAt (i : Nat) : Rates := (call cfg s (track cfg s i) i).2.2

def reported (n : Nat) : List Transition := ((List.range n).map (transitionAt cfg s)).filter (· ≠ .none)

def alternating (k : Nat) : List Transition := (List.range k).map fun i => if i % 2 = 0 then .entered else .exited

def Rates.fields : List (Rates → Nat) := [Rates.pps, Rates.synPps, Rates.bps, Rates.dropPps, Rates.passPps]

def IsPeak (e x : Nat) (peak : Rates) : Prop :=
 ∀ field ∈ Rates.fields, IsGreatest (Set.image (fun i => field (ratesAt cfg s i)) (Set.Ico e x)) (field peak)

def signal : Signal where
 time i := (s i).nowNs
 hot i :=
  let r := ratesAt cfg s i
  cfg.pps ≤ r.pps ∨ cfg.synPps ≤ r.synPps ∨ cfg.bps ≤ r.bps
 cool i :=
  let r := ratesAt cfg s i
  let exit threshold := min (threshold * cfg.exitPct) (2 ^ 64 - 1) / 100
  r.pps < exit cfg.pps ∧ r.synPps < exit cfg.synPps ∧ r.bps < exit cfg.bps
 hold := cfg.cooldownNs

def DestTracker.switch (t : DestTracker) : Option (Option Nat) := if t.mode = .normal then none else some t.belowSinceNs

inductive Called (t : DestTracker) (r : Rates) : DestTracker → Transition → Prop
 | enter {t'} : t.mode = .normal → t'.mode = .portFilter → t'.peak = r → Called t r t' .entered
 | idle {t'} : t.mode = .normal → t'.mode = .normal → t'.peak = t.peak → Called t r t' .none
 | exit {t'} : t.mode = .portFilter → t'.mode = .normal → t'.peak = t.peak → Called t r t' .exited
 | stay {t'} : t.mode = .portFilter → t'.mode = .portFilter → t'.peak = maxRates t.peak r → Called t r t' .none

theorem track_called (n : Nat) :
  Called (track cfg s n) (ratesAt cfg s n) (track cfg s (n + 1)) (transitionAt cfg s n) := by
 simp only [transitionAt, ratesAt, track, call, processSample]
 generalize track cfg s n = t
 obtain ⟨hm, -, he⟩ | ⟨hm, -, he⟩ | ⟨hm, -, -, he⟩ | ⟨hm, -, -, he⟩ | ⟨hm, -, he⟩ := @evaluate_cases t.mode
  (computeRates t.prev (s n).cur (s n).elapsedNs) cfg (s n).nowNs t.belowSinceNs <;> rw [he]
 · exact .enter hm rfl rfl
 · exact .idle hm rfl rfl
 · exact .exit hm rfl rfl
 · exact .stay hm rfl rfl
 · exact .stay hm rfl rfl

theorem hot_eq (i : Nat) : (signal cfg s).hot i = exceedsEntry (ratesAt cfg s i) cfg := by
 simp [signal, exceedsEntry, Bool.or_assoc]

theorem cool_eq (i : Nat) : (signal cfg s).cool i = belowExit (ratesAt cfg s i) cfg := by
 rw [Bool.eq_iff_iff, belowExit]
 simp only [Bool.and_eq_true, decide_eq_true_eq, and_assoc]
 exact decide_eq_true_iff

theorem switch_track (n : Nat) : (track cfg s n).switch = (signal cfg s).run n := by
 induction n with
 | zero => rfl
 | succ n ih =>
  rw [Signal.run, ← ih]
  have hcases := @evaluate_cases (track cfg s n).mode (ratesAt cfg s n) cfg (s n).nowNs (track cfg s n).belowSinceNs
  change (if (evaluate _ (ratesAt cfg s n) cfg _ _).1 = .normal then none
   else some (evaluate _ (ratesAt cfg s n) cfg _ _).2.2) = _
  obtain ⟨hm, hr, he⟩ | ⟨hm, hr, he⟩ | ⟨hm, hr, hc, he⟩ | ⟨hm, hr, hc, he⟩ | ⟨hm, hr, he⟩ := hcases <;>
   rw [he] <;> simp [DestTracker.switch, Signal.step, hot_eq, cool_eq, show (signal cfg s).time n = (s n).nowNs from rfl,
    show (signal cfg s).hold = cfg.cooldownNs from rfl, *]

theorem not_belowExit (hexit : cfg.exitPct ≤ 100) {r : Rates} (h : exceedsEntry r cfg = true) :
  belowExit r cfg = false := by
 have hle (th : Nat) : cfg.exit th ≤ th := by
  have hmul : th * cfg.exitPct ≤ th * 100 := Nat.mul_le_mul_left th hexit
  unfold DetectionConfig.exit saturatingMul
  omega
 have hpps := hle cfg.pps
 have hsyn := hle cfg.synPps
 have hbps := hle cfg.bps
 simp only [exceedsEntry, Bool.or_eq_true, decide_eq_true_eq] at h
 simp only [belowExit, Bool.and_eq_false_iff, decide_eq_false_iff_not]
 omega

theorem reported_alternating (n : Nat) :
  ∃ k ≤ n, reported cfg s n = alternating k ∧ ((track cfg s n).mode = .portFilter ↔ k % 2 = 1) := by
 induction n with
 | zero => exact ⟨0, le_rfl, rfl, by simp [track]⟩
 | succ n ih =>
  obtain ⟨k, hk, hrep, hmode⟩ := ih
  have hsucc : reported cfg s (n + 1) = alternating k ++ [transitionAt cfg s n].filter (· ≠ .none) := by
   rw [← hrep]
   simp [reported, range_succ]
  have halt : alternating (k + 1) = alternating k ++ [if k % 2 = 0 then .entered else .exited] := by
   simp [alternating, range_succ]
  have hcalled := track_called cfg s n
  rw [hsucc]
  generalize transitionAt cfg s n = transition at hcalled ⊢
  cases hcalled with
  | enter hm hm' _ | exit hm hm' _ =>
   refine ⟨k + 1, by omega, ?_, ?_⟩
   · rw [halt]
     simp_all
   · simp_all
     omega
  | idle hm hm' _ | stay hm hm' _ => exact ⟨k, by omega, by simp, by simp_all⟩

theorem isPeak_enter (e : Nat) : IsPeak cfg s e (e + 1) (ratesAt cfg s e) := by
 intro field _
 rw [show Set.Ico e (e + 1) = {e} by ext i; simp; omega, Set.image_singleton]
 exact isGreatest_singleton

theorem isPeak_stay {e x : Nat} {peak : Rates} (hle : e ≤ x) (h : IsPeak cfg s e x peak) :
  IsPeak cfg s e (x + 1) (maxRates peak (ratesAt cfg s x)) := by
 intro field hf
 have hmax : field (maxRates peak (ratesAt cfg s x)) = max (field (ratesAt cfg s x)) (field peak) := by
  simp only [Rates.fields, mem_cons, not_mem_nil, or_false] at hf
  rcases hf with rfl | rfl | rfl | rfl | rfl <;> exact max_comm _ _
 have hset : Set.Ico e (x + 1) = insert x (Set.Ico e x) := by
  ext i
  simp
  omega
 rw [hmax, hset, Set.image_insert_eq]
 exact (h field hf).insert _

theorem peak_of_lastEntry {e n : Nat} (hlt : e < n) (he : transitionAt cfg s e = .entered)
  (hlast : ∀ i, e < i → i < n → transitionAt cfg s i ≠ .entered) :
  ∃ x, e < x ∧ x ≤ n ∧ IsPeak cfg s e x (track cfg s n).peak ∧
   ((track cfg s n).mode = .portFilter → x = n) ∧
   ((track cfg s n).mode = .normal → transitionAt cfg s x = .exited) := by
 induction n with
 | zero => omega
 | succ n ih =>
  have hcalled := track_called cfg s n
  generalize htr : transitionAt cfg s n = transition at hcalled
  rcases Nat.lt_or_eq_of_le (Nat.le_of_lt_succ hlt) with hen | rfl
  · obtain ⟨x, hex, hxn, hpeak, hpf, hnormal⟩ := ih hen fun i h₁ h₂ => hlast i h₁ (by omega)
    cases hcalled with
    | enter => exact absurd htr (hlast n hen (by omega))
    | idle hm hm' hp => exact ⟨x, hex, by omega, hp ▸ hpeak, by simp [hm'], fun _ => hnormal hm⟩
    | exit hm hm' hp =>
     obtain rfl := hpf hm
     exact ⟨x, hex, by omega, hp ▸ hpeak, by simp [hm'], fun _ => htr⟩
    | stay hm hm' hp =>
     obtain rfl := hpf hm
     exact ⟨x + 1, by omega, le_rfl, hp ▸ isPeak_stay cfg s hex.le hpeak, fun _ => rfl, by simp [hm']⟩
  · rw [he] at htr
    subst htr
    cases hcalled with
    | enter _ hm' hp => exact ⟨e + 1, by omega, le_rfl, hp ▸ isPeak_enter cfg s e, fun _ => rfl, by simp [hm']⟩

theorem detection_spec (hexit : cfg.exitPct ≤ 100) (htime : Monotone fun i => (s i).nowNs) (n : Nat) :
  ((track cfg s n).mode = .portFilter ↔ ∃ i < n, (signal cfg s).hot i = true ∧
   ∀ j, i < j → j < n → ¬ (signal cfg s).Quiet i j) ∧
  (∃ k ≤ n, reported cfg s n = alternating k) ∧
  ∀ e < n, transitionAt cfg s e = .entered → (∀ i, e < i → i < n → transitionAt cfg s i ≠ .entered) →
   ∃ x, e < x ∧ x ≤ n ∧ IsPeak cfg s e x (track cfg s n).peak ∧
    ((track cfg s n).mode = .portFilter → x = n) ∧
    ((track cfg s n).mode = .normal → transitionAt cfg s x = .exited) := by
 refine ⟨?_, ?_, fun e hlt he hlast => peak_of_lastEntry cfg s hlt he hlast⟩
 · have hcool (i : Nat) (hot : (signal cfg s).hot i = true) : (signal cfg s).cool i = false := by
    rw [cool_eq, not_belowExit cfg hexit (hot_eq cfg s i ▸ hot)]
   have hrun := Signal.run_isSome_iff hcool htime n
   rw [← switch_track, DestTracker.switch] at hrun
   refine Iff.trans ?_ hrun
   cases (track cfg s n).mode <;> simp
 · obtain ⟨k, hk, hrep, -⟩ := reported_alternating cfg s n
   exact ⟨k, hk, hrep⟩

/-- A thousand packets in the first second, then silence. -/
theorem detection_spec_burst : ∃ (cfg : DetectionConfig) (s : Nat → Sample),
  (track cfg s 3).mode = .portFilter ∧ (track cfg s 4).mode = .normal ∧ ∃ k ≤ 4, reported cfg s 4 = alternating k :=
 ⟨⟨1000, 1000, 1000, 50, 2000000000⟩, fun i => ⟨{ packets := 1000 }, i * 1000000000, 1000000000⟩, by decide,
  by decide, (detection_spec _ _ (by decide) (fun _ _ h => Nat.mul_le_mul_right _ h) 4).2.1⟩

/-- Ten SYN packets in the first second enter mitigation, the silence of the next one ends it. The five hundred packets
after that do not enter it again, and are more than the peak. -/
theorem peak_lower_after_exit : ∃ (cfg : DetectionConfig) (s : Nat → Sample), cfg.exitPct ≤ 100 ∧
  Monotone (fun i => (s i).nowNs) ∧ transitionAt cfg s 0 = .entered ∧
  (∀ i < 3, 0 < i → transitionAt cfg s i ≠ .entered) ∧ (track cfg s 3).peak.pps < (ratesAt cfg s 2).pps :=
 ⟨⟨1000, 10, 1000000, 50, 0⟩,
  fun i => ⟨{ packets := if i < 2 then 10 else 510, synPackets := 10 }, i * 1000000000, 1000000000⟩, by decide,
  fun _ _ h => Nat.mul_le_mul_right _ h, by decide, by decide, by decide⟩

end Lnvps.Firewall
