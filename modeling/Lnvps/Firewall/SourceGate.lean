import Mathlib.Tactic

/-! # The rate gate of a source -/

namespace Lnvps.Firewall

open List

structure SrcRateConfig where
 (maxPerWindow windowNs cooldownNs : UInt64)

structure SrcState where
 windowStartNs : UInt64
 (count blockedUntilNs : UInt64 := 0)

def srcRateCfg (srcRatePps srcCooldownNs : UInt64) : SrcRateConfig where
 maxPerWindow := UInt64.ofNat (min (srcRatePps.toNat * 1000000000) (2 ^ 64 - 1)) / 1000000000
 windowNs := 1000000000
 cooldownNs := srcCooldownNs

def srcGate (cfg : SrcRateConfig) (enforce : Bool) (now : UInt64) (entry : Option SrcState) :
  Bool × Option SrcState :=
 if cfg.maxPerWindow = 0 ∨ cfg.windowNs = 0 then (false, entry)
 else
  match entry with
  | some st =>
   let st := if now - st.windowStartNs ≥ cfg.windowNs then { st with windowStartNs := now, count := 0 } else st
   let st := { st with count := st.count + 1 }
   let st := if enforce ∧ st.count > cfg.maxPerWindow then { st with blockedUntilNs := now + cfg.cooldownNs } else st
   (enforce && now < st.blockedUntilNs, some st)
  | none => (false, some { windowStartNs := now, count := 1, blockedUntilNs := 0 })

structure Gated where
 (time window : UInt64)
 dropped : Bool

def gateRun (cfg : SrcRateConfig) : Option SrcState → List UInt64 → List Gated
 | _, [] => []
 | entry, now :: ts =>
  let r := srcGate cfg true now entry
  { time := now, window := (r.2.map (·.windowStartNs)).getD now, dropped := r.1 } :: gateRun cfg r.2 ts

def passed (p : UInt64 → UInt64 → Bool) (run : List Gated) : Nat :=
 run.countP fun g => !g.dropped && p g.time g.window

def inInterval (cfg : SrcRateConfig) (a : Nat) (t : UInt64) : Bool := a ≤ t.toNat ∧ t.toNat < a + cfg.windowNs.toNat

variable {cfg : SrcRateConfig} {now last : UInt64} {ts : List UInt64} {st st' : SrcState}

structure Counted (cfg : SrcRateConfig) (now : UInt64) (st st' : SrcState) : Prop where
 window : st.windowStartNs.toNat + cfg.windowNs.toNat ≤ now.toNat ∧ st'.windowStartNs = now ∧ st'.count.toNat = 1 ∨
  st.windowStartNs.toNat ≤ now.toNat ∧ now.toNat < st.windowStartNs.toNat + cfg.windowNs.toNat ∧
   st'.windowStartNs = st.windowStartNs ∧ st'.count.toNat = (st.count.toNat + 1) % 2 ^ 64
 blocked : st'.blockedUntilNs =
  if cfg.maxPerWindow.toNat < st'.count.toNat then now + cfg.cooldownNs else st.blockedUntilNs

def Pays (cfg : SrcRateConfig) (p : UInt64 → UInt64 → Bool) (budget : SrcState → Nat) : Prop :=
 ∀ st now st', Counted cfg now st st' → st.count.toNat + 1 < 2 ^ 64 → budget st' ≤ budget st ∧
  (st'.count.toNat ≤ cfg.maxPerWindow.toNat → p now st'.windowStartNs = true → budget st' < budget st)

def BlockCovers (cfg : SrcRateConfig) (ts : List UInt64) : Prop :=
 cfg.maxPerWindow.toNat + 1 = 2 ^ 64 ∨ ∀ now ∈ ts, now < now + cfg.cooldownNs

theorem Counted.sorted (h : Counted cfg now st st') (hsorted : (st.windowStartNs :: now :: ts).Pairwise (· ≤ ·)) :
  (st'.windowStartNs :: ts).Pairwise (· ≤ ·) := by
 obtain ⟨-, hstart, -⟩ | ⟨-, -, hstart, -⟩ := h.window
 · rw [hstart]
   exact hsorted.of_cons
 · rw [hstart]
   exact hsorted.sublist ((sublist_cons_self now ts).cons_cons _)

section Run

variable (hmax : 0 < cfg.maxPerWindow) (hwindow : 0 < cfg.windowNs)

include hmax hwindow

theorem gateRun_some (hsorted : (st.windowStartNs :: now :: ts).Pairwise (· ≤ ·)) :
  ∃ st', Counted cfg now st st' ∧ (st'.windowStartNs :: ts).Pairwise (· ≤ ·) ∧
   gateRun cfg (some st) (now :: ts) =
    { time := now, window := st'.windowStartNs, dropped := now < st'.blockedUntilNs } ::
      gateRun cfg (some st') ts := by
 have hoff : ¬(cfg.maxPerWindow = 0 ∨ cfg.windowNs = 0) := by grind
 have hle := rel_of_pairwise_cons hsorted mem_cons_self
 have hsub := UInt64.toNat_sub_of_le _ _ hle
 have hle' := UInt64.le_iff_toNat_le.mp hle
 have hcounted : ∃ st', Counted cfg now st st' ∧
   srcGate cfg true now (some st) = (decide (now < st'.blockedUntilNs), some st') := by
  simp only [srcGate, if_neg hoff, true_and, Bool.true_and]
  by_cases hroll : now - st.windowStartNs ≥ cfg.windowNs
  · have hroll' := UInt64.le_iff_toNat_le.mp hroll
    simp only [if_pos hroll]
    refine ⟨_, ⟨.inl ⟨by omega, ?_⟩, ?_⟩, rfl⟩
    · split <;> exact ⟨rfl, rfl⟩
    · simp only [gt_iff_lt, UInt64.lt_iff_toNat_lt]
      split <;> simp_all
  · have hroll' := mt UInt64.le_iff_toNat_le.mpr hroll
    simp only [if_neg hroll]
    refine ⟨_, ⟨.inr ⟨hle', by omega, ?_⟩, ?_⟩, rfl⟩
    · split <;> exact ⟨rfl, UInt64.toNat_add ..⟩
    · simp only [gt_iff_lt, UInt64.lt_iff_toNat_lt]
      split <;> simp_all
 obtain ⟨st', hcounted, hstep⟩ := hcounted
 exact ⟨st', hcounted, hcounted.sorted hsorted, by simp [gateRun, hstep]⟩

theorem gateRun_none : gateRun cfg none (now :: ts) = gateRun cfg (some { windowStartNs := now }) (now :: ts) := by
 have hmax' : cfg.maxPerWindow ≠ 0 := by grind
 have hwindow' : cfg.windowNs ≠ 0 := by grind
 simp [gateRun, srcGate, hmax', hwindow']

theorem not_dropped_of_fits (hsorted : (st.windowStartNs :: ts).Pairwise (· ≤ ·))
  (hconform : ∀ a, ts.countP (inInterval cfg a) ≤ cfg.maxPerWindow.toNat)
  (hfits : st.count.toNat + ts.countP (inInterval cfg st.windowStartNs.toNat) ≤ cfg.maxPerWindow.toNat)
  (hblocked : st.blockedUntilNs = 0) : ∀ g ∈ gateRun cfg (some st) ts, g.dropped = false := by
 induction ts generalizing st with
 | nil => simp [gateRun]
 | cons now ts ih =>
  obtain ⟨st', hcounted, hsorted', hrun⟩ := gateRun_some hmax hwindow hsorted
  have hpos := UInt64.lt_iff_toNat_lt.mp hwindow
  have hself : inInterval cfg st'.windowStartNs.toNat now = true := by
   simp only [inInterval, decide_eq_true_eq]
   obtain ⟨-, hstart, -⟩ | ⟨hle, hin, hstart, -⟩ := hcounted.window <;> rw [hstart]
   · omega
   · exact ⟨hle, hin⟩
  have hfits' : st'.count.toNat + ts.countP (inInterval cfg st'.windowStartNs.toNat) ≤ cfg.maxPerWindow.toNat := by
   have hnow := hconform st'.windowStartNs.toNat
   have hbound := cfg.maxPerWindow.toNat_lt
   rw [countP_cons_of_pos hself] at hnow
   obtain ⟨-, -, hcount⟩ | ⟨-, -, hstart, hcount⟩ := hcounted.window
   · omega
   · rw [← hstart, countP_cons_of_pos hself] at hfits
     omega
  have hblocked' : st'.blockedUntilNs = 0 := by
   rw [hcounted.blocked, if_neg (by omega), hblocked]
  rw [hrun, forall_mem_cons, hblocked']
  exact ⟨by simp, ih hsorted' (fun a => Nat.le_trans (sublist_cons_self now ts).countP_le (hconform a))
   hfits' hblocked'⟩

variable {p : UInt64 → UInt64 → Bool} {budget : SrcState → Nat}

theorem passed_le_budget (hpays : Pays cfg p budget)
  (hsorted : (st.windowStartNs :: ts).Pairwise (· ≤ ·)) (hlength : st.count.toNat + ts.length < 2 ^ 64)
  (hcovers : BlockCovers cfg ts) : passed p (gateRun cfg (some st) ts) ≤ budget st := by
 induction ts generalizing st with
 | nil => simp [gateRun, passed]
 | cons now ts ih =>
  obtain ⟨st', hcounted, hsorted', hrun⟩ := gateRun_some hmax hwindow hsorted
  rw [length_cons] at hlength
  have hcount : st'.count.toNat ≤ st.count.toNat + 1 := by
   obtain ⟨-, -, h⟩ | ⟨-, -, -, h⟩ := hcounted.window <;> omega
  have hrest := ih hsorted' (by omega)
   (hcovers.imp id fun h now hnow => h now (mem_cons_of_mem _ hnow))
  obtain ⟨hkept, hpaid⟩ := hpays st now st' hcounted (by omega)
  rw [hrun, passed, countP_cons]
  change passed _ _ + _ ≤ _
  split
  · rename_i hpass
    simp only [Bool.and_eq_true, Bool.not_eq_true', decide_eq_false_iff_not] at hpass
    have hwithin : st'.count.toNat ≤ cfg.maxPerWindow.toNat := by
     by_contra hover
     rw [hcounted.blocked, if_pos (by omega)] at hpass
     exact hcovers.elim (fun h => by omega) fun h => hpass.1 (h now mem_cons_self)
    have := hpaid hwithin hpass.2
    omega
  · omega

theorem passed_le (hpays : Pays cfg p budget) {bound : Nat}
  (hstart : ∀ now, budget { windowStartNs := now } ≤ bound) (hsorted : ts.Pairwise (· ≤ ·))
  (hlength : ts.length < 2 ^ 64) (hcovers : BlockCovers cfg ts) : passed p (gateRun cfg none ts) ≤ bound := by
 cases ts with
 | nil => simp [gateRun, passed]
 | cons now ts =>
  rw [gateRun_none hmax hwindow]
  exact Nat.le_trans (passed_le_budget hmax hwindow hpays (by simpa using hsorted) (by simpa using hlength) hcovers)
   (hstart now)

theorem gateRun_replicate (hstart : st.windowStartNs = last) (hblocked : st.blockedUntilNs ≤ last)
  (hcooldown : last + cfg.cooldownNs ≤ last) (n : Nat) : gateRun cfg (some st) (replicate n last) =
   replicate n { time := last, window := last, dropped := false } := by
 induction n generalizing st with
 | zero => rfl
 | succ n ih =>
  have hsorted : (st.windowStartNs :: last :: replicate n last).Pairwise (· ≤ ·) := by
   rw [hstart, ← replicate_succ, ← replicate_succ]
   exact pairwise_replicate.mpr (.inr (UInt64.le_refl _))
  obtain ⟨st', hcounted, -, hrun⟩ := gateRun_some hmax hwindow hsorted
  have hstart' : st'.windowStartNs = last := by
   obtain ⟨-, h, -⟩ | ⟨-, -, h, -⟩ := hcounted.window
   · exact h
   · rw [h, hstart]
  have hblocked' : st'.blockedUntilNs ≤ last := by
   rw [hcounted.blocked]
   split
   · exact hcooldown
   · exact hblocked
  rw [replicate_succ, hrun, ih hstart' hblocked', hstart', replicate_succ]
  simp [hblocked']

end Run

def windowBudget (cfg : SrcRateConfig) (w : UInt64) (st : SrcState) : Nat :=
 if w.toNat < st.windowStartNs.toNat then 0
 else if w = st.windowStartNs then cfg.maxPerWindow.toNat - st.count.toNat
 else cfg.maxPerWindow.toNat

theorem windowBudget_pays (hwindow : 0 < cfg.windowNs) (w : UInt64) :
  Pays cfg (fun _ window => window = w) (windowBudget cfg w) := by
 have hpos := UInt64.lt_iff_toNat_lt.mp hwindow
 intro st now st' hcounted hcount
 simp only [windowBudget, decide_eq_true_eq, ← UInt64.toNat_inj]
 obtain ⟨hroll, hstart, hone⟩ | ⟨hle, hin, hstart, hnext⟩ := hcounted.window
 · rw [hstart]
   grind
 · rw [Nat.mod_eq_of_lt hcount] at hnext
   rw [hstart]
   grind

def intervalBudget (cfg : SrcRateConfig) (a : Nat) (st : SrcState) : Nat :=
 if st.windowStartNs.toNat + cfg.windowNs.toNat ≤ a then 2 * cfg.maxPerWindow.toNat
 else if st.windowStartNs.toNat ≤ a then cfg.maxPerWindow.toNat - st.count.toNat + cfg.maxPerWindow.toNat
 else if st.windowStartNs.toNat < a + cfg.windowNs.toNat then cfg.maxPerWindow.toNat - st.count.toNat
 else 0

theorem intervalBudget_pays (hwindow : 0 < cfg.windowNs) (a : Nat) :
  Pays cfg (fun t _ => inInterval cfg a t) (intervalBudget cfg a) := by
 have hpos := UInt64.lt_iff_toNat_lt.mp hwindow
 intro st now st' hcounted hcount
 simp only [intervalBudget, inInterval, decide_eq_true_eq]
 obtain ⟨hroll, hstart, hone⟩ | ⟨hle, hin, hstart, hnext⟩ := hcounted.window
 · rw [hstart]
   grind
 · rw [Nat.mod_eq_of_lt hcount] at hnext
   rw [hstart]
   grind

theorem gate_bounds_iff (cfg : SrcRateConfig) (last : UInt64) (hmax : 0 < cfg.maxPerWindow)
  (hwindow : 0 < cfg.windowNs) :
  (∀ ts, ts.Pairwise (· ≤ ·) → (∀ a, ts.countP (inInterval cfg a) ≤ cfg.maxPerWindow.toNat) →
   ∀ g ∈ gateRun cfg none ts, g.dropped = false) ∧
  ((∀ ts, ts.Pairwise (· ≤ ·) → ts.length < 2 ^ 64 → (∀ t ∈ ts, t ≤ last) →
    (∀ w, passed (fun _ window => window = w) (gateRun cfg none ts) ≤ cfg.maxPerWindow.toNat) ∧
     ∀ a, passed (fun t _ => inInterval cfg a t) (gateRun cfg none ts) ≤ 2 * cfg.maxPerWindow.toNat) ↔
   cfg.maxPerWindow.toNat + 1 = 2 ^ 64 ∨ 0 < cfg.cooldownNs ∧ last.toNat + cfg.cooldownNs.toNat < 2 ^ 64) := by
 have hlast := last.toNat_lt
 refine ⟨fun ts hsorted hconform => ?_, fun h => ?_, fun h ts hsorted hlength hle => ?_⟩
 · cases ts with
   | nil => simp [gateRun]
   | cons now ts =>
    rw [gateRun_none hmax hwindow]
    exact not_dropped_of_fits hmax hwindow (by simpa using hsorted) hconform (by simpa using hconform _) rfl
 · by_contra hnot
   have hcooldown : last + cfg.cooldownNs ≤ last := by
    have := cfg.cooldownNs.toNat_lt
    rw [UInt64.le_iff_toNat_le, UInt64.toNat_add]
    simp only [UInt64.lt_iff_toNat_lt, UInt64.toNat_zero] at hnot
    omega
   have hbound := cfg.maxPerWindow.toNat_lt
   have hflood := (h (List.replicate (cfg.maxPerWindow.toNat + 1) last)
    (List.pairwise_replicate.mpr (Or.inr (UInt64.le_refl _))) (by rw [List.length_replicate]; omega)
    fun t ht => List.eq_of_mem_replicate ht ▸ UInt64.le_refl _).1 last
   rw [List.replicate_succ, gateRun_none hmax hwindow, ← List.replicate_succ,
    gateRun_replicate hmax hwindow rfl UInt64.zero_le hcooldown] at hflood
   rw [passed, List.countP_replicate, if_pos (by simp)] at hflood
   omega
 · have hcovers : BlockCovers cfg ts := by
    refine h.imp id fun h now hnow => ?_
    have hnow := UInt64.le_iff_toNat_le.mp (hle now hnow)
    have hpos := UInt64.lt_iff_toNat_lt.mp h.1
    rw [UInt64.lt_iff_toNat_lt, UInt64.toNat_add, Nat.mod_eq_of_lt (by omega)]
    rw [UInt64.toNat_zero] at hpos
    omega
   refine ⟨fun w => passed_le hmax hwindow (windowBudget_pays hwindow w) ?_ hsorted hlength hcovers,
    fun a => passed_le hmax hwindow (intervalBudget_pays hwindow a) ?_ hsorted hlength hcovers⟩
   · grind [windowBudget]
   · grind [intervalBudget]

theorem gate_bounds_default : 0 < (srcRateCfg 500 10000000000).maxPerWindow ∧
    ∀ ts : List UInt64, ts.Pairwise (· ≤ ·) → ts.length < 2 ^ 64 → (∀ t ∈ ts, t ≤ 1000000000000) →
      ∀ a, passed (fun t _ => inInterval (srcRateCfg 500 10000000000) a t)
        (gateRun (srcRateCfg 500 10000000000) none ts) ≤ 1000 := by
  refine ⟨by decide, fun ts hsorted hlength hlast => ?_⟩
  exact ((gate_bounds_iff (srcRateCfg 500 10000000000) 1000000000000 (by decide) (by decide)).2.mpr
    (Or.inr (by decide)) ts hsorted hlength hlast).2

/-- Without a cooldown all packets pass. -/
theorem gate_open_without_cooldown : (srcRateCfg 1 0).maxPerWindow = 1 ∧
  passed (fun _ window => window = 5) (gateRun (srcRateCfg 1 0) none [5, 5, 5]) = 3 ∧
   passed (fun t _ => inInterval (srcRateCfg 1 0) 5 t) (gateRun (srcRateCfg 1 0) none [5, 5, 5]) = 3 := by
 decide

end Lnvps.Firewall
