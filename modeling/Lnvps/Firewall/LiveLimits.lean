import Lnvps.Firewall.Control

/-! # The thresholds in use -/

namespace Lnvps.Firewall

structure Thresholds where
 (pps synPps bps : UInt64)
 exitPct : UInt64 := 50
 cooldownSecs : UInt64 := 30

def Thresholds.config (t : Thresholds) : DetectionConfig :=
 ⟨t.pps.toNat, t.synPps.toNat, t.bps.toNat, t.exitPct.toNat, (t.cooldownSecs * 1000000000).toNat⟩

structure ConfigFile where
 thresholds : Thresholds := { pps := 100000, synPps := 10000, bps := 1000000000 }
 network : Thresholds := { pps := 500000, synPps := 50000, bps := 5000000000 }
 srcRatePps : UInt64 := 10000
 srcCooldownSecs : UInt64 := 10
 escalatePassPps : UInt64 := 50000
 synProxySynPps : UInt64 := 5000
 learnLeakPps : UInt64 := 100
 api : Bool

structure LiveConfig extends RuntimeConfig where
 (srcRatePps srcCooldownNs learnLeakPps : Nat)
 deriving DecidableEq

variable (f : ConfigFile)

def ConfigFile.runtimeConfig : LiveConfig where
 detection := f.thresholds.config
 network := f.network.config
 escalatePassPps := f.escalatePassPps.toNat
 synProxyPps := f.synProxySynPps.toNat
 srcRatePps := f.srcRatePps.toNat
 srcCooldownNs := (f.srcCooldownSecs * 1000000000).toNat
 learnLeakPps := f.learnLeakPps.toNat

structure LiveLimits extends Limits where
 srcCooldownSecs : UInt64 := 10
 learnLeakPps : UInt64 := 100

def LiveConfig.applyLimits (rt : LiveConfig) (l : LiveLimits) : LiveConfig where
 toRuntimeConfig := Firewall.applyLimits rt.toRuntimeConfig l.toLimits
 srcRatePps := l.srcRatePps.toNat
 srcCooldownNs := saturatingMul l.srcCooldownSecs.toNat 1000000000
 learnLeakPps := l.learnLeakPps.toNat

def LiveConfig.limits (rt : LiveConfig) : LiveLimits where
 pps := .ofNat rt.detection.pps
 synPps := .ofNat rt.detection.synPps
 bps := .ofNat rt.detection.bps
 netPps := .ofNat rt.network.pps
 netSynPps := .ofNat rt.network.synPps
 netBps := .ofNat rt.network.bps
 exitPct := .ofNat rt.detection.exitPct
 cooldownSecs := .ofNat (rt.detection.cooldownNs / 1000000000)
 srcRatePps := .ofNat rt.srcRatePps
 srcCooldownSecs := .ofNat (rt.srcCooldownNs / 1000000000)
 synProxyPps := .ofNat rt.synProxyPps
 learnLeakPps := .ofNat rt.learnLeakPps

structure ApiLimits where
 limits : LiveLimits
 limitsVersion : Nat := 1

structure MainLoop where
 cfg : LiveConfig
 api : Option ApiLimits
 limitsVersion : Nat := 0

inductive LoopStep
 | putLimits (l : LiveLimits)
 | tick

namespace MainLoop

def start (f : ConfigFile) : MainLoop where
 cfg := f.runtimeConfig
 api := if f.api then some { limits := f.runtimeConfig.limits } else none

def step (s : MainLoop) : LoopStep → MainLoop
 | .putLimits l =>
  match s.api, putLimits l.toLimits with
  | some st, .ok _ => { s with api := some ⟨l, st.limitsVersion + 1⟩ }
  | _, _ => s
 | .tick =>
  match s.api with
  | some st =>
   if st.limitsVersion ≠ s.limitsVersion then
    { s with limitsVersion := st.limitsVersion, cfg := s.cfg.applyLimits st.limits }
   else s
  | none => s

def run (f : ConfigFile) (steps : List LoopStep) : MainLoop := steps.foldl step (start f)

structure Inv (f : ConfigFile) (s : MainLoop) : Prop where
 off : s.api = none → s.cfg = f.runtimeConfig
 rest : ∀ l, s.cfg.applyLimits l = f.runtimeConfig.applyLimits l
 version : ∀ st, s.api = some st → s.limitsVersion ≤ st.limitsVersion
 applied : ∀ st, s.api = some st → s.limitsVersion = st.limitsVersion → s.cfg = f.runtimeConfig.applyLimits st.limits

variable {f : ConfigFile} {s : MainLoop}

theorem start_inv (f : ConfigFile) : Inv f (start f) := by
 refine ⟨fun _ => rfl, fun _ => rfl, fun _ _ => Nat.zero_le _, ?_⟩
 intro st hst hversion
 obtain ⟨-, hst⟩ := Option.ite_none_right_eq_some.mp hst
 obtain rfl := Option.some.inj hst
 cases hversion

theorem step_inv (h : Inv f s) (l : LoopStep) : Inv f (s.step l) := by
 cases l with
 | putLimits l =>
  simp only [step]
  split
  · rename_i st _ hapi _
    have hle := h.version st hapi
    refine ⟨nofun, h.rest, ?_, ?_⟩
    · rintro _ ⟨rfl⟩
      exact Nat.le_succ_of_le hle
    · rintro _ ⟨rfl⟩ hversion
      simp only at hversion
      omega
  · exact h
 | tick =>
  simp only [step]
  split
  · rename_i st hapi
    split_ifs with hnew
    · refine ⟨fun hoff => by simp [hapi] at hoff, fun l => h.rest l, ?_, ?_⟩
      · intro st' hst'
        obtain rfl := Option.some.inj (hapi.symm.trans hst')
        exact le_rfl
      · intro st' hst' _
        obtain rfl := Option.some.inj (hapi.symm.trans hst')
        exact h.rest st.limits
    · exact h
  · exact h

theorem run_inv (f : ConfigFile) (steps : List LoopStep) : Inv f (run f steps) :=
 List.foldlRecOn steps step (start_inv f) fun _ h l _ => step_inv h l

theorem run_snoc (steps : List LoopStep) (l : LoopStep) : run f (steps ++ [l]) = (run f steps).step l := by
 simp [run]

theorem tick_cfg (h : Inv f s) {st : ApiLimits} (hapi : s.api = some st) :
  (s.step .tick).cfg = f.runtimeConfig.applyLimits st.limits := by
 simp only [step, hapi]
 split_ifs with hnew
 · exact h.rest st.limits
 · exact h.applied st hapi (not_not.mp hnew).symm

theorem tick_api (s : MainLoop) : (s.step .tick).api = s.api := by
 simp only [step]
 split
 · split_ifs <;> rfl
 · rfl

theorem run_ticks_api (n : Nat) : (run f (List.replicate n .tick)).api = (start f).api := by
 induction n with
 | zero => rfl
 | succ n ih => rw [List.replicate_succ', run_snoc, tick_api, ih]

end MainLoop

def ConfigFile.Published : Prop :=
 f.thresholds.config.cooldownNs % 1000000000 = 0 ∧ f.network.config.exitPct = f.thresholds.config.exitPct ∧
  f.network.config.cooldownNs = f.thresholds.config.cooldownNs

theorem saturatingMul_seconds (c : UInt64) :
  saturatingMul (UInt64.ofNat (c.toNat / 1000000000)).toNat 1000000000 = c.toNat / 1000000000 * 1000000000 := by
 have hlt := c.toNat_lt
 rw [saturatingMul, UInt64.toNat_ofNat', Nat.mod_eq_of_lt (by omega)]
 omega

theorem applyLimits_limits :
  ((f.runtimeConfig.applyLimits f.runtimeConfig.limits).detection = f.thresholds.config ∧
   (f.runtimeConfig.applyLimits f.runtimeConfig.limits).network = f.network.config) ↔ f.Published := by
 have hcooldown := saturatingMul_seconds (f.thresholds.cooldownSecs * 1000000000)
 simp only [LiveConfig.applyLimits, applyLimits, LiveConfig.limits, ConfigFile.runtimeConfig, ConfigFile.Published,
  Thresholds.config, DetectionConfig.mk.injEq, UInt64.ofNat_toNat, hcooldown, true_and]
 omega

theorem thresholds_used_iff (f : ConfigFile) :
  ((∀ n, let used := (MainLoop.run f (List.replicate (n + 1) .tick)).cfg
    used.detection = f.thresholds.config ∧ used.network = f.network.config) ↔ (f.api = true → f.Published)) ∧
  ∀ steps st, (MainLoop.run f steps).api = some st →
   (MainLoop.run f (steps ++ [.tick])).cfg = f.runtimeConfig.applyLimits st.limits := by
 refine ⟨?_, fun steps st hapi => ?_⟩
 · cases hon : f.api with
   | false =>
    refine ⟨fun _ => nofun, fun _ n => ?_⟩
    have hoff : (MainLoop.run f (List.replicate (n + 1) .tick)).api = none := by
     rw [MainLoop.run_ticks_api, MainLoop.start, hon]
     rfl
    rw [(MainLoop.run_inv f _).off hoff]
    exact ⟨rfl, rfl⟩
   | true =>
    have hused (n : Nat) : (MainLoop.run f (List.replicate (n + 1) .tick)).cfg =
      f.runtimeConfig.applyLimits f.runtimeConfig.limits := by
     have hapi : (MainLoop.run f (List.replicate n .tick)).api = some { limits := f.runtimeConfig.limits } := by
      rw [MainLoop.run_ticks_api, MainLoop.start, hon]
      rfl
     rw [List.replicate_succ', MainLoop.run_snoc, MainLoop.tick_cfg (MainLoop.run_inv f _) hapi]
    simp only [hused, applyLimits_limits, forall_const]
 · rw [MainLoop.run_snoc]
   exact MainLoop.tick_cfg (MainLoop.run_inv f steps) hapi

/-- The default file with a longer cooldown for protected networks, and the API on. -/
theorem network_cooldown_lost : ∃ f : ConfigFile, f.network.config.cooldownNs = 300000000000 ∧
  (MainLoop.run f [.tick]).cfg.network.cooldownNs = 30000000000 :=
 ⟨{ network := { pps := 500000, synPps := 50000, bps := 5000000000, cooldownSecs := 300 }, api := true },
  by decide, by decide⟩

end Lnvps.Firewall
