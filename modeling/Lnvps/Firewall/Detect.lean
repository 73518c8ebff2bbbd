import Mathlib.Tactic

/-! # Attack detection -/

namespace Lnvps.Firewall

def addU64 (a b : Nat) : Nat := (a + b) % 2 ^ 64

def saturatingMul (a b : Nat) : Nat := min (a * b) (2 ^ 64 - 1)

structure DestCounters where
 (packets bytes synPackets tcpPackets udpPackets icmpPackets dropped : Nat := 0)
 deriving DecidableEq

def DestCounters.add (acc v : DestCounters) : DestCounters where
 packets := addU64 acc.packets v.packets
 bytes := addU64 acc.bytes v.bytes
 synPackets := addU64 acc.synPackets v.synPackets
 tcpPackets := addU64 acc.tcpPackets v.tcpPackets
 udpPackets := addU64 acc.udpPackets v.udpPackets
 icmpPackets := addU64 acc.icmpPackets v.icmpPackets
 dropped := addU64 acc.dropped v.dropped

structure Rates where
 (pps synPps bps dropPps passPps : Nat := 0)

def perSec (delta elapsedNs : Nat) : Nat := delta * 1000000000 / elapsedNs % 2 ^ 64

def computeRates (prev cur : DestCounters) (elapsedNs : Nat) : Rates :=
 if elapsedNs = 0 then {} else
  { pps := perSec (cur.packets - prev.packets) elapsedNs
    synPps := perSec (cur.synPackets - prev.synPackets) elapsedNs
    bps := perSec (cur.bytes - prev.bytes) elapsedNs
    dropPps := perSec (cur.dropped - prev.dropped) elapsedNs
    passPps := perSec ((cur.packets - cur.dropped) - (prev.packets - prev.dropped)) elapsedNs }

@[simp] theorem computeRates_self (c : DestCounters) (elapsedNs : Nat) : computeRates c c elapsedNs = {} := by
 unfold computeRates
 split
 · rfl
 · simp [perSec]

structure DetectionConfig where
 (pps synPps bps exitPct cooldownNs : Nat)
 deriving DecidableEq

inductive Transition
 | none
 | entered
 | exited
 deriving DecidableEq

inductive Mode
 | normal
 | portFilter
 deriving DecidableEq

abbrev Flags := BitVec 32

def exceedsEntry (rates : Rates) (cfg : DetectionConfig) : Bool :=
 cfg.pps ≤ rates.pps || cfg.synPps ≤ rates.synPps || cfg.bps ≤ rates.bps

def DetectionConfig.exit (cfg : DetectionConfig) (threshold : Nat) : Nat :=
 saturatingMul threshold cfg.exitPct / 100

def belowExit (rates : Rates) (cfg : DetectionConfig) : Bool :=
 rates.pps < cfg.exit cfg.pps && rates.synPps < cfg.exit cfg.synPps && rates.bps < cfg.exit cfg.bps

def evaluate (mode : Mode) (rates : Rates) (cfg : DetectionConfig) (nowNs : Nat) (belowSinceNs : Option Nat) :
  Mode × Transition × Option Nat :=
 match mode with
 | .normal => if exceedsEntry rates cfg then (.portFilter, .entered, none) else (.normal, .none, belowSinceNs)
 | .portFilter =>
  if belowExit rates cfg then
   if cfg.cooldownNs ≤ nowNs - belowSinceNs.getD nowNs then (.normal, .exited, none)
   else (.portFilter, .none, some (belowSinceNs.getD nowNs))
  else (.portFilter, .none, none)

structure DestTracker where
 prev : DestCounters := {}
 mode : Mode := .normal
 flags : Flags := 0
 belowSinceNs : Option Nat := none
 (peak last : Rates := {})
 lastNs : Nat := 0

def maxRates (a b : Rates) : Rates where
 pps := max a.pps b.pps
 synPps := max a.synPps b.synPps
 bps := max a.bps b.bps
 dropPps := max a.dropPps b.dropPps
 passPps := max a.passPps b.passPps

def peakAfter (peak rates : Rates) : Transition → Mode → Rates
 | .entered, _ => rates
 | _, .portFilter => maxRates peak rates
 | _, .normal => peak

def processSample (cur : DestCounters) (tracker : DestTracker) (cfg : DetectionConfig) (nowNs elapsedNs : Nat) :
  DestTracker × Transition × Rates :=
 let rates := computeRates tracker.prev cur elapsedNs
 let r := evaluate tracker.mode rates cfg nowNs tracker.belowSinceNs
 ({ tracker with
   mode := r.1
   belowSinceNs := r.2.2
   peak := peakAfter tracker.peak rates r.2.1 r.1
   prev := cur
   last := rates
   lastNs := nowNs }, r.2.1, rates)

section

variable {mode : Mode} {rates : Rates} {cfg : DetectionConfig} {nowNs : Nat} {since : Option Nat}

theorem evaluate_cases :
  (mode = .normal ∧ exceedsEntry rates cfg = true ∧
   evaluate mode rates cfg nowNs since = (.portFilter, .entered, none)) ∨
  (mode = .normal ∧ exceedsEntry rates cfg = false ∧
   evaluate mode rates cfg nowNs since = (.normal, .none, since)) ∨
  (mode = .portFilter ∧ belowExit rates cfg = true ∧ cfg.cooldownNs ≤ nowNs - since.getD nowNs ∧
   evaluate mode rates cfg nowNs since = (.normal, .exited, none)) ∨
  (mode = .portFilter ∧ belowExit rates cfg = true ∧ ¬ cfg.cooldownNs ≤ nowNs - since.getD nowNs ∧
   evaluate mode rates cfg nowNs since = (.portFilter, .none, some (since.getD nowNs))) ∨
  (mode = .portFilter ∧ belowExit rates cfg = false ∧
   evaluate mode rates cfg nowNs since = (.portFilter, .none, none)) := by
 cases mode with
 | normal => cases h : exceedsEntry rates cfg <;> simp [evaluate, h]
 | portFilter =>
  cases h : belowExit rates cfg
  · simp [evaluate, h]
  · by_cases hc : cfg.cooldownNs ≤ nowNs - since.getD nowNs
    · simp [evaluate, h, hc]
    · simp [evaluate, h, hc]

end

end Lnvps.Firewall
