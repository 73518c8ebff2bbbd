import Lnvps.Compose

/-! # The footprint of an app -/

namespace Lnvps

open Outcome Table List

def AppCapacity.plus (used need : AppCapacity) : AppCapacity where
 cpuMilli := (used.cpuMilli + need.cpuMilli) % 2 ^ 64
 memoryBytes := (used.memoryBytes + need.memoryBytes) % 2 ^ 64
 storageBytes := (used.storageBytes + need.storageBytes) % 2 ^ 64

theorem AppCapacity.amount_plus (used need : AppCapacity) (r : AppResource) :
  (used.plus need).amount r = (used.amount r + need.amount r) % 2 ^ 64 := by
 cases r <;> rfl

theorem AppCapacity.eq_iff {a b : AppCapacity} : a = b ↔ ∀ r, a.amount r = b.amount r := by
 refine ⟨fun h r => h ▸ rfl, fun h => ?_⟩
 cases a
 cases b
 exact AppCapacity.mk.injEq .. ▸ ⟨h .cpu, h .memory, h .storage⟩

namespace AppDb

variable (db : AppDb) (clusterId : Nat)

def addUsed (used : AppCapacity) (d : AppDeployment) : AppCapacity :=
 if d.clusterId ≠ clusterId then used
 else
  match db.getApp d.appId with
  | some a => used.plus a.footprint
  | none => used

def usedU64 : AppCapacity := db.listAllAppDeployments.foldl (db.addUsed clusterId) {}

theorem amount_addUsed {used : AppCapacity} {r : AppResource} (hused : used.amount r < 2 ^ 64) (d : AppDeployment) :
  (db.addUsed clusterId used d).amount r =
   (used.amount r + if d.clusterId = clusterId then (db.footprintOf d.appId).amount r else 0) % 2 ^ 64 := by
 unfold addUsed footprintOf
 by_cases hd : d.clusterId = clusterId
 · rw [if_neg (not_not.mpr hd), if_pos hd]
   cases db.getApp d.appId with
   | none => cases r <;> exact (Nat.mod_eq_of_lt hused).symm
   | some a => exact AppCapacity.amount_plus used a.footprint r
 · rw [if_pos hd, if_neg hd]
   exact (Nat.mod_eq_of_lt hused).symm

theorem amount_usedU64 (r : AppResource) : (db.usedU64 clusterId).amount r = db.usedAmount clusterId r % 2 ^ 64 := by
 have hloop : ∀ ds : List AppDeployment, ∀ used : AppCapacity, used.amount r < 2 ^ 64 →
   (ds.foldl (db.addUsed clusterId) used).amount r = (used.amount r +
    total (fun d => d.clusterId = clusterId) (fun d => (db.footprintOf d.appId).amount r) ds) % 2 ^ 64 := by
  intro ds
  induction ds with
  | nil => exact fun used hused => (Nat.mod_eq_of_lt hused).symm
  | cons d ds ih =>
   intro used hused
   have hd := db.amount_addUsed clusterId hused d
   rw [foldl_cons, ih _ (hd ▸ Nat.mod_lt _ (by decide)), hd, total_cons, Nat.mod_add_mod, Nat.add_assoc]
   simp only [decide_eq_true_eq]
 have hzero : ({} : AppCapacity).amount r = 0 := by cases r <;> rfl
 rw [usedU64, hloop _ _ (by rw [hzero]; decide), hzero, Nat.zero_add, usedAmount]

end AppDb

namespace Compose

variable {text : ComposeText} {c : Compose} {α : Type}

def parses (text : ComposeText) (c : Compose) : Bool := c.services.all fun (_, svc) =>
 (parseCpuMilli text svc.resources.cpu).isOk ∧ (parseBytes text svc.resources.memory).isOk ∧
  svc.volumes.all fun v => (parseBytes text v.size).isOk

def value (quantity : Except String Nat) : Nat := quantity.toOption.getD 0

def totals (text : ComposeText) (c : Compose) : AppCapacity where
 cpuMilli := (c.services.map fun s => value (parseCpuMilli text s.2.resources.cpu)).sum
 memoryBytes := (c.services.map fun s => value (parseBytes text s.2.resources.memory)).sum
 storageBytes := (c.services.map fun s => (s.2.volumes.map fun v => value (parseBytes text v.size)).sum).sum

theorem labelled_of_isOk {q : Except String Nat} (label : String) (h : q.isOk = true) :
  labelled label q = .ok (value q) := by
 cases q with
 | error e => cases h
 | ok n => rfl

def partOf (text : ComposeText) (s : String × Service) : AppCapacity where
 cpuMilli := value (parseCpuMilli text s.2.resources.cpu)
 memoryBytes := value (parseBytes text s.2.resources.memory)
 storageBytes := (s.2.volumes.map fun v => value (parseBytes text v.size)).sum % 2 ^ 64

theorem footprint_eq (h : c.parses text = true) : c.footprint text = .ok (({} : AppCapacity).plus (c.totals text)) := by
 refine bind_eq_ok.mpr ⟨c.services.map (partOf text), mapM_eq_map fun s hs => ?_, ?_⟩
 · have hs := all_eq_true.mp h s hs
   simp only [decide_eq_true_eq, all_eq_true] at hs
   refine bind_eq_ok.mpr ⟨_, labelled_of_isOk _ hs.1, bind_eq_ok.mpr ⟨_, labelled_of_isOk _ hs.2.1, ?_⟩⟩
   have hvolumes := mapM_eq_map fun v hv => labelled_of_isOk ("service '" ++ s.1 ++ "': volume '" ++ v.name ++ "': ")
    (hs.2.2 v hv)
   exact bind_eq_ok.mpr ⟨_, bind_eq_ok.mpr ⟨_, hvolumes, rfl⟩, rfl⟩
 · simp only [map_map, AppCapacity.plus, totals, Nat.zero_add, Function.comp_def, partOf]
   rw [sum_nat_mod (c.services.map fun s => (s.2.volumes.map fun v => value (parseBytes text v.size)).sum),
    map_map]
   rfl

theorem footprint_exact_iff (text : ComposeText) (c : Compose) (db : AppDb) (clusterId : Nat)
  (h : c.parses text = true) :
  (c.footprint text = .ok (c.totals text) ↔ ∀ r, (c.totals text).amount r < 2 ^ 64) ∧
   (db.usedU64 clusterId = db.used clusterId ↔ ∀ r, db.usedAmount clusterId r < 2 ^ 64) := by
 have hzero : ∀ r, ({} : AppCapacity).amount r = 0 := fun r => by cases r <;> rfl
 have hused : ∀ r, (db.used clusterId).amount r = db.usedAmount clusterId r := fun r => by cases r <;> rfl
 rw [footprint_eq h, Except.ok.injEq, AppCapacity.eq_iff, AppCapacity.eq_iff]
 refine ⟨forall_congr' fun r => ?_, forall_congr' fun r => ?_⟩
 · rw [AppCapacity.amount_plus, hzero, Nat.zero_add]
   exact Nat.mod_eq_iff_lt (by decide)
 · rw [AppDb.amount_usedU64, hused]
   exact Nat.mod_eq_iff_lt (by decide)

def withMemory (memory : List (String × String)) : Compose where
 services := memory.map fun m => (m.1, { image := m.1, resources := { memory := m.2 } })

def wholeBytes : ComposeText := plainComposeText []

def twoDeployments : AppDb where
 db := {}
 apps := [{ id := 1, memoryBytes := 2 ^ 63 }]
 appDeployments := [
  { id := 1, userId := 1, appId := 1, clusterId := 1, subscriptionLineItemId := 1, name := "a" },
  { id := 2, userId := 1, appId := 1, clusterId := 1, subscriptionLineItemId := 2, name := "b" }]

theorem footprint_exact_small : (withMemory [("db", "2Gi"), ("web", "512Mi")]).footprint wholeBytes =
   .ok { cpuMilli := 500, memoryBytes := 2684354560 } ∧
  (withMemory [("db", "2Gi"), ("web", "512Mi")]).totals wholeBytes =
   { cpuMilli := 500, memoryBytes := 2684354560 } := by
 have hiff := footprint_exact_iff wholeBytes (withMemory [("db", "2Gi"), ("web", "512Mi")])
  twoDeployments 1 (by decide +kernel)
 have htotals : (withMemory [("db", "2Gi"), ("web", "512Mi")]).totals wholeBytes =
   { cpuMilli := 500, memoryBytes := 2684354560 } := by decide +kernel
 rw [htotals] at hiff
 exact ⟨hiff.1.mpr fun r => by cases r <;> decide, htotals⟩

/-- Two services of almost 16 EiB, and two deployments of 8 EiB. -/
theorem footprint_wraps :
  (withMemory [("db", "16777215Ti"), ("web", "16777215Ti")]).footprint wholeBytes =
   .ok { cpuMilli := 500, memoryBytes := 2 ^ 64 - 2 ^ 41 } ∧
  ((withMemory [("db", "16777215Ti"), ("web", "16777215Ti")]).totals wholeBytes).memoryBytes = 2 ^ 65 - 2 ^ 41 ∧
  (twoDeployments.usedU64 1).memoryBytes = 0 ∧ (twoDeployments.used 1).memoryBytes = 2 ^ 64 := by
 decide +kernel

end Compose

end Lnvps
