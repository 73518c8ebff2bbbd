import Lnvps.AppClusters

/-! # The regions of an app -/

namespace Lnvps

open Table AppDb

structure AppRegionAvailability where
 regionId : Nat
 available : Bool
 ingressDomain : String

namespace AppDb

variable (db : AppDb) (need : AppCapacity)

def selectFrom (regionId : Nat) : List AppCluster → Option (Option AppCluster)
 | [] => some none
 | cluster :: rest =>
  if cluster.regionId = regionId then do
   if ← db.fits cluster.id need then some (some cluster) else selectFrom regionId rest
  else selectFrom regionId rest

def selectInRegion (regionId : Nat) : Option (Option AppCluster) := db.selectFrom need regionId db.listAppClusters

def regionIds (clusters : List AppCluster) : List Nat :=
 clusters.foldl (fun ids c => if c.regionId ∈ ids then ids else ids ++ [c.regionId]) []

def choose (chosen : Option AppCluster) : List AppCluster → Option (Bool × Option AppCluster)
 | [] => some (false, chosen)
 | c :: rest => do
  if ← db.fits c.id need then some (true, some c) else choose chosen rest

def regionAvailability (clusters : List AppCluster) (rid : Nat) : Option (List AppRegionAvailability) := do
 let regionClusters := clusters.filter fun c => c.regionId = rid
 let (available, chosen) ← db.choose need regionClusters.head? regionClusters
 some (chosen.toList.map fun c => { regionId := rid, available, ingressDomain := c.ingressDomain })

def regionsAvailability : Option (List AppRegionAvailability) := do
 let clusters := db.listAppClusters
 let out ← (regionIds clusters).mapM (db.regionAvailability need clusters)
 some out.flatten

end AppDb

namespace AppRegions

variable {db : AppDb} {need : AppCapacity} {clusters : List AppCluster} {rid : Nat}

theorem fits_isSome {c : AppCluster} (hc : c ∈ db.listAppClusters) : (db.fits c.id need).isSome = true := by
 have hrow : c ∈ db.appClusters := List.mem_of_mem_filter hc
 have hfound : (db.getAppCluster c.id).isSome = true := by
  rw [getAppCluster, lookup, List.find?_isSome]
  exact ⟨c, hrow, by simp⟩
 simp [fits, available, hfound]

def hasRoom (db : AppDb) (need : AppCapacity) (c : AppCluster) : Bool := (db.fits c.id need).getD false

theorem fits_eq {c : AppCluster} (hc : c ∈ db.listAppClusters) : db.fits c.id need = some (hasRoom db need c) := by
 obtain ⟨b, hb⟩ := Option.isSome_iff_exists.mp (fits_isSome hc)
 rw [hasRoom, hb]
 rfl

theorem selectFrom_eq (hsub : ∀ c ∈ clusters, c ∈ db.listAppClusters) :
  db.selectFrom need rid clusters = some ((clusters.filter fun c => c.regionId = rid).find? (hasRoom db need)) := by
 induction clusters with
 | nil => rfl
 | cons c clusters ih =>
  have htail := ih fun c hc => hsub c (List.mem_cons_of_mem _ hc)
  rw [selectFrom]
  by_cases hregion : c.regionId = rid
  · rw [if_pos hregion, fits_eq (hsub c (List.mem_cons_self ..)), List.filter_cons_of_pos (by simp [hregion]),
     List.find?_cons]
    cases hroom : hasRoom db need c with
    | true => simp
    | false => simpa using htail
  · rw [if_neg hregion, List.filter_cons_of_neg (by simp [hregion])]
    exact htail

theorem selectInRegion_eq :
  db.selectInRegion need rid =
   some ((db.listAppClusters.filter fun c => c.regionId = rid).find? (hasRoom db need)) :=
 selectFrom_eq fun _ hc => hc

theorem choose_eq {chosen : Option AppCluster} (hsub : ∀ c ∈ clusters, c ∈ db.listAppClusters) :
  db.choose need chosen clusters =
   some ((clusters.find? (hasRoom db need)).isSome, (clusters.find? (hasRoom db need)).or chosen) := by
 induction clusters with
 | nil => rfl
 | cons c clusters ih =>
  have htail := ih fun c hc => hsub c (List.mem_cons_of_mem _ hc)
  rw [choose, fits_eq (hsub c (List.mem_cons_self ..)), List.find?_cons]
  cases hroom : hasRoom db need c with
  | true => simp
  | false => simpa using htail

theorem regionIds_spec (ids : List Nat) (hnodup : ids.Nodup) :
  let out := clusters.foldl (fun ids c => if c.regionId ∈ ids then ids else ids ++ [c.regionId]) ids
  out.Nodup ∧ ∀ rid, rid ∈ out ↔ rid ∈ ids ∨ ∃ c ∈ clusters, c.regionId = rid := by
 induction clusters generalizing ids with
 | nil => simp [hnodup]
 | cons c clusters ih =>
  rw [List.foldl_cons]
  by_cases hmem : c.regionId ∈ ids
  · rw [if_pos hmem]
    obtain ⟨hout, hiff⟩ := ih ids hnodup
    refine ⟨hout, fun rid => (hiff rid).trans ?_⟩
    rw [List.exists_mem_cons_iff]
    constructor
    · exact .imp_right .inr
    rintro (h | rfl | h)
    · exact .inl h
    · exact .inl hmem
    · exact .inr h
  · rw [if_neg hmem]
    obtain ⟨hout, hiff⟩ := ih (ids ++ [c.regionId]) (hnodup.append (by simp) (by simpa using hmem))
    refine ⟨hout, fun rid => (hiff rid).trans ?_⟩
    rw [List.mem_append, List.mem_singleton, List.exists_mem_cons_iff, eq_comm (a := rid), or_assoc]

theorem nodup_regionIds : (regionIds clusters).Nodup := (regionIds_spec [] List.nodup_nil).1

theorem mem_regionIds : rid ∈ regionIds clusters ↔ ∃ c ∈ clusters, c.regionId = rid := by
 rw [regionIds, (regionIds_spec [] List.nodup_nil).2 rid]
 simp

def Agrees (db : AppDb) (need : AppCapacity) (entry : AppRegionAvailability) : Prop :=
 ∃ found, db.selectInRegion need entry.regionId = some found ∧ entry.available = found.isSome ∧
  ∀ c, found = some c → entry.ingressDomain = c.ingressDomain

theorem regionAvailability_eq (need : AppCapacity) (hrid : rid ∈ regionIds db.listAppClusters) :
  ∃ entry, db.regionAvailability need db.listAppClusters rid = some [entry] ∧ entry.regionId = rid ∧
   Agrees db need entry := by
 obtain ⟨c, hc, hregion⟩ := mem_regionIds.mp hrid
 have hin : c ∈ db.listAppClusters.filter fun c => c.regionId = rid := List.mem_filter.mpr ⟨hc, by simp [hregion]⟩
 obtain ⟨first, hfirst⟩ : ∃ first, (db.listAppClusters.filter fun c => c.regionId = rid).head? = some first := by
  cases hlist : db.listAppClusters.filter fun c => c.regionId = rid with
  | nil => rw [hlist] at hin; exact absurd hin List.not_mem_nil
  | cons first rest => exact ⟨first, rfl⟩
 rw [regionAvailability, choose_eq fun _ hc => List.mem_of_mem_filter hc, hfirst]
 cases hfound : (db.listAppClusters.filter fun c => c.regionId = rid).find? (hasRoom db need) with
 | none =>
  exact ⟨⟨rid, false, first.ingressDomain⟩, rfl, rfl, none, selectInRegion_eq.trans (by rw [hfound]), rfl, nofun⟩
 | some d =>
  refine ⟨⟨rid, true, d.ingressDomain⟩, rfl, rfl, some d, selectInRegion_eq.trans (by rw [hfound]), rfl, ?_⟩
  rintro _ ⟨⟩
  rfl

theorem mapM_regionAvailability (need : AppCapacity) {ids : List Nat}
  (hsub : ∀ rid ∈ ids, rid ∈ regionIds db.listAppClusters) :
  ∃ out, ids.mapM (db.regionAvailability need db.listAppClusters) = some out ∧
   out.flatten.map (·.regionId) = ids ∧ ∀ entry ∈ out.flatten, Agrees db need entry := by
 induction ids with
 | nil => exact ⟨[], rfl, rfl, nofun⟩
 | cons rid ids ih =>
  obtain ⟨out, hout, hids, hagree⟩ := ih fun rid h => hsub rid (List.mem_cons_of_mem _ h)
  obtain ⟨entry, hentry, hrid, hone⟩ := regionAvailability_eq need (hsub rid (List.mem_cons_self ..))
  refine ⟨[entry] :: out, by simp [hentry, hout], by simp [hrid, hids], ?_⟩
  simp only [List.flatten_cons, List.singleton_append, List.forall_mem_cons]
  exact ⟨hone, hagree⟩

/-- A region is reported once, and as available exactly if an order for it would find a cluster; the domain reported
is then that of the cluster. -/
theorem regions_availability_agrees (db : AppDb) (need : AppCapacity) :
  ∃ out, db.regionsAvailability need = some out ∧ (out.map (·.regionId)).Nodup ∧
   (∀ rid, (∃ entry ∈ out, entry.regionId = rid ∧ entry.available = true) ↔
    ∃ cluster, db.selectInRegion need rid = some (some cluster)) ∧
   ∀ entry ∈ out, ∀ cluster, db.selectInRegion need entry.regionId = some (some cluster) →
    entry.available = true ∧ entry.ingressDomain = cluster.ingressDomain := by
 have hall : ∀ rid ∈ AppDb.regionIds db.listAppClusters, rid ∈ AppDb.regionIds db.listAppClusters := fun _ h => h
 obtain ⟨out, hout, hids, hagree⟩ := mapM_regionAvailability need hall
 have hdomain : ∀ entry ∈ out.flatten, ∀ cluster, db.selectInRegion need entry.regionId = some (some cluster) →
   entry.available = true ∧ entry.ingressDomain = cluster.ingressDomain := by
  intro entry hentry cluster hselect
  obtain ⟨found, hfound, havailable, hingress⟩ := hagree entry hentry
  obtain rfl : some cluster = found := Option.some.inj (hselect.symm.trans hfound)
  exact ⟨havailable, hingress cluster rfl⟩
 refine ⟨out.flatten, by simp [AppDb.regionsAvailability, hout], by rw [hids]; exact nodup_regionIds, ?_, hdomain⟩
 intro rid
 constructor
 · rintro ⟨entry, hentry, rfl, havailable⟩
   obtain ⟨found, hfound, hflag, -⟩ := hagree entry hentry
   obtain ⟨cluster, rfl⟩ := Option.isSome_iff_exists.mp (hflag.symm.trans havailable)
   exact ⟨cluster, hfound⟩
 rintro ⟨cluster, hselect⟩
 have hfind := Option.some.inj (selectInRegion_eq.symm.trans hselect)
 obtain ⟨hlisted, hregion⟩ := List.mem_filter.mp (List.mem_of_find?_eq_some hfind)
 have hrid : rid ∈ out.flatten.map (·.regionId) := by
  rw [hids]
  exact mem_regionIds.mpr ⟨cluster, hlisted, of_decide_eq_true hregion⟩
 obtain ⟨entry, hentry, rfl⟩ := List.mem_map.mp hrid
 exact ⟨entry, hentry, rfl, (hdomain entry hentry cluster hselect).1⟩

end AppRegions

end Lnvps
