import Lnvps.Compose

/-! # The paths of a compose document -/

namespace Lnvps.Compose

open Outcome List

def kernelPath (path : String) : List (List Char) :=
 (path.toList.splitOn '/').filter fun segment => segment ≠ [] ∧ segment ≠ ['.']

def normal (path : String) : Bool := path.toList = (kernelPath path).flatMap ('/' :: ·)

variable (svc : Service)

def mountPaths : List String := svc.volumes.map (·.path) ++ svc.files.map (·.path)

structure PathPolicy (svc : Service) : Prop where
 notRoot : ∀ path ∈ mountPaths svc, kernelPath path ≠ []
 outside : ∀ f ∈ svc.files, ∀ v ∈ svc.volumes, ¬kernelPath v.path <+: kernelPath f.path
 distinct : ((mountPaths svc).map kernelPath).Nodup

structure PathsSpelled (svc : Service) : Prop where
 named : ∀ path ∈ mountPaths svc, ∃ segment ∈ path.toList.splitOn '/', segment ≠ [] ∧ segment ≠ ['.']
 shown : ∀ f ∈ svc.files, ∀ v ∈ svc.volumes, kernelPath v.path <+: kernelPath f.path →
  f.path = v.path ∨ (v.path.toList.reverse.dropWhile (· = '/')).reverse ++ ['/'] <+: f.path.toList
 distinct : (mountPaths svc).Pairwise fun path path' => kernelPath path ≠ kernelPath path'

variable {text : ComposeText} {c : Compose} {s : String × Service}

structure PathsChecked (svc : Service) : Prop where
 absolute : ∀ path ∈ mountPaths svc, path.toList.head? = some '/'
 outside : ∀ f ∈ svc.files, ∀ v ∈ svc.volumes, f.path ≠ v.path ∧ pathIsWithin f.path v.path = false

theorem absolute_of_check {service label path : String} (h : checkAbsNoTraversal service label path = .ok ()) :
  path.toList.head? = some '/' := by
 obtain ⟨_, h, -⟩ := bind_eq_ok.mp h
 simpa using h

theorem pathsChecked_of_validate (h : c.validate text = .ok ()) (hs : s ∈ c.services) : PathsChecked s.2 := by
 obtain ⟨_, -, h⟩ := bind_eq_ok.mp h
 have hservice := forM_eq_ok.mp h s hs
 obtain ⟨_, -, hservice⟩ := bind_eq_ok.mp hservice
 obtain ⟨_, -, hservice⟩ := bind_eq_ok.mp hservice
 obtain ⟨_, hvolumes, hservice⟩ := bind_eq_ok.mp hservice
 obtain ⟨_, -, hservice⟩ := bind_eq_ok.mp hservice
 obtain ⟨_, hfiles, -⟩ := bind_eq_ok.mp hservice
 refine ⟨fun path hpath => ?_, fun f hf v hv => ?_⟩
 · rcases mem_append.mp hpath with hpath | hpath
   · obtain ⟨v, hv, rfl⟩ := mem_map.mp hpath
     obtain ⟨_, -, hcheck⟩ := bind_eq_ok.mp (forM_eq_ok.mp hvolumes v hv)
     exact absolute_of_check hcheck
   · obtain ⟨f, hf, rfl⟩ := mem_map.mp hpath
     obtain ⟨_, hcheck, -⟩ := bind_eq_ok.mp (forM_eq_ok.mp hfiles f hf)
     exact absolute_of_check hcheck
 · obtain ⟨_, -, hfile⟩ := bind_eq_ok.mp (forM_eq_ok.mp hfiles f hf)
   have hoverlap := by
    split at hfile
    all_goals exact (bind_eq_ok.mp hfile).choose_spec.2
   simpa using forM_eq_ok.mp hoverlap v hv

theorem trimmed_isPrefix (l : List Char) : (l.reverse.dropWhile (· = '/')).reverse ++ ['/'] <+: l ++ ['/'] := by
 have hslashes : l.reverse.takeWhile (· = '/') = replicate (l.reverse.takeWhile (· = '/')).length '/' :=
  eq_replicate_of_mem fun a ha => by simpa using all_eq_true.mp all_takeWhile a ha
 have hsplit : l = (l.reverse.dropWhile (· = '/')).reverse ++ (l.reverse.takeWhile (· = '/')).reverse := by
  rw [← reverse_append, takeWhile_append_dropWhile, reverse_reverse]
 rw [hslashes, reverse_replicate] at hsplit
 refine ⟨replicate (l.reverse.takeWhile (· = '/')).length '/', ?_⟩
 conv_rhs => rw [hsplit]
 rw [append_assoc, append_assoc, ← replicate_succ', singleton_append, replicate_succ]

theorem pathIsWithin_of_prefix {path dir : String} (hpath : normal path = true) (hdir : normal dir = true)
  (hpre : kernelPath dir <+: kernelPath path) : path = dir ∨ pathIsWithin path dir = true := by
 obtain ⟨rest, hrest⟩ := hpre
 simp only [normal, decide_eq_true_eq] at hpath hdir
 rw [← hrest, List.flatMap_append, ← hdir] at hpath
 rcases rest with _ | ⟨segment, rest⟩
 · left
   exact String.toList_inj.mp (by simpa using hpath)
 right
 unfold pathIsWithin
 rw [List.isPrefixOf_iff_prefix, hpath]
 exact (trimmed_isPrefix dir.toList).trans ⟨segment ++ rest.flatMap ('/' :: ·), by simp⟩

theorem kernelPath_inj {path path' : String} (h : normal path = true) (h' : normal path' = true)
  (heq : kernelPath path = kernelPath path') : path = path' := by
 simp only [normal, decide_eq_true_eq] at h h'
 exact String.toList_inj.mp (by rw [h, h', heq])

theorem pathPolicy_iff_spelled (hchecked : PathsChecked s.2) : PathPolicy s.2 ↔ PathsSpelled s.2 := by
 have hnamed (path : String) : kernelPath path ≠ [] ↔
   ∃ segment ∈ path.toList.splitOn '/', segment ≠ [] ∧ segment ≠ ['.'] := by
  simp [kernelPath]
 constructor
 · rintro ⟨hroot, hout, hdistinct⟩
   exact ⟨fun path hpath => (hnamed path).mp (hroot path hpath), fun f hf v hv hpre => absurd hpre (hout f hf v hv),
    pairwise_map.mp hdistinct⟩
 rintro ⟨hname, hshown, hdistinct⟩
 refine ⟨fun path hpath => (hnamed path).mpr (hname path hpath), fun f hf v hv hpre => ?_, pairwise_map.mpr hdistinct⟩
 obtain ⟨hne, hout⟩ := hchecked.outside f hf v hv
 rcases hshown f hf v hv hpre with heq | hin
 · exact hne heq
 · rw [pathIsWithin, List.isPrefixOf_iff_prefix.mpr hin] at hout
   cases hout

theorem pathPolicy_iff_nodup (hchecked : PathsChecked s.2) (hnormal : ∀ path ∈ mountPaths s.2, normal path = true) :
  PathPolicy s.2 ↔ (mountPaths s.2).Nodup := by
 refine ⟨fun hpolicy => hpolicy.distinct.of_map, fun hnodup => ?_⟩
 refine ⟨fun path hpath hroot => ?_, fun f hf v hv hpre => ?_, ?_⟩
 · have hslash := hchecked.absolute path hpath
   have htext := hnormal path hpath
   simp only [normal, decide_eq_true_eq, hroot] at htext
   simp [htext] at hslash
 · obtain ⟨hne, hout⟩ := hchecked.outside f hf v hv
   have hfile := hnormal f.path (List.mem_append_right _ (List.mem_map_of_mem hf))
   have hvolume := hnormal v.path (List.mem_append_left _ (List.mem_map_of_mem hv))
   rcases pathIsWithin_of_prefix hfile hvolume hpre with heq | hin
   · exact hne heq
   · rw [hout] at hin
     cases hin
 · exact List.Nodup.map_on (fun p hp q hq => kernelPath_inj (hnormal p hp) (hnormal q hq)) hnodup

def oneService : Compose where
 services := [("app", svc)]

def confService : Service where
 image := "app"
 volumes := [{ name := "db", path := "/data", size := "1Gi" }]
 files := [{ path := "/etc/app.conf", content := some "" }]

def rootVolume : Service where
 image := "app"
 volumes := [{ name := "db", path := "//", size := "1Gi" }]

def fileInVolume : Service where
 image := "app"
 volumes := [{ name := "db", path := "/data/.", size := "1Gi" }]
 files := [{ path := "/data/app.conf", content := some "" }]

def doubledVolume : Service where
 image := "app"
 volumes := [{ name := "db", path := "/data", size := "1Gi" }, { name := "media", path := "/data", size := "1Gi" }]

def acceptsUnsafe : Prop :=
 (oneService svc).validate (plainComposeText []) = .ok () ∧ ¬PathPolicy svc

end Lnvps.Compose
