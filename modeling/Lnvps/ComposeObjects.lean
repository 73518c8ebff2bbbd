import Lnvps.Compose

/-! # The objects of a rendered app -/

namespace Lnvps.Compose

open Outcome List Option

inductive VolumeSource
 | claim (name : String)
 | configMap (name : String)
 | secret (name : String)

structure PodVolume where
 name : String
 source : VolumeSource

structure VolumeMount where
 (name mountPath : String)
 subPath : Option String := none
 readOnly : Bool := false

structure Pod where
 volumes : List PodVolume
 mounts : List VolumeMount

structure Objects where
 claims : List (String × String)
 (configMaps secrets : List (String × Vars))
 pods : List (String × Pod)

def claimName (service name : String) : String := service ++ "-" ++ name

def buildPvc (service : String) (v : Volume) : String × String := (claimName service v.name, v.size)

def fileKey (path : String) : String :=
 String.ofList ((path.toList.dropWhile (· = '/')).map fun c => if c = '/' then '-' else c)

def fileData (files : List ResolvedFile) : List (String × String) := files.map fun f => (fileKey f.path, f.content)

def buildFilesConfigmap (service : String) (files : List ResolvedFile) : Option (String × Vars) :=
 let data := insertAll (fileData (files.filter (!·.sensitive))) []
 if data.isEmpty then none else some (service ++ "-files", data)

def buildSecret (service : String) (generated : Vars) (files : List ResolvedFile) : Option (String × Vars) :=
 let data := insertAll (fileData (files.filter (·.sensitive))) generated
 if data.isEmpty then none else some (service ++ "-secret", data)

def fileMount (f : ResolvedFile) : VolumeMount where
 name := if f.sensitive then "files-secret" else "files-cm"
 mountPath := f.path
 subPath := some (fileKey f.path)
 readOnly := true

def fileVolumes (service : String) (files : List ResolvedFile) : List PodVolume :=
 (if files.any (!·.sensitive) then [⟨"files-cm", .configMap (service ++ "-files")⟩] else []) ++
  if files.any (·.sensitive) then [⟨"files-secret", .secret (service ++ "-secret")⟩] else []

def buildDeployment (service : String) (svc : Service) (files : List ResolvedFile) : Pod where
 volumes := svc.volumes.map (fun v => ⟨claimName service v.name, .claim (claimName service v.name)⟩) ++
  fileVolumes service files
 mounts := svc.volumes.map (fun v => { name := claimName service v.name, mountPath := v.path }) ++ files.map fileMount

def filesOf (files : List (String × List ResolvedFile)) (service : String) : List ResolvedFile :=
 (files.lookup service).getD []

def objects (c : Compose) (generated : Vars) (files : List (String × List ResolvedFile)) : Objects where
 claims := c.services.flatMap fun s => s.2.volumes.map (buildPvc s.1)
 configMaps := c.services.filterMap fun s => buildFilesConfigmap s.1 (filesOf files s.1)
 secrets := ("generated", generated) :: c.services.filterMap fun s => buildSecret s.1 [] (filesOf files s.1)
 pods := c.services.map fun s => (s.1, buildDeployment s.1 s.2 (filesOf files s.1))

def Objects.content (o : Objects) (pod : Pod) (m : VolumeMount) : Option (Bool × String) := do
 let vol ← pod.volumes.find? (·.name = m.name)
 let key ← m.subPath
 match vol.source with
 | .configMap name => ((o.configMaps.lookup name).bind (·.lookup key)).map (false, ·)
 | .secret name => ((o.secrets.lookup name).bind (·.lookup key)).map (true, ·)
 | .claim _ => none

structure KeptApart (c : Compose) (generated vars : Vars) (files : List (String × List ResolvedFile)) : Prop where
 claims : ∀ s ∈ c.services, ∀ v ∈ s.2.volumes, ∀ s' ∈ c.services, ∀ v' ∈ s'.2.volumes,
  claimName s.1 v.name = claimName s'.1 v'.name → s.1 = s'.1 ∧ v.name = v'.name
 volumes : ∀ s ∈ c.services, ((buildDeployment s.1 s.2 (filesOf files s.1)).volumes.map (·.name)).Nodup
 files : ∀ s ∈ c.services, ∀ f ∈ s.2.files, ∃ r, resolveFile vars f = .ok r ∧
  fileMount r ∈ (buildDeployment s.1 s.2 (filesOf files s.1)).mounts ∧
  (c.objects generated files).content (buildDeployment s.1 s.2 (filesOf files s.1)) (fileMount r) =
   some (f.sensitive, r.content)

structure ClashFree (c : Compose) (files : List (String × List ResolvedFile)) : Prop where
 claims : ∀ s ∈ c.services, ∀ v ∈ s.2.volumes, ∀ s' ∈ c.services, ∀ v' ∈ s'.2.volumes, ∀ word,
  s'.1 = s.1 ++ "-" ++ word → v.name ≠ word ++ "-" ++ v'.name
 volumes : ∀ s ∈ c.services, (s.2.volumes.map (·.name)).Nodup
 reserved : ∀ s ∈ c.services, ∀ v ∈ s.2.volumes, ∀ f ∈ filesOf files s.1, claimName s.1 v.name ≠ (fileMount f).name
 keys : ∀ s ∈ c.services, ∀ f ∈ filesOf files s.1, ∀ f' ∈ filesOf files s.1, f.sensitive = f'.sensitive →
  fileKey f.path = fileKey f'.path → f.content = f'.content

variable {c : Compose} {generated vars : Vars} {files : List (String × List ResolvedFile)}

theorem claimName_eq_cases {service name service' name' : String}
  (h : claimName service name = claimName service' name') : (service = service' ∧ name = name') ∨
   (∃ word, service' = service ++ "-" ++ word ∧ name = word ++ "-" ++ name') ∨
    ∃ word, service = service' ++ "-" ++ word ∧ name' = word ++ "-" ++ name := by
 simp only [claimName, ← String.toList_inj, String.toList_append, append_assoc] at h ⊢
 change service.toList ++ '-' :: name.toList = service'.toList ++ '-' :: name'.toList at h
 rcases append_eq_append_iff.mp h with ⟨_ | ⟨c, word⟩, hs, hn⟩ | ⟨_ | ⟨c, word⟩, hs, hn⟩
 · exact .inl ⟨by simpa using hs.symm, by simpa using hn⟩
 · obtain ⟨rfl, hn⟩ := cons.inj hn
   exact .inr (.inl ⟨String.ofList word, by simpa using hs, by simpa using hn⟩)
 · exact .inl ⟨by simpa using hs, by simpa using hn.symm⟩
 · obtain ⟨rfl, hn⟩ := cons.inj hn
   exact .inr (.inr ⟨String.ofList word, by simpa using hs, by simpa using hn⟩)

theorem claims_iff : (∀ s ∈ c.services, ∀ v ∈ s.2.volumes, ∀ s' ∈ c.services, ∀ v' ∈ s'.2.volumes,
   claimName s.1 v.name = claimName s'.1 v'.name → s.1 = s'.1 ∧ v.name = v'.name) ↔
  ∀ s ∈ c.services, ∀ v ∈ s.2.volumes, ∀ s' ∈ c.services, ∀ v' ∈ s'.2.volumes, ∀ word,
   s'.1 = s.1 ++ "-" ++ word → v.name ≠ word ++ "-" ++ v'.name := by
 constructor
 · intro h s hs v hv s' hs' v' hv' word hservice hname
   have hsame := (h s hs v hv s' hs' v' hv' (by simp [claimName, hservice, hname, String.append_assoc])).1
   have hlength := congrArg String.length (hsame.trans hservice)
   rw [String.length_append, String.length_append, show "-".length = 1 from rfl] at hlength
   omega
 · intro h s hs v hv s' hs' v' hv' heq
   rcases claimName_eq_cases heq with hsame | ⟨word, hservice, hname⟩ | ⟨word, hservice, hname⟩
   · exact hsame
   · exact absurd hname (h s hs v hv s' hs' v' hv' word hservice)
   · exact absurd hname (h s' hs' v' hv' s hs v hv word hservice)

theorem lookup_built {services : List (String × Service)} {build : String → Option (String × Vars)} {suffix : String}
  {data : Vars} (hname : ∀ n o, build n = some o → o.1 = n ++ suffix) {s : String × Service} (hs : s ∈ services)
  (hdata : build s.1 = some (s.1 ++ suffix, data)) :
  (services.filterMap fun s => build s.1).lookup (s.1 ++ suffix) = some data := by
 induction services with
 | nil => cases hs
 | cons head rest ih =>
  rw [filterMap_cons]
  cases hhead : build head.1 with
  | none =>
   rcases mem_cons.mp hs with rfl | hs
   · rw [hhead] at hdata
     cases hdata
   · exact ih hs
  | some o =>
   obtain ⟨key, content⟩ := o
   obtain rfl : key = head.1 ++ suffix := hname _ _ hhead
   by_cases hn : s.1 = head.1
   · rw [hn, hhead] at hdata
     simp [hn, (Prod.mk.inj (Option.some.inj hdata)).2]
   · have hne : (s.1 ++ suffix == head.1 ++ suffix) = false := by simpa using hn
     simp only [lookup_cons, hne]
     exact ih ((mem_cons.mp hs).resolve_left fun h => hn (h ▸ rfl))

def dataOf (files : List ResolvedFile) (sensitive : Bool) : Vars :=
 insertAll (fileData (files.filter (·.sensitive == sensitive))) []

theorem mem_dataOf {files : List ResolvedFile} {sensitive : Bool} {entry : String × String} :
  entry ∈ dataOf files sensitive ↔ ∃ f ∈ files, f.sensitive = sensitive ∧ (fileKey f.path, f.content) = entry := by
 simp [dataOf, insertAll_eq, fileData, and_assoc]

variable {fs : List ResolvedFile} {f r : ResolvedFile} {s : String × Service}

theorem fileVolumes_find (hf : f ∈ fs) (service : String) :
  (fileVolumes service fs).find? (·.name = (fileMount f).name) = some ⟨(fileMount f).name,
   if f.sensitive then .secret (service ++ "-secret") else .configMap (service ++ "-files")⟩ := by
 have hany : fs.any (fun f' => f'.sensitive == f.sensitive) = true := any_eq_true.mpr ⟨f, hf, by simp⟩
 unfold fileVolumes fileMount
 cases hsens : f.sensitive with
 | false =>
  simp only [hsens, beq_false] at hany
  simp [hany]
 | true =>
  simp only [hsens, beq_true] at hany
  rw [hany]
  cases fs.any (!·.sensitive) <;> simp

theorem content_fileMount (hs : s ∈ c.services)
  (hf : f ∈ filesOf files s.1) (hfree : ∀ v ∈ s.2.volumes, claimName s.1 v.name ≠ (fileMount f).name) :
  (c.objects generated files).content (buildDeployment s.1 s.2 (filesOf files s.1)) (fileMount f) =
   ((dataOf (filesOf files s.1) f.sensitive).lookup (fileKey f.path)).map (f.sensitive, ·) := by
 have hclaims : (s.2.volumes.map fun v => (⟨claimName s.1 v.name, .claim (claimName s.1 v.name)⟩ : PodVolume)).find?
   (·.name = (fileMount f).name) = none := by
  simpa using hfree
 have hdata : (dataOf (filesOf files s.1) f.sensitive).isEmpty = false := by
  rw [isEmpty_eq_false_iff]
  exact ne_nil_of_mem (mem_dataOf.mpr ⟨f, hf, rfl, rfl⟩)
 unfold Objects.content buildDeployment
 simp only [List.find?_append, hclaims, none_or, fileVolumes_find hf]
 cases hsens : f.sensitive with
 | false =>
  rw [hsens] at hdata
  have hbuilt := @lookup_built c.services (fun n => buildFilesConfigmap n (filesOf files n)) "-files"
   (dataOf (filesOf files s.1) false) (by grind [buildFilesConfigmap]) s hs
   (by simpa [buildFilesConfigmap, dataOf] using hdata)
  simp [fileMount, objects, hbuilt]
 | true =>
  rw [hsens] at hdata
  have hbuilt := @lookup_built c.services (fun n => buildSecret n [] (filesOf files n)) "-secret"
   (dataOf (filesOf files s.1) true) (by grind [buildSecret]) s hs
   (by simpa [buildSecret, dataOf] using hdata)
  have hother : s.1 ++ "-secret" ≠ "generated" := by
   intro h
   have hmem : '-' ∈ "generated".toList := h ▸ by simp
   exact absurd hmem (by decide)
  have hsecret : (c.objects generated files).secrets.lookup (s.1 ++ "-secret") =
    some (dataOf (filesOf files s.1) true) := by
   rw [objects, lookup_cons, beq_false_of_ne hother]
   exact hbuilt
  simp [fileMount, hsecret]

theorem files_iff {s : String × Service} (hs : s ∈ c.services)
  (hreserved : ∀ v ∈ s.2.volumes, ∀ f ∈ filesOf files s.1, claimName s.1 v.name ≠ (fileMount f).name) :
  (∀ f ∈ filesOf files s.1,
   (c.objects generated files).content (buildDeployment s.1 s.2 (filesOf files s.1)) (fileMount f) =
    some (f.sensitive, f.content)) ↔
  ∀ f ∈ filesOf files s.1, ∀ f' ∈ filesOf files s.1, f.sensitive = f'.sensitive →
   fileKey f.path = fileKey f'.path → f.content = f'.content := by
 have hcontent : ∀ f ∈ filesOf files s.1,
   (c.objects generated files).content (buildDeployment s.1 s.2 (filesOf files s.1)) (fileMount f) = _ :=
  fun f hf => content_fileMount hs hf fun v hv => hreserved v hv f hf
 constructor
 · intro h f hf f' hf' hsens hkey
   have hlookup := (hcontent f hf).symm.trans (h f hf)
   have hlookup' := (hcontent f' hf').symm.trans (h f' hf')
   rw [hsens, hkey, hlookup'] at hlookup
   simpa [hsens] using hlookup.symm
 · intro h f hf
   rw [hcontent f hf]
   have hmem : (fileKey f.path, f.content) ∈ dataOf (filesOf files s.1) f.sensitive := mem_dataOf.mpr ⟨f, hf, rfl, rfl⟩
   obtain ⟨content, hlookup⟩ := isSome_iff_exists.mp (lookup_isSome_iff.mpr ⟨_, hmem, rfl⟩)
   obtain ⟨l, l', hl, -⟩ := lookup_eq_some_iff.mp hlookup
   obtain ⟨f', hf', hsens, hentry⟩ := mem_dataOf.mp (hl ▸ mem_append_right l mem_cons_self)
   obtain ⟨hkey, rfl⟩ := Prod.mk.inj hentry
   rw [hlookup, h f hf f' hf' hsens.symm hkey.symm]
   rfl

theorem volumes_iff :
  ((buildDeployment s.1 s.2 fs).volumes.map (·.name)).Nodup ↔ (s.2.volumes.map (·.name)).Nodup ∧
   ∀ v ∈ s.2.volumes, ∀ f ∈ fs, claimName s.1 v.name ≠ (fileMount f).name := by
 have hinj : Function.Injective (claimName s.1) := fun v v' h => by simpa [claimName] using h
 have hnames : (buildDeployment s.1 s.2 fs).volumes.map (·.name) =
   (s.2.volumes.map (·.name)).map (claimName s.1) ++ (fileVolumes s.1 fs).map (·.name) := by
  simp [buildDeployment]
 have hmem : ∀ name, name ∈ (fileVolumes s.1 fs).map (·.name) ↔ ∃ f ∈ fs, (fileMount f).name = name := by
  intro name
  constructor
  · intro h
    simp only [fileVolumes, map_append, mem_append] at h
    rcases h with h | h
    all_goals
     split at h
     · rename_i hany
       obtain ⟨f, hf, hsens⟩ := any_eq_true.mp hany
       exact ⟨f, hf, by simp_all [fileMount]⟩
     · cases h
  · rintro ⟨f, hf, rfl⟩
    exact mem_map.mpr ⟨_, mem_of_find?_eq_some (fileVolumes_find hf s.1), rfl⟩
 have hfiles : ((fileVolumes s.1 fs).map (·.name)).Nodup := by
  unfold fileVolumes
  split <;> split <;> simp
 rw [hnames, nodup_append, nodup_map_iff hinj]
 refine and_congr_right fun _ => ⟨fun h v hv f hf => ?_, fun h => ⟨hfiles, ?_⟩⟩
 · exact h.2 _ (mem_map_of_mem (mem_map_of_mem hv)) _ ((hmem _).mpr ⟨f, hf, rfl⟩)
 intro a ha b hb
 obtain ⟨f, hf, rfl⟩ := (hmem b).mp hb
 simp only [List.mem_map, exists_exists_and_eq_and] at ha
 obtain ⟨v, hv, rfl⟩ := ha
 exact h v hv f hf

theorem mem_filesOf (hnames : (c.services.map (·.1)).Nodup) (hresolved : c.resolveFiles vars = .ok files)
  (hs : s ∈ c.services) : r ∈ filesOf files s.1 ↔ ∃ f ∈ s.2.files, resolveFile vars f = .ok r := by
 unfold resolveFiles at hresolved
 generalize c.services = services at *
 induction services generalizing files with
 | nil => cases hs
 | cons head rest ih =>
  obtain ⟨entry, files', hentry, hrest, rfl⟩ := mapM_cons_eq_ok.mp hresolved
  obtain ⟨l, hl, rfl⟩ := map_eq_ok.mp hentry
  rw [map_cons, nodup_cons] at hnames
  rcases mem_cons.mp hs with rfl | hs
  · rw [← mem_of_mapM hl]
    simp [filesOf]
  have hne : (s.1 == head.1) = false := by
   refine beq_false_of_ne fun h => hnames.1 ?_
   rw [← h]
   exact mem_map_of_mem hs
  rw [filesOf, lookup_cons, hne]
  exact ih hnames.2 hrest hs

theorem sensitive_of_resolveFile {f : ComposeFile} (h : resolveFile vars f = .ok r) : r.sensitive = f.sensitive := by
 obtain ⟨content, -, rfl⟩ := map_eq_ok.mp h
 rfl

theorem keptApart_iff (c : Compose) (generated vars : Vars) (files : List (String × List ResolvedFile))
  (hnames : (c.services.map (·.1)).Nodup) (hresolved : c.resolveFiles vars = .ok files) :
  KeptApart c generated vars files ↔ ClashFree c files := by
 constructor
 · intro h
   have hvolumes := fun s hs => volumes_iff.mp (h.volumes s hs)
   refine ⟨claims_iff.mp h.claims, fun s hs => (hvolumes s hs).1, fun s hs => (hvolumes s hs).2, fun s hs => ?_⟩
   refine (@files_iff c generated files s hs (hvolumes s hs).2).mp fun r hr => ?_
   obtain ⟨f, hf, hr⟩ := (mem_filesOf hnames hresolved hs).mp hr
   obtain ⟨r', hr', -, hcontent⟩ := h.files s hs f hf
   cases hr.symm.trans hr'
   rw [hcontent, sensitive_of_resolveFile hr]
 · intro h
   refine ⟨claims_iff.mpr h.claims, fun s hs => volumes_iff.mpr ⟨h.volumes s hs, h.reserved s hs⟩, fun s hs f hf => ?_⟩
   obtain ⟨entry, hentry⟩ := mapM_ok_iff.mp ⟨files, hresolved⟩ s hs
   obtain ⟨l, hl, -⟩ := map_eq_ok.mp hentry
   obtain ⟨r, hr⟩ := mapM_ok_iff.mp ⟨l, hl⟩ f hf
   have hmem := (mem_filesOf hnames hresolved hs).mpr ⟨f, hf, hr⟩
   refine ⟨r, hr, mem_append_right _ (mem_map_of_mem hmem), ?_⟩
   rw [← sensitive_of_resolveFile hr]
   exact (files_iff hs (h.reserved s hs)).mpr (h.keys s hs) r hmem

def serviceWith (volumes : List String) (files : List (String × String)) : Service where
 image := "app"
 volumes := volumes.map fun name => { name, path := "/" ++ name, size := "1Gi" }
 files := files.map fun f => { path := f.1, content := some f.2 }

def twoServices : Compose where
 services := [("db", serviceWith ["data"] []), ("web", serviceWith ["data"] [("/etc/a", "A"), ("/etc/b", "B")])]

theorem keptApart_twoServices : ∃ files, twoServices.resolveFiles [] = .ok files ∧
  KeptApart twoServices [] [] files := by
 refine ⟨_, rfl, (keptApart_iff twoServices [] [] _ (by decide) rfl).mpr ⟨claims_iff.mp ?_, ?_, ?_, ?_⟩⟩
 all_goals decide +kernel

def clashingClaims : Compose where
 services := [("a", serviceWith ["b-c"] []), ("a-b", serviceWith ["c"] [])]

def reservedVolume : Compose where
 services := [("files", serviceWith ["cm"] [("/etc/app.conf", "A")])]

def clashingKeys : Compose where
 services := [("web", serviceWith [] [("/etc/a-b", "A"), ("/etc/a/b", "B")])]

def acceptsClash (c : Compose) : Prop := c.validate (plainComposeText []) = .ok () ∧
 ∃ files, c.resolveFiles [] = .ok files ∧ ¬KeptApart c [] [] files

theorem objects_clash : acceptsClash clashingClaims ∧ acceptsClash reservedVolume ∧ acceptsClash clashingKeys := by
 refine ⟨⟨rfl, _, rfl, fun h => ?_⟩, ⟨rfl, _, rfl, fun h => ?_⟩, ⟨rfl, _, rfl, fun h => ?_⟩⟩
 · exact absurd h.claims (by decide +kernel)
 · exact absurd h.volumes (by decide +kernel)
 obtain ⟨r, hr, -, hcontent⟩ := h.files _ (mem_singleton_self _) { path := "/etc/a-b", content := some "A" }
  (by decide)
 cases hr
 exact absurd hcontent (by decide +kernel)

end Lnvps.Compose
