import Lnvps.Lib.Rounding
import Lnvps.Lib.Single
import Lnvps.Lib.Template
import Lnvps.Lib.Text
import Lnvps.AppClusters

/-! # The compose documents of the apps -/

namespace Lnvps

open Table Outcome List

inductive Expose
 | none
 | ingress
 | tcp
 | udp
 deriving DecidableEq

inductive PortProtocol
 | http
 | tcp
 | udp
 deriving DecidableEq

structure Port where
 name : String
 container : Nat
 protocol : PortProtocol := .tcp
 expose : Expose := .none
 path : Option String := none
 deriving DecidableEq

structure Volume where
 (name path size : String)
 deriving DecidableEq

structure ComposeFile where
 path : String
 (content contentFrom : Option String := none)
 sensitive : Bool := false
 deriving DecidableEq

structure Resources where
 cpu : String := "250m"
 memory : String := "256Mi"
 deriving DecidableEq

structure Backup where
 command : Option (List String) := none
 volume : Option String := none
 deriving DecidableEq

structure Service where
 image : String
 ports : List Port := []
 env : List (String × String) := []
 volumes : List Volume := []
 dependsOn : List String := []
 files : List ComposeFile := []
 resources : Resources := {}
 backup : Option Backup := none
 deriving DecidableEq

structure Compose where
 services : List (String × Service)
 secrets : List String := []
 config : List ConfigField := []
 deriving DecidableEq

inductive F64
 | nan
 | infinite (negative : Bool)
 | finite (value : ℚ)

namespace F64

def roundToU64 : F64 → Nat
 | .nan => 0
 | .infinite negative => if negative then 0 else 2 ^ 64 - 1
 | .finite q => min ⌊q + 1 / 2⌋.toNat (2 ^ 64 - 1)

def isNegative : F64 → Bool
 | .nan => false
 | .infinite negative => negative
 | .finite q => q < 0

def scale (factor : ℚ) : F64 → F64
 | .finite q => .finite (Rounding.nearest 53 (q * factor))
 | x => x

end F64

structure ComposeText where
 yaml : String → Except String Compose
 trim : String → String
 parseF64 : String → Option F64

namespace Compose

def parseU64 (s : String) : Option Nat :=
 let digits := match s.toList with
  | '+' :: rest => rest
  | cs => cs
 if digits ≠ [] ∧ digits.all Char.isDigit then
  let n := digits.foldl (fun n c => 10 * n + (c.toNat - '0'.toNat)) 0
  if n < 2 ^ 64 then some n else none
 else none

def stripSuffix (s suffix : String) : Option String :=
 if suffix.toList.reverse.isPrefixOf s.toList.reverse then
  some (String.ofList (s.toList.take (s.toList.length - suffix.toList.length)))
 else none

variable (text : ComposeText)

def parseCpuMilli (s : String) : Except String Nat :=
 let s := text.trim s
 match stripSuffix s "m" with
 | some m => ofOption ("invalid cpu '" ++ s ++ "'") (parseU64 (text.trim m))
 | none => do
  let cores ← ofOption ("invalid cpu '" ++ s ++ "'") (text.parseF64 s)
  ensure (!cores.isNegative) ("negative cpu '" ++ s ++ "'")
  .ok ((cores.scale 1000).roundToU64)

def byteUnits : List (String × Nat) :=
 [("Ki", 2 ^ 10), ("Mi", 2 ^ 20), ("Gi", 2 ^ 30), ("Ti", 2 ^ 40), ("k", 1000), ("M", 1000000), ("G", 1000000000),
  ("T", 1000000000000)]

def parseBytes (s : String) : Except String Nat := do
 let s := text.trim s
 let (num, mult) := (byteUnits.findSome? fun (unit, mult) => (stripSuffix s unit).map (·, mult)).getD (s, 1)
 let n ← ofOption ("invalid size '" ++ s ++ "'") (parseU64 (text.trim num))
 ensure (n * mult < 2 ^ 64) ("size '" ++ s ++ "' overflows")
 .ok (n * mult)

def sumQuantities {α : Type} (quantity : α → Except String Nat) (xs : List α) : Except String Nat := do
 let amounts ← xs.mapM quantity
 .ok (amounts.sum % 2 ^ 64)

def labelled {α : Type} (label : String) : Except String α → Except String α := Except.mapError (label ++ ·)

def footprint (c : Compose) : Except String AppCapacity := do
 let parts ← c.services.mapM fun (sname, svc) => do
  let cpuMilli ← labelled ("service '" ++ sname ++ "': cpu: ") (parseCpuMilli text svc.resources.cpu)
  let memoryBytes ← labelled ("service '" ++ sname ++ "': memory: ") (parseBytes text svc.resources.memory)
  let storageBytes ← sumQuantities (fun v => labelled ("service '" ++ sname ++ "': volume '" ++ v.name ++ "': ")
   (parseBytes text v.size)) svc.volumes
  .ok ({ cpuMilli, memoryBytes, storageBytes } : AppCapacity)
 .ok {
  cpuMilli := (parts.map (·.cpuMilli)).sum % 2 ^ 64
  memoryBytes := (parts.map (·.memoryBytes)).sum % 2 ^ 64
  storageBytes := (parts.map (·.storageBytes)).sum % 2 ^ 64 }

def maxFileBytes : Nat := 256 * 1024

def pathIsWithin (path dir : String) : Bool :=
 let dir := (dir.toList.reverse.dropWhile (· = '/')).reverse
 (dir ++ ['/']).isPrefixOf path.toList

def checkAbsNoTraversal (service label path : String) : Except String Unit := do
 ensure (path.toList.head? = some '/') ("service '" ++ service ++ "': " ++ label ++ " path '" ++ path ++
  "' must be absolute")
 ensure (path ≠ "/") ("service '" ++ service ++ "': " ++ label ++ " path cannot be '/'")
 ensure ((path.toList.splitOn '/').all (· ≠ ['.', '.'])) ("service '" ++ service ++ "': " ++ label ++ " path '" ++
  path ++ "' must not contain '..'")

def validateMountPath (service name path : String) : Except String Unit := do
 ensure (!name.isEmpty ∧ name.toList.all fun c => c.isLower ∨ c.isDigit ∨ c = '-')
  ("service '" ++ service ++ "': volume name '" ++ name ++ "' must be a lowercase slug")
 checkAbsNoTraversal service "volume" path

def validatePort (sname : String) (p : Port) : Except String Unit :=
 ensure (p.expose ≠ .ingress ∨ p.protocol = .http)
  ("service '" ++ sname ++ "' port '" ++ p.name ++ "': expose: ingress requires protocol: http")

def validateFile (c : Compose) (sname : String) (svc : Service) (f : ComposeFile) : Except String Unit := do
 checkAbsNoTraversal sname "file" f.path
 match f.content, f.contentFrom with
 | some _, some _ => .error ("service '" ++ sname ++ "': file '" ++ f.path ++ "' has both content and content_from")
 | none, none => .error ("service '" ++ sname ++ "': file '" ++ f.path ++ "' needs content or content_from")
 | some content, none =>
  ensure (content.utf8ByteSize ≤ maxFileBytes)
   ("service '" ++ sname ++ "': file '" ++ f.path ++ "' content exceeds 262144 bytes")
 | none, some field =>
  ensure (c.config.any fun cf => cf.name = field)
   ("service '" ++ sname ++ "': file '" ++ f.path ++ "' content_from references unknown config field '" ++ field ++
    "'")
 svc.volumes.forM fun v =>
  ensure (f.path ≠ v.path ∧ !pathIsWithin f.path v.path)
   ("service '" ++ sname ++ "': file '" ++ f.path ++ "' overlaps data volume mount '" ++ v.path ++ "'")

def validateBackup (sname : String) (svc : Service) (b : Backup) : Except String Unit :=
 match b.command, b.volume with
 | some _, some _ => .error ("service '" ++ sname ++ "': backup has both command and volume")
 | none, none => .error ("service '" ++ sname ++ "': backup needs either command or volume")
 | none, some vol =>
  ensure (svc.volumes.any fun v => v.name = vol)
   ("service '" ++ sname ++ "': backup volume '" ++ vol ++ "' is not declared")
 | some _, none => .ok ()

def validateService (c : Compose) (sname : String) (svc : Service) : Except String Unit := do
 ensure (!(text.trim svc.image).isEmpty) ("service '" ++ sname ++ "': image is required")
 svc.ports.forM (validatePort sname)
 svc.volumes.forM fun v => validateMountPath sname v.name v.path
 svc.dependsOn.forM fun dep =>
  ensure (c.services.any fun s => s.1 = dep) ("service '" ++ sname ++ "': depends_on unknown service '" ++ dep ++ "'")
 svc.files.forM (validateFile c sname svc)
 match svc.backup with
 | some b => validateBackup sname svc b
 | none => .ok ()

def validate (c : Compose) : Except String Unit := do
 ensure (!c.services.isEmpty) "compose must define at least one service"
 c.services.forM fun (sname, svc) => validateService text c sname svc

def parse (doc : String) : Except String Compose := do
 let c ← labelled "invalid compose YAML: " (text.yaml doc)
 c.validate text
 .ok c

abbrev Vars := List (String × String)

def insertAll (entries : List (String × String)) (vars : Vars) : Vars :=
 entries.foldl (fun vars entry => entry :: vars) vars

def ensureSecrets (c : Compose) (existing : Vars) (fresh : String → String) : Except String Vars := do
 let out := c.secrets.foldl
  (fun out name => if (out.lookup name).isSome then out else (name, fresh name) :: out) existing
 c.secrets.forM fun name => ensure (out.lookup name).isSome ("secret '" ++ name ++ "' missing after generation")
 .ok out

def deploymentHostname (name ingressDomain : String) : String := name ++ "." ++ ingressDomain

def buildVars (generated config : List (String × String)) (hostname : String) : Vars :=
 ("HOSTNAME", hostname) :: insertAll config (insertAll generated [])

def substitute (s : String) (vars : Vars) : Except String String :=
 Template.expand (fun name => ofOption ("unresolved reference '$\x7b" ++ name ++ "\x7d'") (vars.lookup name))
  ("unterminated '$\x7b' in '" ++ s ++ "'") s

def resolveEnv (c : Compose) (vars : Vars) : Except String (List (String × List (String × String))) :=
 c.services.mapM fun (sname, svc) =>
  (svc.env.mapM fun entry => (substitute entry.2 vars).map (entry.1, ·)).map (sname, ·)

structure ResolvedFile where
 (path content : String)
 sensitive : Bool

def resolveFile (vars : Vars) (f : ComposeFile) : Except String ResolvedFile :=
 (match f.content, f.contentFrom with
  | some content, _ => substitute content vars
  | none, some field =>
   ofOption ("file '" ++ f.path ++ "': unresolved config '" ++ field ++ "'") (vars.lookup field)
  | none, none => .error ("file '" ++ f.path ++ "': no content source")).map fun content =>
 { path := f.path, content, sensitive := f.sensitive }

def resolveFiles (c : Compose) (vars : Vars) : Except String (List (String × List ResolvedFile)) :=
 c.services.mapM fun (sname, svc) => (svc.files.mapM (resolveFile vars)).map (sname, ·)

structure Rendered where
 generated : Vars
 env : List (String × List (String × String))
 files : List (String × List ResolvedFile)

def render (c : Compose) (existing : Vars) (fresh : String → String) (config : List (String × String))
  (hostname : String) : Except String Rendered := do
 let generated ← c.ensureSecrets existing fresh
 let vars := buildVars generated config hostname
 let env ← c.resolveEnv vars
 let files ← c.resolveFiles vars
 .ok { generated, env, files }

def bound (c : Compose) (submitted : List (String × String)) (existing : Vars) (name : String) : Bool :=
 name = "HOSTNAME" ∨ (existing.lookup name).isSome ∨ name ∈ c.secrets ∨
  c.config.any fun field => field.name = name ∧ ((submitted.lookup name).or field.default).isSome

def templateBound (c : Compose) (submitted : List (String × String)) (existing : Vars) (template : String) : Bool :=
 match Template.refs template with
 | some names => names.all (c.bound submitted existing)
 | none => false

def fileBound (c : Compose) (submitted : List (String × String)) (existing : Vars) (f : ComposeFile) : Bool :=
 match f.content, f.contentFrom with
 | some content, _ => c.templateBound submitted existing content
 | none, some field => c.bound submitted existing field
 | none, none => true

def closed (c : Compose) (submitted : List (String × String)) (existing : Vars) : Bool :=
 c.services.all fun (_, svc) =>
  (svc.env.all fun (_, v) => c.templateBound submitted existing v) ∧ svc.files.all (c.fileBound submitted existing)

variable {text : ComposeText} {c : Compose} {submitted config : List (String × String)} {existing vars : Vars}
 {fresh : String → String} {name hostname : String}

theorem lookup_isSome_iff {entries : List (String × String)} :
  (entries.lookup name).isSome = true ↔ ∃ entry ∈ entries, entry.1 = name := by
 rw [List.lookup_isSome_iff]
 exact exists_congr fun entry => and_congr_right fun _ => beq_iff_eq.trans eq_comm

theorem insertAll_eq (entries : List (String × String)) (vars : Vars) :
  insertAll entries vars = entries.reverse ++ vars := by
 unfold insertAll
 induction entries generalizing vars with
 | nil => rfl
 | cons entry entries ih => simp [ih]

theorem buildVars_isSome {generated : Vars} : ((buildVars generated config hostname).lookup name).isSome = true ↔
  name = "HOSTNAME" ∨ (config.lookup name).isSome = true ∨ (generated.lookup name).isSome = true := by
 simp only [lookup_isSome_iff, buildVars, insertAll_eq, mem_cons, mem_append, mem_reverse,
  not_mem_nil, or_false]
 constructor
 · rintro ⟨entry, rfl | hmem | hmem, rfl⟩
   · exact .inl rfl
   · exact .inr (.inl ⟨entry, hmem, rfl⟩)
   · exact .inr (.inr ⟨entry, hmem, rfl⟩)
 rintro (rfl | ⟨entry, hmem, rfl⟩ | ⟨entry, hmem, rfl⟩)
 · exact ⟨_, .inl rfl, rfl⟩
 · exact ⟨entry, .inr (.inl hmem), rfl⟩
 · exact ⟨entry, .inr (.inr hmem), rfl⟩

theorem generate_isSome (fresh : String → String) {names : List String} :
  ((names.foldl (fun out n => if (out.lookup n).isSome then out else (n, fresh n) :: out) existing).lookup
   name).isSome = true ↔ (existing.lookup name).isSome = true ∨ name ∈ names := by
 induction names generalizing existing with
 | nil => simp
 | cons n names ih =>
  rw [foldl_cons, ih, mem_cons]
  split
  · rename_i hn
    constructor
    · rintro (h | h)
      · exact .inl h
      · exact .inr (.inr h)
    rintro (h | rfl | h)
    · exact .inl h
    · exact .inl hn
    · exact .inr h
  · rw [lookup_cons]
    by_cases hk : name = n
    · subst hk
      simp
    · have hbeq : (name == n) = false := beq_eq_false_iff_ne.mpr hk
      simp [hbeq, hk]

theorem ensureSecrets_ok (c : Compose) (existing : Vars) (fresh : String → String) :
  ∃ generated, c.ensureSecrets existing fresh = .ok generated ∧
   ∀ name, (generated.lookup name).isSome = true ↔ (existing.lookup name).isSome = true ∨ name ∈ c.secrets := by
 refine ⟨_, ?_, fun _ => generate_isSome fresh⟩
 refine bind_eq_ok.mpr ⟨(), forM_eq_ok.mpr fun name hname => ensure_eq_ok.mpr ?_, rfl⟩
 exact (generate_isSome fresh).mpr (.inr hname)

theorem resolveConfig_isSome (h : AppClusters.resolveConfig c.config submitted = .ok config) :
  (config.lookup name).isSome = true ↔
   ∃ field ∈ c.config, field.name = name ∧ ((submitted.lookup name).or field.default).isSome = true := by
 obtain ⟨_, -, h⟩ := bind_eq_ok.mp h
 obtain ⟨values, hvalues, h⟩ := bind_eq_ok.mp h
 cases h
 rw [lookup_isSome_iff]
 constructor
 · rintro ⟨entry, hentry, rfl⟩
   obtain ⟨l, hl, hentry⟩ := mem_flatten.mp hentry
   obtain ⟨field, hfield, heq⟩ := (mem_of_mapM hvalues).mp hl
   cases hv : (submitted.lookup field.name).or field.default with
   | some v =>
    rw [hv] at heq
    cases heq
    obtain rfl := mem_singleton.mp hentry
    exact ⟨field, hfield, rfl, by rw [hv]; rfl⟩
   | none =>
    rw [hv] at heq
    simp only at heq
    split at heq
    · cases heq
    · cases heq
      cases hentry
 · rintro ⟨field, hfield, rfl, hsome⟩
   obtain ⟨v, hv⟩ := Option.isSome_iff_exists.mp hsome
   refine ⟨(field.name, v), mem_flatten.mpr ⟨[(field.name, v)], ?_, mem_singleton_self _⟩, rfl⟩
   exact (mem_of_mapM hvalues).mpr ⟨field, hfield, by rw [hv]⟩

theorem substitute_ok_iff (s : String) : (∃ out, substitute s vars = .ok out) ↔
  ∃ names, Template.refs s = some names ∧ ∀ name ∈ names, (vars.lookup name).isSome = true := by
 unfold substitute
 rw [Template.expand_ok_iff]
 simp only [ofOption_eq_ok, Option.isSome_iff_exists]

def Binds (c : Compose) (submitted : List (String × String)) (existing vars : Vars) : Prop :=
 ∀ name, (vars.lookup name).isSome = true ↔ c.bound submitted existing name = true

theorem Binds.substitute (h : Binds c submitted existing vars) (s : String) :
  (∃ out, Compose.substitute s vars = .ok out) ↔ c.templateBound submitted existing s = true := by
 rw [substitute_ok_iff, templateBound]
 cases hrefs : Template.refs s with
 | none => simp
 | some names => simp [h _]

theorem Binds.resolveFile (h : Binds c submitted existing vars) {f : ComposeFile}
  (hsource : f.content.isSome = true ∨ f.contentFrom.isSome = true) :
  (∃ r, Compose.resolveFile vars f = .ok r) ↔ c.fileBound submitted existing f = true := by
 unfold Compose.resolveFile fileBound
 rw [map_ok_iff]
 cases hcontent : f.content with
 | some content => exact h.substitute content
 | none =>
  cases hfrom : f.contentFrom with
  | some field => simp only [ofOption_eq_ok, ← h field, Option.isSome_iff_exists]
  | none => simp [hcontent, hfrom] at hsource

theorem Binds.resolveEnv (h : Binds c submitted existing vars) : (∃ env, c.resolveEnv vars = .ok env) ↔
  ∀ s ∈ c.services, ∀ entry ∈ s.2.env, c.templateBound submitted existing entry.2 = true := by
 unfold Compose.resolveEnv
 rw [mapM_ok_iff]
 refine forall₂_congr fun s _ => ?_
 rw [map_ok_iff, mapM_ok_iff]
 refine forall₂_congr fun entry _ => ?_
 rw [map_ok_iff, h.substitute]

theorem Binds.resolveFiles (h : Binds c submitted existing vars)
  (hsource : ∀ s ∈ c.services, ∀ f ∈ s.2.files, f.content.isSome = true ∨ f.contentFrom.isSome = true) :
  (∃ files, c.resolveFiles vars = .ok files) ↔
   ∀ s ∈ c.services, ∀ f ∈ s.2.files, c.fileBound submitted existing f = true := by
 unfold Compose.resolveFiles
 rw [mapM_ok_iff]
 refine forall₂_congr fun s hs => ?_
 rw [map_ok_iff, mapM_ok_iff]
 exact forall₂_congr fun f hf => h.resolveFile (hsource s hs f hf)

theorem source_of_validate (h : c.validate text = .ok ()) {s : String × Service} (hs : s ∈ c.services)
  {f : ComposeFile} (hf : f ∈ s.2.files) : f.content.isSome = true ∨ f.contentFrom.isSome = true := by
 obtain ⟨_, -, h⟩ := bind_eq_ok.mp h
 have hservice := forM_eq_ok.mp h s hs
 obtain ⟨_, -, hservice⟩ := bind_eq_ok.mp hservice
 obtain ⟨_, -, hservice⟩ := bind_eq_ok.mp hservice
 obtain ⟨_, -, hservice⟩ := bind_eq_ok.mp hservice
 obtain ⟨_, -, hservice⟩ := bind_eq_ok.mp hservice
 obtain ⟨_, hfiles, -⟩ := bind_eq_ok.mp hservice
 have hfile := forM_eq_ok.mp hfiles f hf
 obtain ⟨_, -, hfile⟩ := bind_eq_ok.mp hfile
 cases hcontent : f.content with
 | some content => exact .inl rfl
 | none =>
  cases hfrom : f.contentFrom with
  | some field => exact .inr rfl
  | none => simp [hcontent, hfrom, bind, Except.bind] at hfile

theorem binds_buildVars {generated : Vars} (hconfig : AppClusters.resolveConfig c.config submitted = .ok config)
  (hgenerated : ∀ name, (generated.lookup name).isSome = true ↔
   (existing.lookup name).isSome = true ∨ name ∈ c.secrets) :
  Binds c submitted existing (buildVars generated config hostname) := by
 intro name
 rw [buildVars_isSome, hgenerated, resolveConfig_isSome hconfig]
 simp only [bound, decide_eq_true_eq, any_eq_true]
 rw [or_comm (b := (existing.lookup name).isSome = true ∨ name ∈ c.secrets), or_assoc]

/-- An accepted order can be rendered if and only if every reference of the document resolves. -/
theorem render_ok_iff (text : ComposeText) (doc : String) (c : Compose) (submitted config : List (String × String))
  (existing : Vars) (fresh : String → String) (name ingressDomain : String) (hparse : parse text doc = .ok c)
  (hconfig : AppClusters.resolveConfig c.config submitted = .ok config) :
  (∃ rendered, c.render existing fresh config (deploymentHostname name ingressDomain) = .ok rendered) ↔
   c.closed submitted existing = true := by
 have hvalid : c.validate text = .ok () := by
  obtain ⟨c', -, h⟩ := bind_eq_ok.mp hparse
  obtain ⟨_, hvalid, h⟩ := bind_eq_ok.mp h
  cases h
  exact hvalid
 obtain ⟨generated, hensure, hgenerated⟩ := c.ensureSecrets_ok existing fresh
 have hbinds : Binds c submitted existing (buildVars generated config (deploymentHostname name ingressDomain)) :=
  binds_buildVars hconfig hgenerated
 have henv := hbinds.resolveEnv
 have hfiles := hbinds.resolveFiles fun s hs f hf => source_of_validate hvalid hs hf
 have hclosed : c.closed submitted existing = true ↔
   (∀ s ∈ c.services, ∀ entry ∈ s.2.env, c.templateBound submitted existing entry.2 = true) ∧
    ∀ s ∈ c.services, ∀ f ∈ s.2.files, c.fileBound submitted existing f = true := by
  simp only [closed, List.all_eq_true, decide_eq_true_eq]
  exact ⟨fun h => ⟨fun s hs => (h s hs).1, fun s hs => (h s hs).2⟩, fun h s hs => ⟨h.1 s hs, h.2 s hs⟩⟩
 rw [hclosed, ← henv, ← hfiles]
 simp only [render, bind_eq_ok]
 constructor
 · rintro ⟨_, generated', hensure', env, henv', files, hfiles', -⟩
   cases hensure.symm.trans hensure'
   exact ⟨⟨env, henv'⟩, files, hfiles'⟩
 · rintro ⟨⟨env, henv'⟩, files, hfiles'⟩
   exact ⟨_, generated, hensure, env, henv', files, hfiles', rfl⟩

def plainComposeText (docs : List (String × Compose)) : ComposeText where
 yaml doc := ofOption "unknown document" (docs.lookup doc)
 trim s := String.ofList (Text.trim Char.isWhitespace s.toList)
 parseF64 s := (Single.readDecimal s.toList).map .finite

def resolvedYaml : String :=
 "services:\n  relay:\n    image: relay\n    env:\n      URL: wss://$\x7bHOSTNAME\x7d/?key=$\x7bKEY\x7d\n" ++
  "      NAME: $\x7bname\x7d\n    volumes:\n      - name: db\n        path: /data\n        size: 5Gi\n" ++
  "    files:\n      - path: /etc/relay.conf\n        content_from: name\n" ++
  "secrets:\n  - name: KEY\nconfig:\n  - name: name\n    default: relay\n"

def resolvedDoc : Compose where
 services := [("relay", {
  image := "relay", env := [("URL", "wss://$\x7bHOSTNAME\x7d/?key=$\x7bKEY\x7d"), ("NAME", "$\x7bname\x7d")],
  volumes := [{ name := "db", path := "/data", size := "5Gi" }],
  files := [{ path := "/etc/relay.conf", contentFrom := some "name" }] })]
 secrets := ["KEY"]
 config := [{ name := "name", default := some "relay" }]

theorem render_ok_iff_resolved : resolvedDoc.closed [("name", "mine")] [] = true ∧
  ∃ rendered, resolvedDoc.render [] (fun _ => "f00d") [("name", "mine")]
   (deploymentHostname "my-relay" "apps.lnvps.net") = .ok rendered := by
 have hclosed : resolvedDoc.closed [("name", "mine")] [] = true := by decide +kernel
 have hiff := render_ok_iff (plainComposeText [(resolvedYaml, resolvedDoc)]) resolvedYaml resolvedDoc
  [("name", "mine")] [("name", "mine")] [] (fun _ => "f00d") "my-relay" "apps.lnvps.net" (by decide +kernel) rfl
 exact ⟨hclosed, hiff.mpr hclosed⟩

def unknownYaml : String := "services:\n  relay:\n    image: relay\n    env:\n      KEY: $\x7bKEY\x7d\n"

def unknownName : Compose where
 services := [("relay", { image := "relay", env := [("KEY", "$\x7bKEY\x7d")] })]

def unclosedYaml : String := "services:\n  relay:\n    image: relay\n    env:\n      URL: wss://$\x7bHOSTNAME\n"

def unclosedName : Compose where
 services := [("relay", { image := "relay", env := [("URL", "wss://$\x7bHOSTNAME")] })]

def optionalYaml : String :=
 "services:\n  relay:\n    image: relay\n    files:\n      - path: /etc/relay.conf\n        content_from: conf\n" ++
  "config:\n  - name: conf\n"

def optionalSource : Compose where
 services := [("relay", { image := "relay", files := [{ path := "/etc/relay.conf", contentFrom := some "conf" }] })]
 config := [{ name := "conf" }]

def acceptedOnly (doc : String) (c : Compose) : Prop :=
 parse (plainComposeText [(doc, c)]) doc = .ok c ∧ (∃ f, c.footprint (plainComposeText []) = .ok f) ∧
  ∃ config, AppClusters.resolveConfig c.config [] = .ok config ∧
   ∃ e, c.render [] (fun _ => "f00d") config (deploymentHostname "my-relay" "apps.lnvps.net") = .error e

theorem accepted_not_deployable :
  acceptedOnly unknownYaml unknownName ∧ acceptedOnly unclosedYaml unclosedName ∧
   acceptedOnly optionalYaml optionalSource := by
 refine ⟨?_, ?_, ?_⟩
 · exact ⟨by decide +kernel, ⟨_, rfl⟩, _, rfl, _, rfl⟩
 · exact ⟨by decide +kernel, ⟨_, rfl⟩, _, rfl, _, rfl⟩
 · exact ⟨by decide +kernel, ⟨_, rfl⟩, _, rfl, _, rfl⟩

end Compose

end Lnvps
