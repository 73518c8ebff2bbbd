import Lnvps.Lib.Calls
import Lnvps.Lib.Text
import Lnvps.Placement

/-! # App deployments on clusters -/

namespace Lnvps

open Table Outcome Steps Calls List

structure AppCapacity where
 (cpuMilli memoryBytes storageBytes : Nat := 0)
 deriving DecidableEq

inductive AppResource
 | cpu
 | memory
 | storage

def AppCapacity.amount (c : AppCapacity) : AppResource → Nat
 | .cpu => c.cpuMilli
 | .memory => c.memoryBytes
 | .storage => c.storageBytes

structure App where
 id : Nat
 (displayName compose : String := "")
 price : Nat := 0
 currency : Currency := .eur
 intervalAmount : Nat := 1
 intervalType : IntervalType := .month
 setupAmount : Nat := 0
 enabled : Bool := true
 (cpuMilli memoryBytes storageBytes : Nat := 0)

def App.footprint (app : App) : AppCapacity where
 cpuMilli := app.cpuMilli
 memoryBytes := app.memoryBytes
 storageBytes := app.storageBytes

structure AppCluster where
 (id regionId : Nat)
 ingressDomain : String := ""
 enabled : Bool := true
 (capacityCpuMilli capacityMemoryBytes capacityStorageBytes : Nat := 0)

def AppCluster.capacity (cluster : AppCluster) : AppCapacity where
 cpuMilli := cluster.capacityCpuMilli
 memoryBytes := cluster.capacityMemoryBytes
 storageBytes := cluster.capacityStorageBytes

inductive DesiredState
 | running
 | stopped
 deriving DecidableEq

inductive DeploymentStatus
 | pending
 | running
 | stopped
 | error
 | deleting

structure AppDeployment where
 (id userId appId clusterId subscriptionLineItemId : Nat)
 name : String
 kubeNamespace : String := ""
 hostname : Option String := none
 config : List (String × String) := []
 desiredState : DesiredState := .running
 status : DeploymentStatus := .pending
 statusMessage : Option String := none
 deleted : Bool := false

structure AppDb extends PlacementDb where
 apps : List App := []
 appClusters : List AppCluster := []
 appDeployments : List AppDeployment := []
 nextDeploymentId : Nat := 1

namespace AppDb

variable (db : AppDb)

def getApp (id : Nat) : Option App := lookup (·.id) id db.apps

def listAppClusters : List AppCluster := db.appClusters.filter (·.enabled)

def getAppCluster (id : Nat) : Option AppCluster := lookup (·.id) id db.appClusters

def listAllAppDeployments : List AppDeployment := db.appDeployments.filter (!·.deleted)

def getAppDeployment (id : Nat) : Option AppDeployment := lookup (·.id) id db.appDeployments

def insertAppDeployment (deployment : AppDeployment) : Nat × AppDb :=
 (db.nextDeploymentId, { db with
  appDeployments := db.appDeployments ++ [{ deployment with id := db.nextDeploymentId, deleted := false }]
  nextDeploymentId := db.nextDeploymentId + 1 })

def updateAppDeployment (deployment : AppDeployment) : AppDb := { db with
 appDeployments := updateWhere (fun d => d.id = deployment.id)
  (fun d => { d with
   name := deployment.name
   kubeNamespace := deployment.kubeNamespace
   hostname := deployment.hostname
   config := deployment.config
   desiredState := deployment.desiredState
   status := deployment.status
   statusMessage := deployment.statusMessage
   deleted := deployment.deleted }) db.appDeployments }

def deleteAppDeployment (id : Nat) : AppDb := { db with
 appDeployments := updateWhere (fun d => d.id = id) (fun d => { d with deleted := true }) db.appDeployments }

def footprintOf (appId : Nat) : AppCapacity := ((db.getApp appId).map (·.footprint)).getD {}

def usedAmount (clusterId : Nat) (r : AppResource) : Nat :=
 total (fun d => d.clusterId = clusterId) (fun d => (db.footprintOf d.appId).amount r) db.listAllAppDeployments

def used (clusterId : Nat) : AppCapacity where
 cpuMilli := db.usedAmount clusterId .cpu
 memoryBytes := db.usedAmount clusterId .memory
 storageBytes := db.usedAmount clusterId .storage

def available (clusterId : Nat) : Option AppCapacity :=
 (db.getAppCluster clusterId).map fun cluster => {
  cpuMilli := cluster.capacityCpuMilli - (db.used clusterId).cpuMilli
  memoryBytes := cluster.capacityMemoryBytes - (db.used clusterId).memoryBytes
  storageBytes := cluster.capacityStorageBytes - (db.used clusterId).storageBytes }

def fits (clusterId : Nat) (need : AppCapacity) : Option Bool :=
 (db.available clusterId).map fun avail => need.cpuMilli ≤ avail.cpuMilli ∧ need.memoryBytes ≤ avail.memoryBytes ∧
  need.storageBytes ≤ avail.storageBytes

end AppDb

structure ConfigField where
 name : String
 default : Option String := none
 required : Bool := false
 deriving DecidableEq

structure AppText where
 trim : String → String
 parseCompose : String → Except String (List ConfigField)

inductive AppError
 | message (text : String)
 | database

structure CreateAppDeploymentRequest where
 (userId appId regionId : Nat)
 name : String
 config : List (String × String) := []

namespace AppClusters

variable (text : AppText)

def validateDeploymentName (name : String) : Except AppError Unit := do
 let n := text.trim name
 ensure (!n.isEmpty ∧ n.utf8ByteSize ≤ 40) (.message "name must be 1–40 characters")
 ensure ((n.toList.all fun c => c.isLower ∨ c.isDigit ∨ c = '-') ∧ n.toList.head? ≠ some '-' ∧
   n.toList.getLast? ≠ some '-')
  (.message "name must be a DNS-safe label (lowercase letters, digits, hyphens)")

def resolveConfig (fields : List ConfigField) (submitted : List (String × String)) :
  Except AppError (List (String × String)) := do
 (submitted.find? fun entry => !fields.any fun field => field.name = entry.1).elim (.ok ()) fun entry =>
  .error (.message ("unknown config field '" ++ entry.1 ++ "'"))
 let values ← fields.mapM fun field =>
  match (submitted.lookup field.name).or field.default with
  | some v => .ok [(field.name, v)]
  | none =>
   if field.required then .error (.message ("config field '" ++ field.name ++ "' is required")) else .ok []
 .ok values.flatten

def checkRequest (app : App) (req : CreateAppDeploymentRequest) :
  Except AppError (List (String × String)) := do
 ensure app.enabled (.message "App is not available")
 validateDeploymentName text req.name
 match text.parseCompose app.compose with
 | .error e => .error (.message ("app compose is invalid: " ++ e))
 | .ok fields => resolveConfig fields req.config

inductive Phase
 | getApp (req : CreateAppDeploymentRequest)
 | listClusters (req : CreateAppDeploymentRequest) (app : App)
 | check (req : CreateAppDeploymentRequest) (app : App) (clusters : List AppCluster)
 | getRegion (req : CreateAppDeploymentRequest) (app : App) (cluster : AppCluster)
 | bill (req : CreateAppDeploymentRequest) (app : App) (cluster : AppCluster) (region : Region)
 | insert (deployment : AppDeployment)
 | finalize (deployment : AppDeployment)
 | getDeployment (userId id : Nat)
 | getSubscription (deployment : AppDeployment)
 | updateSubscription (deployment : AppDeployment) (subscription : Subscription)
 | delete (id : Nat)
 | ended (result : Except AppError Unit)

structure Answer where
 now : Int := 0
 fails : Bool := false

def Phase.failed : Phase → Phase
 | .getSubscription d => .delete d.id
 | .updateSubscription d _ => .delete d.id
 | .ended result => .ended result
 | _ => .ended (.error .database)

def query (a : Answer) (db : AppDb) : Phase → AppDb × Phase
 | .getApp req =>
  match db.getApp req.appId with
  | none => (db, .ended (.error .database))
  | some app =>
   match checkRequest text app req with
   | .error e => (db, .ended (.error e))
   | .ok config => (db, .listClusters { req with config } app)
 | .listClusters req app => (db, .check req app (db.listAppClusters.filter fun c => c.regionId = req.regionId))
 | .check req app clusters =>
  match clusters with
  | [] => (db, .ended (.error (.message "No cluster with enough capacity is available in this region")))
  | cluster :: rest =>
   match db.fits cluster.id app.footprint with
   | none => (db, .ended (.error .database))
   | some true => (db, .getRegion req app cluster)
   | some false => (db, .check req app rest)
 | .getRegion req app cluster =>
  match db.getHostRegion cluster.regionId with
  | none => (db, .ended (.error .database))
  | some region => (db, .bill req app cluster region)
 | .bill req app cluster region =>
  let (lineItemId, p) := db.insertSubscriptionWithLineItems
   { id := 0, userId := req.userId, companyId := region.companyId, created := a.now, currency := app.currency,
     intervalAmount := app.intervalAmount, intervalType := app.intervalType, setupFee := app.setupAmount,
     autoRenewalEnabled := true }
   { id := 0, subscriptionId := 0, subscriptionType := .app, amount := app.price, setupAmount := app.setupAmount }
  ({ db with toPlacementDb := p }, .insert {
   id := 0, userId := req.userId, appId := app.id, clusterId := cluster.id, subscriptionLineItemId := lineItemId,
   name := text.trim req.name, kubeNamespace := "app-pending-" ++ toString lineItemId, config := req.config })
 | .insert deployment =>
  let (id, db) := db.insertAppDeployment deployment
  (db, .finalize { deployment with id, kubeNamespace := "app-" ++ toString id })
 | .finalize deployment => (db.updateAppDeployment deployment, .ended (.ok ()))
 | .getDeployment userId id =>
  match db.getAppDeployment id with
  | none => (db, .ended (.error .database))
  | some d => if d.userId ≠ userId ∨ d.deleted then (db, .ended (.error (.message "Deployment not found")))
   else (db, .getSubscription d)
 | .getSubscription d =>
  match db.db.getSubscriptionByLineItemId d.subscriptionLineItemId with
  | none => (db, .delete d.id)
  | some sub => (db, .updateSubscription d { sub with isActive := false, autoRenewalEnabled := false })
 | .updateSubscription d sub => ({ db with db := db.db.updateSubscription sub }, .delete d.id)
 | .delete id => (db.deleteAppDeployment id, .ended (.ok ()))
 | .ended result => (db, .ended result)

def advance (a : Answer) (db : AppDb) (phase : Phase) : AppDb × Phase :=
 if a.fails then (db, phase.failed) else query text a db phase

inductive Label
 | create (id : Nat) (req : CreateAppDeploymentRequest)
 | delete (id userId deploymentId : Nat)
 | advance (id : Nat) (answer : Answer)

variable (w : World AppDb Phase)

def step : Label → Option (World AppDb Phase)
 | .create id req => w.start id (.getApp req)
 | .delete id userId deploymentId => w.start id (.getDeployment userId deploymentId)
 | .advance id a => w.advance id (advance text a)

def Within (db : AppDb) : Prop :=
 ∀ cluster ∈ db.appClusters, ∀ r, db.usedAmount cluster.id r ≤ cluster.capacity.amount r

def Phase.cluster : Phase → Option Nat
 | .getRegion _ _ cluster => some cluster.id
 | .bill _ _ cluster _ => some cluster.id
 | .insert deployment => some deployment.clusterId
 | _ => none

def orderlyQuery (id : Nat) : Phase → Bool
 | .insert deployment => w.alone id fun phase => phase.cluster = some deployment.clusterId
 | .finalize deployment => w.db.appDeployments.all fun d => d.id ≠ deployment.id ∨ !d.deleted
 | _ => true

def orderly : Label → Bool
 | .advance id _ => (lookup (·.id) id w.calls).all fun call => orderlyQuery w id call.phase
 | _ => true

def Room (db : AppDb) (clusterId : Nat) (need : AppCapacity) : Prop :=
 ∀ cluster ∈ db.appClusters, cluster.id = clusterId →
  ∀ r, db.usedAmount clusterId r + need.amount r ≤ cluster.capacity.amount r

def PhaseInv (db : AppDb) : Phase → Prop
 | .listClusters _ app => db.getApp app.id = some app
 | .check _ app _ => db.getApp app.id = some app
 | .getRegion _ app cluster => db.getApp app.id = some app ∧ Room db cluster.id app.footprint
 | .bill _ app cluster _ => db.getApp app.id = some app ∧ Room db cluster.id app.footprint
 | .insert deployment => Room db deployment.clusterId (db.footprintOf deployment.appId)
 | _ => True

structure Keeps (db db' : AppDb) (p : Phase) : Prop where
 apps : db'.apps = db.apps
 appClusters : db'.appClusters = db.appClusters
 used : ∀ clusterId r, db'.usedAmount clusterId r ≤ db.usedAmount clusterId r ∨
  ∃ deployment, p = .insert deployment ∧ deployment.clusterId = clusterId ∧
   db'.usedAmount clusterId r = db.usedAmount clusterId r + (db.footprintOf deployment.appId).amount r

variable {text : AppText} {a : Answer} {db db' : AppDb} {w w' : World AppDb Phase} {p q : Phase} {clusterId id : Nat}
 {r : AppResource} {need : AppCapacity} {deployment : AppDeployment}

theorem usedAmount_insert : (db.insertAppDeployment deployment).2.usedAmount clusterId r =
  db.usedAmount clusterId r +
   if deployment.clusterId = clusterId then (db.footprintOf deployment.appId).amount r else 0 := by
 have hfootprint : ∀ appId, (db.insertAppDeployment deployment).2.footprintOf appId = db.footprintOf appId :=
  fun _ => rfl
 unfold AppDb.usedAmount AppDb.listAllAppDeployments
 simp only [hfootprint]
 simp only [AppDb.insertAppDeployment, filter_append, filter_cons, Bool.not_false, ↓reduceIte,
  filter_nil, total_snoc, decide_eq_true_eq]

theorem usedAmount_update {f : AppDeployment → AppDeployment} {c : AppDeployment → Bool} (happs : db'.apps = db.apps)
  (hrows : db'.appDeployments = updateWhere c f db.appDeployments)
  (hf : ∀ d, (f d).clusterId = d.clusterId ∧ (f d).appId = d.appId)
  (hlive : ∀ d ∈ db.appDeployments, c d = true → (f d).deleted = false → d.deleted = false) :
  db'.usedAmount clusterId r ≤ db.usedAmount clusterId r := by
 have hfootprint : ∀ appId, db'.footprintOf appId = db.footprintOf appId := by
  intro appId
  simp only [AppDb.footprintOf, AppDb.getApp, happs]
 unfold AppDb.usedAmount AppDb.listAllAppDeployments
 rw [hrows, total_filter, total_filter]
 simp only [hfootprint]
 apply total_updateWhere_le
 intro d hd hc hcounts
 simp only [Bool.and_eq_true, Bool.not_eq_true', decide_eq_true_eq, (hf d).1, (hf d).2] at hcounts ⊢
 exact ⟨⟨hlive d hd hc hcounts.1, hcounts.2⟩, le_rfl⟩

theorem keeps_of_eq (happs : db'.apps = db.apps) (hclusters : db'.appClusters = db.appClusters)
  (hrows : db'.appDeployments = db.appDeployments) : Keeps db db' p := by
 refine ⟨happs, hclusters, fun clusterId r => .inl (Eq.le ?_)⟩
 simp only [AppDb.usedAmount, AppDb.listAllAppDeployments, AppDb.footprintOf, AppDb.getApp, happs, hrows]

theorem query_keeps (hok : orderlyQuery w id p = true) : Keeps w.db (query text a w.db p).1 p := by
 cases p with
 | getApp req | check req app clusters | getDeployment userId deploymentId =>
  simp only [query]
  repeat' split
  all_goals exact keeps_of_eq rfl rfl rfl
 | getRegion req app cluster | getSubscription d =>
  simp only [query]
  split <;> exact keeps_of_eq rfl rfl rfl
 | insert deployment =>
  refine ⟨rfl, rfl, fun clusterId r => ?_⟩
  have hused : (query text a w.db (.insert deployment)).1.usedAmount clusterId r = _ := usedAmount_insert
  by_cases hcluster : deployment.clusterId = clusterId
  · rw [if_pos hcluster] at hused
    exact .inr ⟨deployment, rfl, hcluster, hused⟩
  · rw [if_neg hcluster] at hused
    exact .inl hused.le
 | finalize deployment =>
  refine ⟨rfl, rfl, fun clusterId r => .inl (usedAmount_update rfl rfl (fun _ => ⟨rfl, rfl⟩) ?_)⟩
  intro d hd hid _
  have hrow := all_eq_true.mp hok d hd
  simp only [decide_eq_true_eq] at hid hrow
  simpa [hid] using hrow
 | delete deploymentId =>
  refine ⟨rfl, rfl, fun clusterId r => .inl (usedAmount_update rfl rfl (fun _ => ⟨rfl, rfl⟩) ?_)⟩
  intro d _ _ hdeleted
  cases hdeleted
 | _ => exact keeps_of_eq rfl rfl rfl

theorem advance_keeps (hok : orderlyQuery w id p = true) : Keeps w.db (advance text a w.db p).1 p := by
 unfold advance
 split
 · exact keeps_of_eq rfl rfl rfl
 · exact query_keeps hok

theorem Keeps.getApp (h : Keeps db db' p) (appId : Nat) : db'.getApp appId = db.getApp appId := by
 simp only [AppDb.getApp, h.apps]

theorem Keeps.footprintOf (h : Keeps db db' p) (appId : Nat) : db'.footprintOf appId = db.footprintOf appId := by
 simp only [AppDb.footprintOf, h.getApp]

theorem Keeps.room (h : Keeps db db' p) (hroom : Room db clusterId need)
  (hother : ∀ deployment, p = .insert deployment → deployment.clusterId ≠ clusterId) : Room db' clusterId need := by
 intro cluster hcluster hid r
 rw [h.appClusters] at hcluster
 have hold := hroom cluster hcluster hid r
 rcases h.used clusterId r with hle | ⟨deployment, hp, hsame, _⟩
 · omega
 · exact absurd hsame (hother deployment hp)

theorem Keeps.phaseInv (h : Keeps db db' p) (hq : PhaseInv db q)
  (hother : ∀ deployment, p = .insert deployment → q.cluster ≠ some deployment.clusterId) : PhaseInv db' q := by
 have hapart : ∀ {clusterId}, q.cluster = some clusterId →
   ∀ deployment, p = .insert deployment → deployment.clusterId ≠ clusterId := by
  intro clusterId hcluster deployment hp heq
  exact hother deployment hp (hcluster.trans (congrArg some heq.symm))
 cases q with
 | listClusters req app | check req app clusters => exact (h.getApp _).trans hq
 | getRegion req app cluster | bill req app cluster region =>
  exact ⟨(h.getApp _).trans hq.1, h.room hq.2 (hapart rfl)⟩
 | insert deployment =>
  have hroom := h.room hq (hapart rfl)
  rwa [← h.footprintOf] at hroom
 | _ => trivial

theorem Keeps.within (h : Keeps db db' p) (hwithin : Within db) (hp : PhaseInv db p) : Within db' := by
 intro cluster hcluster r
 rw [h.appClusters] at hcluster
 rcases h.used cluster.id r with hle | ⟨deployment, rfl, hsame, heq⟩
 · exact hle.trans (hwithin cluster hcluster r)
 · rw [heq, ← hsame]
   exact hp cluster hcluster hsame.symm r

theorem room_of_fits (hkeyed : Keyed (·.id) db.appClusters) (hwithin : Within db)
  (hfits : db.fits clusterId need = some true) : Room db clusterId need := by
 intro cluster hcluster hid r
 have hrow : db.getAppCluster clusterId = some cluster := by
  rw [← hid]
  exact hkeyed.lookup_of_mem hcluster
 simp only [AppDb.fits, AppDb.available, hrow, Option.map_some, Option.some.injEq, decide_eq_true_eq] at hfits
 obtain ⟨hcpu, hmemory, hstorage⟩ := hfits
 have hused := hwithin cluster hcluster r
 rw [hid] at hused
 cases r with
 | cpu =>
  simp only [AppDb.used, AppCapacity.amount, AppCluster.capacity] at hcpu hused ⊢
  omega
 | memory =>
  simp only [AppDb.used, AppCapacity.amount, AppCluster.capacity] at hmemory hused ⊢
  omega
 | storage =>
  simp only [AppDb.used, AppCapacity.amount, AppCluster.capacity] at hstorage hused ⊢
  omega

theorem query_phaseInv (hkeyed : Keyed (·.id) db.appClusters) (hwithin : Within db) (hp : PhaseInv db p) :
  PhaseInv (query text a db p).1 (query text a db p).2 := by
 cases p with
 | getApp req =>
  simp only [query]
  cases happ : db.getApp req.appId with
  | none => trivial
  | some app =>
   have hid : app.id = req.appId := key_of_lookup happ
   simp only
   split
   · trivial
   · rw [← hid] at happ
     exact happ
 | listClusters req app => exact hp
 | check req app clusters =>
  simp only [query]
  split
  · trivial
  split
  · trivial
  · rename_i hfits
    exact ⟨hp, room_of_fits hkeyed hwithin hfits⟩
  · exact hp
 | getRegion req app cluster =>
  simp only [query]
  split
  · trivial
  · exact hp
 | bill req app cluster region =>
  obtain ⟨happ, hroom⟩ := hp
  have hfootprint : db.footprintOf app.id = app.footprint := by simp [AppDb.footprintOf, happ]
  rw [← hfootprint] at hroom
  exact hroom
 | getDeployment userId deploymentId =>
  simp only [query]
  repeat' split
  all_goals trivial
 | getSubscription d =>
  simp only [query]
  split <;> trivial
 | _ => trivial

theorem advance_phaseInv (hkeyed : Keyed (·.id) db.appClusters) (hwithin : Within db) (hp : PhaseInv db p) :
  PhaseInv (advance text a db p).1 (advance text a db p).2 := by
 unfold advance
 split
 · cases p <;> trivial
 · exact query_phaseInv hkeyed hwithin hp

def Sound (db : AppDb) : Prop := Keyed (·.id) db.appClusters ∧ Within db

theorem step_holds {l : Label} (h : Holds Sound PhaseInv w) (hok : orderly w l = true)
  (hstep : step text w l = some w') : Holds Sound PhaseInv w' := by
 cases l with
 | create id req | delete id userId deploymentId => exact h.start hstep trivial
 | advance id a =>
  refine h.advance hstep fun call hcall => ?_
  simp only [orderly, hcall, Option.all_some] at hok
  have hkeeps : Keeps w.db (advance text a w.db call.phase).1 call.phase := advance_keeps hok
  have hp := h.of_lookup hcall
  obtain ⟨hkeyed, hwithin⟩ := h.db
  refine ⟨⟨hkeeps.appClusters ▸ hkeyed, hkeeps.within hwithin hp⟩, advance_phaseInv hkeyed hwithin hp, ?_⟩
  intro c hc hne
  refine hkeeps.phaseInv (h.phases c hc) fun deployment hinsert => ?_
  simp only [hinsert, orderlyQuery] at hok
  simpa using World.alone_iff.mp hok c hc hne

/-- Along every run of orderly steps no cluster is overcommitted. -/
theorem clusters_not_overcommitted (text : AppText) (db : AppDb) (hkeyed : Keyed (·.id) db.appClusters)
  (hwithin : Within db) (ls : List Label) (w : World AppDb Phase)
  (hrun : RunIf (step text) (fun w l => orderly w l = true) { db } ls w) : Within w.db := by
 have hstart : Holds Sound PhaseInv ({ db } : World AppDb Phase) :=
  ⟨⟨hkeyed, hwithin⟩, nodup_nil, fun _ hc => absurd hc not_mem_nil⟩
 exact (hrun.invariant (fun _ _ _ => step_holds) hstart).db.2

def relayYaml : String := "services:\n  relay:\n    image: relay\n"

def plainAppText : AppText where
 trim s := String.ofList (Text.trim Char.isWhitespace s.toList)
 parseCompose doc := if doc = relayYaml then .ok [] else .error "unknown document"

def oneCluster : AppDb where
 db := {}
 regions := [{ id := 1 }]
 apps := [{ id := 1, compose := relayYaml, cpuMilli := 600 }]
 appClusters := [{ id := 1, regionId := 1, capacityCpuMilli := 1000 }]

def oneRequest : CreateAppDeploymentRequest where
 userId := 1
 appId := 1
 regionId := 1
 name := "relay"

theorem oneCluster_within : Within oneCluster := by
 intro cluster hcluster r
 obtain rfl := mem_singleton.mp hcluster
 cases r <;> decide

def queries (id n : Nat) : List Label := List.replicate n (.advance id {})

def inTurn : List Label :=
 [.create 1 oneRequest] ++ queries 1 7 ++ [.delete 2 1 1] ++ queries 2 4 ++ [.create 3 oneRequest] ++ queries 3 7

def bothChecked : List Label :=
 [.create 1 oneRequest, .create 2 oneRequest] ++ queries 1 3 ++ queries 2 3 ++ queries 1 3 ++ queries 2 3

def deletedEarly : List Label :=
 [.create 1 oneRequest] ++ queries 1 6 ++ [.delete 2 1 1] ++ queries 2 4 ++ [.create 3 oneRequest] ++ queries 3 7 ++
  queries 1 1

theorem clusters_not_overcommitted_two_requests : ∃ w,
  RunIf (step plainAppText) (fun w l => orderly w l = true) { db := oneCluster } inTurn w ∧
   w.db.appDeployments.length = 2 ∧ Within w.db :=
 RunIf.exists_and_of_execIf (by decide +kernel) fun w hrun _ =>
  clusters_not_overcommitted plainAppText oneCluster (by decide) oneCluster_within _ w hrun

def overcommitted (db : AppDb) : Bool := db.appClusters.any fun c => c.capacity.amount .cpu < db.usedAmount c.id .cpu

theorem not_within_of_overcommitted (h : overcommitted db = true) : ¬ Within db := by
 intro hwithin
 obtain ⟨cluster, hcluster, hlt⟩ := any_eq_true.mp h
 have hle := hwithin cluster hcluster .cpu
 have hlt' := of_decide_eq_true hlt
 omega

theorem cluster_overcommitted : Within oneCluster ∧
  (∃ w, Run (step plainAppText) { db := oneCluster } bothChecked w ∧ ¬ Within w.db) ∧
  ∃ w, Run (step plainAppText) { db := oneCluster } deletedEarly w ∧ ¬ Within w.db :=
 ⟨oneCluster_within, Run.exists_of_exec_imp (fun _ _ => not_within_of_overcommitted) (by decide +kernel),
  Run.exists_of_exec_imp (fun _ _ => not_within_of_overcommitted) (by decide +kernel)⟩

end AppClusters

end Lnvps
