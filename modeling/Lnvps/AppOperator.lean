import Lnvps.Compose

/-! # The operator and the customers of the apps -/

namespace Lnvps

open Table Outcome Steps Calls List Option

def ComposeText.app (text : ComposeText) : AppText where
 trim := text.trim
 parseCompose doc := (Compose.parse text doc).map (·.config)

namespace AppOperator

inductive Commit
 | deleted (id : Nat)
 | set (id : Nat) (state : DesiredState)
 deriving DecidableEq

structure Store where
 db : AppDb
 log : List Commit := []

structure Pass where
 cluster : AppCluster
 current : AppDeployment
 rest : List AppDeployment

def Pass.hostname (pass : Pass) : String :=
 Compose.deploymentHostname pass.current.name pass.cluster.ingressDomain

inductive Phase
 | request (phase : AppClusters.Phase)
 | getDeployment (userId id : Nat) (state : DesiredState)
 | setState (deployment : AppDeployment)
 | getCluster (clusterId : Nat)
 | listDeployments (cluster : AppCluster)
 | getApp (pass : Pass)
 | getSubscription (pass : Pass) (compose : Compose)
 | writeBack (pass : Pass) (updated : AppDeployment)
 | writeError (pass : Pass) (message : String)
 | ended (result : Except AppError Unit)

structure Answer extends AppClusters.Answer where
 dbError : String := ""
 (namespaceApplied secretApplied objectsApplied : Except String Unit := .ok ())
 existing : Compose.Vars := []
 fresh : String → String := fun _ => ""

variable (text : ComposeText) (a : Answer)

def prepare (app : App) (pass : Pass) : Except String Compose := do
 let c ← Compose.parse text app.compose
 a.namespaceApplied
 let generated ← c.ensureSecrets a.existing a.fresh
 a.secretApplied
 let vars := Compose.buildVars generated pass.current.config pass.hostname
 let _ ← c.resolveEnv vars
 let _ ← c.resolveFiles vars
 .ok c

def finish (c : Compose) (pass : Pass) (sub : Option Subscription) :
  Except String AppDeployment := do
 let paid := sub.any (·.isSetup)
 let expired := (sub.bind (·.expires)).any (· < a.now)
 let running := pass.current.desiredState = .running ∧ !pass.current.deleted ∧ paid ∧ !expired
 a.objectsApplied
 let _ ← c.footprint text
 .ok { pass.current with
  hostname := some pass.hostname
  status := if running then .running else .stopped
  statusMessage := none }

def Pass.errd (pass : Pass) (message : String) : AppDeployment :=
 { pass.current with status := .error, statusMessage := some message }

def Phase.pass (cluster : AppCluster) : List AppDeployment → Phase
 | [] => .ended (.ok ())
 | current :: rest => .getApp { cluster, current, rest }

def Pass.next (pass : Pass) : Phase := .pass pass.cluster pass.rest

def query (s : Store) : Phase → Store × Phase
 | .request p =>
  let (db, q) := AppClusters.advance text.app a.toAnswer s.db p
  match p with
  | .delete id => ({ db, log := if a.fails then s.log else .deleted id :: s.log }, .request q)
  | _ => ({ s with db }, .request q)
 | .getDeployment userId id state =>
  if a.fails then (s, .ended (.error .database)) else
  match s.db.getAppDeployment id with
  | none => (s, .ended (.error .database))
  | some d => if d.userId ≠ userId ∨ d.deleted then (s, .ended (.error (.message "Deployment not found")))
   else (s, .setState { d with desiredState := state })
 | .setState d =>
  if a.fails then (s, .ended (.error .database)) else
  ({ db := s.db.updateAppDeployment d, log := .set d.id d.desiredState :: s.log }, .ended (.ok ()))
 | .getCluster clusterId =>
  if a.fails then (s, .ended (.error .database)) else
  match s.db.getAppCluster clusterId with
  | none => (s, .ended (.error .database))
  | some cluster => (s, .listDeployments cluster)
 | .listDeployments cluster =>
  if a.fails then (s, .ended (.error .database)) else
  (s, .pass cluster (s.db.listAllAppDeployments.filter fun d => d.clusterId = cluster.id))
 | .getApp pass =>
  if a.fails then (s, .writeError pass a.dbError) else
  match s.db.getApp pass.current.appId with
  | none => (s, .writeError pass a.dbError)
  | some app =>
   match prepare text a app pass with
   | .error e => (s, .writeError pass e)
   | .ok c => (s, .getSubscription pass c)
 | .getSubscription pass c =>
  let sub := if a.fails then none else s.db.db.getSubscriptionByLineItemId pass.current.subscriptionLineItemId
  match finish text a c pass sub with
  | .error e => (s, .writeError pass e)
  | .ok updated => (s, .writeBack pass updated)
 | .writeBack pass updated =>
  if a.fails then (s, .writeError pass a.dbError) else
  ({ s with db := s.db.updateAppDeployment updated }, pass.next)
 | .writeError pass message =>
  if a.fails then (s, pass.next) else
  ({ s with db := s.db.updateAppDeployment (pass.errd message) }, pass.next)
 | .ended result => (s, .ended result)

inductive Label
 | create (id : Nat) (req : CreateAppDeploymentRequest)
 | delete (id userId deploymentId : Nat)
 | setDesiredState (id userId deploymentId : Nat) (state : DesiredState)
 | reconcile (id clusterId : Nat)
 | advance (id : Nat) (answer : Answer)

def step (w : World Store Phase) : Label → Option (World Store Phase)
 | .create id req => w.start id (.request (.getApp req))
 | .delete id userId deploymentId => w.start id (.request (.getDeployment userId deploymentId))
 | .setDesiredState id userId deploymentId state => w.start id (.getDeployment userId deploymentId state)
 | .reconcile id clusterId => w.start id (.getCluster clusterId)
 | .advance id a => w.advance id (query text a)

inductive Write
 | nothing
 | insert (deployment : AppDeployment)
 | store (deployment : AppDeployment)
 | set (deployment : AppDeployment)
 | delete (id : Nat)

def Phase.write : Phase → Write
 | .request (.insert d) => .insert d
 | .request (.finalize d) => .store d
 | .request (.delete id) => .delete id
 | .setState d => .set d
 | .writeBack _ updated => .store updated
 | .writeError pass message => .store (pass.errd message)
 | _ => .nothing

def Phase.attempt (p : Phase) : Write := if a.fails then .nothing else p.write

def Write.rows (db : AppDb) : Write → List AppDeployment
 | .nothing => db.appDeployments
 | .insert d => (db.insertAppDeployment d).2.appDeployments
 | .store d => (db.updateAppDeployment d).appDeployments
 | .set d => (db.updateAppDeployment d).appDeployments
 | .delete id => (db.deleteAppDeployment id).appDeployments

def Write.nextId (db : AppDb) : Write → Nat
 | .insert _ => db.nextDeploymentId + 1
 | _ => db.nextDeploymentId

def Write.log : Write → List Commit
 | .set d => [.set d.id d.desiredState]
 | .delete id => [.deleted id]
 | _ => []

structure Effect (s s' : Store) (write : Write) : Prop where
 clusters : s'.db.appClusters = s.db.appClusters
 rows : s'.db.appDeployments = write.rows s.db
 nextId : s'.db.nextDeploymentId = write.nextId s.db
 log : s'.log = write.log ++ s.log

variable {text : ComposeText} {a : Answer} {s s' : Store} {w w' : World Store Phase} {p : Phase} {write : Write}
 {db : AppDb} {d : AppDeployment} {pass : Pass}

theorem effect_request (p : AppClusters.Phase) :
  Effect s (query text a s (.request p)).1 (Phase.attempt a (.request p)) := by
 unfold Phase.attempt
 by_cases hfails : a.fails = true
 · cases p <;> simp only [query, AppClusters.advance, hfails, if_true] <;> exact ⟨rfl, rfl, rfl, rfl⟩
 cases p
 all_goals
  simp only [query, AppClusters.advance, if_neg hfails, AppClusters.query]
  repeat' split
  all_goals exact ⟨rfl, rfl, rfl, rfl⟩

theorem query_effect (p : Phase) : Effect s (query text a s p).1 (p.attempt a) := by
 unfold Phase.attempt
 cases p with
 | request p => exact effect_request p
 | getDeployment userId id state | getCluster clusterId | getApp pass =>
  simp only [query]
  repeat' split
  all_goals exact ⟨rfl, rfl, rfl, rfl⟩
 | getSubscription pass c =>
  simp only [query, Phase.write, ite_self]
  cases finish text a c pass _ <;> exact ⟨rfl, rfl, rfl, rfl⟩
 | ended result =>
  simp only [query, Phase.write, ite_self]
  exact ⟨rfl, rfl, rfl, rfl⟩
 | _ =>
  simp only [query]
  split <;> exact ⟨rfl, rfl, rfl, rfl⟩

variable {copy d' : AppDeployment} {q : Phase}

theorem mem_update (h : d' ∈ (db.updateAppDeployment copy).appDeployments) :
  ∃ d ∈ db.appDeployments, d'.id = d.id ∧ d'.clusterId = d.clusterId ∧
   (d.id = copy.id → d'.name = copy.name ∧ d'.deleted = copy.deleted ∧ d'.desiredState = copy.desiredState) ∧
   (d.id ≠ copy.id → d' = d) := by
 obtain ⟨d, hd, rfl⟩ := mem_updateWhere.mp h
 refine ⟨d, hd, ?_⟩
 by_cases hid : d.id = copy.id
 · simp [hid]
 · simp [hid]

theorem mem_delete {id : Nat} (h : d' ∈ (db.deleteAppDeployment id).appDeployments) :
  ∃ d ∈ db.appDeployments, d'.id = d.id ∧ d'.clusterId = d.clusterId ∧ d'.name = d.name ∧
   d'.desiredState = d.desiredState ∧ (d.deleted = true ∨ d.id = id → d'.deleted = true) ∧
   (d'.deleted = true → d.deleted = true ∨ d.id = id) := by
 obtain ⟨d, hd, rfl⟩ := mem_updateWhere.mp h
 refine ⟨d, hd, ?_⟩
 by_cases hid : d.id = id
 · simp [hid]
 · simp [hid]

theorem mem_insert (h : d' ∈ (db.insertAppDeployment copy).2.appDeployments) :
  d' ∈ db.appDeployments ∨ d' = { copy with id := db.nextDeploymentId, deleted := false } := by
 simpa [AppDb.insertAppDeployment] using h

def Commit.id : Commit → Nat
 | .deleted id => id
 | .set id _ => id

structure Sound (s : Store) : Prop where
 keyed : Keyed (·.id) s.db.appDeployments
 ids : ∀ d ∈ s.db.appDeployments, d.id < s.db.nextDeploymentId
 log : ∀ c ∈ s.log, c.id < s.db.nextDeploymentId

structure Copied (db : AppDb) (copy : AppDeployment) : Prop where
 id : copy.id < db.nextDeploymentId
 name : ∀ d ∈ db.appDeployments, d.id = copy.id → d.name = copy.name

def Phase.held : Phase → List AppDeployment
 | .request (.finalize d) => [d]
 | .request (.getSubscription d) => [d]
 | .request (.updateSubscription d _) => [d]
 | .setState d => [d]
 | .getApp pass => pass.current :: pass.rest
 | .getSubscription pass _ => pass.current :: pass.rest
 | .writeBack pass updated => updated :: pass.current :: pass.rest
 | .writeError pass _ => pass.current :: pass.rest
 | _ => []

def Phase.deletes : Phase → Option Nat
 | .request (.delete id) => some id
 | _ => none

structure PhaseInv (s : Store) (p : Phase) : Prop where
 copied : ∀ copy ∈ p.held, Copied s.db copy
 deletes : ∀ id, p.deletes = some id → id < s.db.nextDeploymentId

theorem Copied.congr {copy' : AppDeployment} (h : Copied db copy) (hid : copy'.id = copy.id)
  (hname : copy'.name = copy.name) : Copied db copy' :=
 ⟨hid ▸ h.id, fun d hd hd' => (h.name d hd (hd'.trans hid)).trans hname.symm⟩

theorem Sound.copied (h : Sound s) (hd : d ∈ s.db.appDeployments) : Copied s.db d :=
 ⟨h.ids d hd, fun _ hr hid => by rw [h.keyed.eq_of_key hr hd hid]⟩

theorem PhaseInv.copied_of_write (h : PhaseInv s p)
  (hwrite : p.write = .store copy ∨ p.write = .set copy) : Copied s.db copy := by
 cases p with
 | request p =>
  cases p with
  | finalize d =>
   obtain rfl : d = copy := by simpa [Phase.write] using hwrite
   exact h.copied d (mem_singleton_self d)
  | _ => simp [Phase.write] at hwrite
 | setState d =>
  obtain rfl : d = copy := by simpa [Phase.write] using hwrite
  exact h.copied d (mem_singleton_self d)
 | writeBack pass updated =>
  obtain rfl : updated = copy := by simpa [Phase.write] using hwrite
  exact h.copied updated mem_cons_self
 | writeError pass message =>
  obtain rfl : pass.errd message = copy := by simpa [Phase.write] using hwrite
  exact (h.copied pass.current mem_cons_self).congr rfl rfl
 | _ => simp [Phase.write] at hwrite

section

variable (h : Effect s s' write)
include h

theorem Effect.nextId_le : s.db.nextDeploymentId ≤ s'.db.nextDeploymentId := by
 rw [h.nextId]
 cases write <;> simp [Write.nextId]

theorem Effect.origin (hcopied : ∀ copy, write = .store copy ∨ write = .set copy → Copied s.db copy)
  {d' : AppDeployment} (hd' : d' ∈ s'.db.appDeployments) :
  (∃ d ∈ s.db.appDeployments, d'.id = d.id ∧ d'.name = d.name ∧ d'.clusterId = d.clusterId) ∨
   ∃ copy, write = .insert copy ∧ d' = { copy with id := s.db.nextDeploymentId, deleted := false } := by
 have hupdate : ∀ copy, Copied s.db copy → d' ∈ (s.db.updateAppDeployment copy).appDeployments →
   ∃ d ∈ s.db.appDeployments, d'.id = d.id ∧ d'.name = d.name ∧ d'.clusterId = d.clusterId := by
  intro copy hcopy hmem
  obtain ⟨d, hd, hid, hcluster, hsame, hother⟩ := mem_update hmem
  refine ⟨d, hd, hid, ?_, hcluster⟩
  by_cases hcase : d.id = copy.id
  · rw [(hsame hcase).1, hcopy.name d hd hcase]
  · rw [hother hcase]
 rw [h.rows] at hd'
 cases write with
 | nothing => exact .inl ⟨d', hd', rfl, rfl, rfl⟩
 | insert copy =>
  rcases mem_insert hd' with hold | rfl
  · exact .inl ⟨d', hold, rfl, rfl, rfl⟩
  · exact .inr ⟨copy, rfl, rfl⟩
 | store copy => exact .inl (hupdate copy (hcopied copy (.inl rfl)) hd')
 | set copy => exact .inl (hupdate copy (hcopied copy (.inr rfl)) hd')
 | delete id =>
  obtain ⟨d, hd, hid, hcluster, hname, -⟩ := mem_delete hd'
  exact .inl ⟨d, hd, hid, hname, hcluster⟩

theorem Effect.copied (hcopied : ∀ copy, write = .store copy ∨ write = .set copy → Copied s.db copy)
  {copy : AppDeployment} (hcopy : Copied s.db copy) : Copied s'.db copy := by
 refine ⟨hcopy.id.trans_le h.nextId_le, fun d' hd' hid => ?_⟩
 rcases h.origin hcopied hd' with ⟨d, hd, hid', hname, -⟩ | ⟨_, -, rfl⟩
 · rw [hname]
   exact hcopy.name d hd (hid'.symm.trans hid)
 · exact absurd hid hcopy.id.ne'

theorem Effect.keyed (hs : Sound s) : Keyed (·.id) s'.db.appDeployments := by
 rw [h.rows]
 cases write with
 | nothing => exact hs.keyed
 | insert copy => exact hs.keyed.snoc fun d hd => (hs.ids d hd).ne
 | store copy | set copy | delete id => exact hs.keyed.updateWhere fun _ _ _ => rfl

theorem Effect.sound (hs : Sound s) (hcopied : ∀ copy, write = .store copy ∨ write = .set copy → Copied s.db copy)
  (hdelete : ∀ id, write = .delete id → id < s.db.nextDeploymentId) : Sound s' := by
 refine ⟨h.keyed hs, fun d' hd' => ?_, fun c hc => ?_⟩
 · rcases h.origin hcopied hd' with ⟨d, hd, hid, -⟩ | ⟨copy, rfl, rfl⟩
   · rw [hid]
     exact (hs.ids d hd).trans_le h.nextId_le
   · rw [h.nextId]
     exact Nat.lt_succ_self _
 · rw [h.log, mem_append] at hc
   refine lt_of_lt_of_le ?_ h.nextId_le
   rcases hc with hc | hc
   · cases write with
     | set copy =>
      obtain rfl := mem_singleton.mp hc
      exact (hcopied copy (.inr rfl)).id
     | delete id =>
      obtain rfl := mem_singleton.mp hc
      exact hdelete id rfl
     | _ => cases hc
   · exact hs.log c hc

end

theorem PhaseInv.copied_of_attempt (hp : PhaseInv s p) (copy : AppDeployment)
  (hwrite : p.attempt a = .store copy ∨ p.attempt a = .set copy) : Copied s.db copy := by
 unfold Phase.attempt at hwrite
 split at hwrite
 · simp at hwrite
 · exact hp.copied_of_write hwrite

theorem PhaseInv.deletes_of_attempt (hp : PhaseInv s p) (id : Nat) (hwrite : p.attempt a = .delete id) :
  id < s.db.nextDeploymentId := by
 unfold Phase.attempt at hwrite
 split at hwrite
 · cases hwrite
 cases p with
 | request p =>
  cases p with
  | delete id' =>
   obtain rfl : id' = id := by simpa [Phase.write] using hwrite
   exact hp.deletes id' rfl
  | _ => cases hwrite
 | _ => cases hwrite

theorem query_sound (hs : Sound s) (hp : PhaseInv s p) : Sound (query text a s p).1 :=
 (query_effect p).sound hs hp.copied_of_attempt hp.deletes_of_attempt

theorem query_copied (hp : PhaseInv s p) (hcopy : Copied s.db copy) :
  Copied (query text a s p).1.db copy := (query_effect p).copied hp.copied_of_attempt hcopy

theorem query_keeps (hp : PhaseInv s p) (hq : PhaseInv s q) : PhaseInv (query text a s p).1 q :=
 ⟨fun copy hcopy => query_copied hp (hq.copied copy hcopy),
  fun id hid => (hq.deletes id hid).trans_le (query_effect p).nextId_le⟩

theorem phaseInv_delete {id : Nat} (hid : id < s.db.nextDeploymentId) : PhaseInv s (.request (.delete id)) :=
 ⟨fun _ hcopy => absurd hcopy not_mem_nil, fun id' heq => by
  obtain rfl := Option.some.inj heq
  exact hid⟩

theorem phaseInv_held (hq : ∀ copy ∈ q.held, Copied s.db copy) (hdelete : q.deletes = none) :
  PhaseInv s q := ⟨hq, fun _ hid => nomatch hdelete.symm.trans hid⟩

theorem phaseInv_free (hheld : q.held = []) (hdelete : q.deletes = none) : PhaseInv s q :=
 phaseInv_held (fun _ hcopy => absurd (hheld ▸ hcopy) not_mem_nil) hdelete

theorem phaseInv_pass {cluster : AppCluster} {ds : List AppDeployment} (hds : ∀ d ∈ ds, Copied s.db d) :
  PhaseInv s (.pass cluster ds) := by
 cases ds with
 | nil => exact phaseInv_free rfl rfl
 | cons d ds => exact phaseInv_held hds rfl

theorem request_phaseInv {p : AppClusters.Phase} (hs : Sound s) (hp : PhaseInv s (.request p)) :
  PhaseInv (query text a s (.request p)).1 (query text a s (.request p)).2 := by
 have hcopied (d : AppDeployment) (hd : d ∈ Phase.held (.request p)) : Copied s.db d := hp.copied d hd
 by_cases hfails : a.fails = true
 · cases p
   all_goals simp only [query, AppClusters.advance, hfails, if_true, AppClusters.Phase.failed]
   case getSubscription d => exact phaseInv_delete (hcopied d (mem_singleton_self d)).id
   case updateSubscription d sub => exact phaseInv_delete (hcopied d (mem_singleton_self d)).id
   all_goals exact phaseInv_free rfl rfl
 · cases p
   all_goals simp only [query, AppClusters.advance, if_neg hfails, AppClusters.query]
   case insert deployment =>
    refine phaseInv_held (forall_mem_singleton.mpr ⟨Nat.lt_succ_self _, fun d hd hid => ?_⟩) rfl
    rcases mem_insert hd with hold | rfl
    · exact absurd hid (hs.ids d hold).ne
    · rfl
   case getDeployment userId id =>
    split
    · exact phaseInv_free rfl rfl
    rename_i d hd
    split
    · exact phaseInv_free rfl rfl
    · exact phaseInv_held (forall_mem_singleton.mpr (hs.copied (mem_of_lookup hd))) rfl
   case getSubscription d =>
    have hcopy := hcopied d (mem_singleton_self d)
    split
    · exact phaseInv_delete hcopy.id
    · exact phaseInv_held (forall_mem_singleton.mpr hcopy) rfl
   case updateSubscription d sub => exact phaseInv_delete (hcopied d (mem_singleton_self d)).id
   all_goals
    repeat' split
    all_goals exact phaseInv_free rfl rfl

theorem finish_eq_ok {c : Compose} {sub : Option Subscription} {updated : AppDeployment}
  (h : finish text a c pass sub = .ok updated) :
  updated.id = pass.current.id ∧ updated.name = pass.current.name ∧ updated.deleted = pass.current.deleted ∧
   updated.desiredState = pass.current.desiredState := by
 obtain ⟨_, -, h⟩ := bind_eq_ok.mp h
 obtain ⟨_, -, h⟩ := bind_eq_ok.mp h
 cases h
 exact ⟨rfl, rfl, rfl, rfl⟩

theorem query_phaseInv (hs : Sound s) (hp : PhaseInv s p) : PhaseInv (query text a s p).1 (query text a s p).2 := by
 have hkeep : ∀ copy ∈ p.held, Copied (query text a s p).1.db copy := fun copy hcopy =>
  query_copied hp (hp.copied copy hcopy)
 cases p with
 | request p => exact request_phaseInv hs hp
 | getDeployment userId id state =>
  simp only [query]
  repeat' split
  rotate_right
  · rename_i d hd _
    exact phaseInv_held (forall_mem_singleton.mpr ((hs.copied (mem_of_lookup hd)).congr rfl rfl)) rfl
  all_goals exact phaseInv_free rfl rfl
 | listDeployments cluster =>
  simp only [query]
  split
  · exact phaseInv_free rfl rfl
  · refine phaseInv_pass fun d hd => hs.copied ?_
    exact mem_of_mem_filter (mem_of_mem_filter hd)
 | getApp pass =>
  have hheld := hp.copied
  simp only [query]
  repeat' split
  all_goals exact phaseInv_held hheld rfl
 | getSubscription pass c =>
  have hheld := hp.copied
  simp only [query]
  cases hfinish : finish text a c pass _ with
  | error e => exact phaseInv_held hheld rfl
  | ok updated =>
   obtain ⟨hid, hname, -⟩ := finish_eq_ok hfinish
   refine phaseInv_held (forall_mem_cons.mpr ⟨?_, hheld⟩) rfl
   exact (hheld pass.current mem_cons_self).congr hid hname
 | writeBack pass updated =>
  have hrest := forall_mem_cons.mp (forall_mem_cons.mp hkeep).2
  simp only [query] at hrest ⊢
  split
  · rename_i hfails
    rw [if_pos hfails] at hrest
    exact phaseInv_held (forall_mem_cons.mpr hrest) rfl
  · rename_i hfails
    rw [if_neg hfails] at hrest
    exact phaseInv_pass hrest.2
 | writeError pass message =>
  have hrest := (forall_mem_cons.mp hkeep).2
  simp only [query] at hrest ⊢
  split
  · rename_i hfails
    rw [if_pos hfails] at hrest
    exact phaseInv_pass hrest
  · rename_i hfails
    rw [if_neg hfails] at hrest
    exact phaseInv_pass hrest
 | _ =>
  simp only [query]
  repeat' split
  all_goals exact phaseInv_free rfl rfl

theorem step_holds {l : Label} (h : Holds Sound PhaseInv w) (hstep : step text w l = some w') :
  Holds Sound PhaseInv w' := by
 cases l with
 | advance id a =>
  refine h.advance hstep fun call hcall => ?_
  have hp := h.of_lookup hcall
  exact ⟨query_sound h.db hp, query_phaseInv h.db hp, fun c hc _ => query_keeps hp (h.phases c hc)⟩
 | _ => exact h.start hstep (phaseInv_free rfl rfl)

theorem step_effect {l : Label} (hstep : step text w l = some w') :
  w'.db = w.db ∨ ∃ id a call, l = .advance id a ∧ lookup (·.id) id w.calls = some call ∧
   Effect w.db w'.db (call.phase.attempt a) := by
 have hstart : ∀ {id phase}, w.start id phase = some w' → w'.db = w.db := by
  intro id phase h
  unfold World.start at h
  split at h
  · cases h
    rfl
  · cases h
 cases l with
 | advance id a =>
  obtain ⟨call, hcall, rfl⟩ := map_eq_some_iff.mp hstep
  exact .inr ⟨id, a, call, rfl, hcall, query_effect call.phase⟩
 | _ => exact .inl (hstart hstep)

def relayText : ComposeText :=
 Compose.plainComposeText [(AppClusters.relayYaml, { services := [("relay", { image := "relay" })] })]

def roomyCluster : AppDb where
 db := {}
 regions := [{ id := 1 }]
 apps := [{ id := 1, compose := AppClusters.relayYaml, cpuMilli := 600 }]
 appClusters := [{ id := 1, regionId := 1, ingressDomain := "apps.lnvps.net", capacityCpuMilli := 2000 }]

def oneDeployment : AppDb := { roomyCluster with
 appDeployments :=
  [{ id := 1, userId := 1, appId := 1, clusterId := 1, subscriptionLineItemId := 1, name := "relay" }]
 nextDeploymentId := 2 }

def queries (id n : Nat) : List Label := List.replicate n (.advance id {})

end AppOperator

end Lnvps
