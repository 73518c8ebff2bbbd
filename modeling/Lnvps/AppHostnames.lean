import Lnvps.AppOperator

/-! # The hostnames of app deployments -/

namespace Lnvps

open List

namespace AppOperator

open Table Steps Calls

variable {text : ComposeText} {s s' : Store} {w w' : World Store Phase} {write : Write} {db : AppDb}

def HostsDiffer (db : AppDb) : Prop :=
 ∀ cluster ∈ db.appClusters, ∀ d ∈ db.listAllAppDeployments, ∀ d' ∈ db.listAllAppDeployments,
  d.clusterId = cluster.id → d'.clusterId = cluster.id → d.id ≠ d'.id →
   Compose.deploymentHostname d.name cluster.ingressDomain ≠ Compose.deploymentHostname d'.name cluster.ingressDomain

def nameFree (db : AppDb) (clusterId id : Nat) (name : String) : Bool :=
 db.listAllAppDeployments.all fun d => d.id = id ∨ d.clusterId ≠ clusterId ∨ d.name ≠ name

def livesUnderFreeName (db : AppDb) : Write → Bool
 | .insert copy => nameFree db copy.clusterId db.nextDeploymentId copy.name
 | .store copy => db.appDeployments.all fun d => d.id ≠ copy.id ∨ !d.deleted ∨ nameFree db d.clusterId d.id d.name
 | .set copy => db.appDeployments.all fun d => d.id ≠ copy.id ∨ !d.deleted ∨ nameFree db d.clusterId d.id d.name
 | _ => true

def namesFree (w : World Store Phase) : Label → Bool
 | .advance id a => (lookup (·.id) id w.calls).all fun call => livesUnderFreeName w.db.db (call.phase.attempt a)
 | _ => true

theorem deploymentHostname_inj {name name' domain : String} :
  Compose.deploymentHostname name domain = Compose.deploymentHostname name' domain ↔ name = name' := by
 simp [Compose.deploymentHostname, String.append_assoc]

def Write.target (db : AppDb) : Write → Option Nat
 | .insert _ => some db.nextDeploymentId
 | .store copy => some copy.id
 | .set copy => some copy.id
 | _ => none

theorem Effect.live (h : Effect s s' write)
  (hcopied : ∀ copy, write = .store copy ∨ write = .set copy → Copied s.db copy)
  (hfree : livesUnderFreeName s.db write = true) {d' : AppDeployment} (hd' : d' ∈ s'.db.listAllAppDeployments) :
  (∃ d ∈ s.db.listAllAppDeployments, d'.id = d.id ∧ d'.name = d.name ∧ d'.clusterId = d.clusterId) ∨
   (write.target s.db = some d'.id ∧ nameFree s.db d'.clusterId d'.id d'.name = true) := by
 obtain ⟨hmem, hlive⟩ := mem_filter.mp hd'
 have hupdate : ∀ copy, Copied s.db copy → d' ∈ (s.db.updateAppDeployment copy).appDeployments →
   (s.db.appDeployments.all fun d => d.id ≠ copy.id ∨ !d.deleted ∨ nameFree s.db d.clusterId d.id d.name) = true →
   (∃ d ∈ s.db.listAllAppDeployments, d'.id = d.id ∧ d'.name = d.name ∧ d'.clusterId = d.clusterId) ∨
    (some copy.id = some d'.id ∧ nameFree s.db d'.clusterId d'.id d'.name = true) := by
  intro copy hcopy hmem hfree
  obtain ⟨d, hd, hid, hcluster, hsame, hother⟩ := mem_update hmem
  by_cases hcase : d.id = copy.id
  · have hname : d'.name = d.name := by rw [(hsame hcase).1, hcopy.name d hd hcase]
    have hrow := of_decide_eq_true (all_eq_true.mp hfree d hd)
    rcases hrow with hne | hold | hrow
    · exact absurd hcase hne
    · exact .inl ⟨d, mem_filter.mpr ⟨hd, hold⟩, hid, hname, hcluster⟩
    · rw [hid, hname, hcluster, hcase]
      exact .inr ⟨rfl, hcase ▸ hrow⟩
  · obtain rfl := hother hcase
    exact .inl ⟨d', mem_filter.mpr ⟨hd, hlive⟩, rfl, rfl, rfl⟩
 rw [h.rows] at hmem
 cases write with
 | nothing => exact .inl ⟨d', mem_filter.mpr ⟨hmem, hlive⟩, rfl, rfl, rfl⟩
 | insert copy =>
  rcases mem_insert hmem with hold | rfl
  · exact .inl ⟨d', mem_filter.mpr ⟨hold, hlive⟩, rfl, rfl, rfl⟩
  · exact .inr ⟨rfl, hfree⟩
 | store copy => exact hupdate copy (hcopied copy (.inl rfl)) hmem hfree
 | set copy => exact hupdate copy (hcopied copy (.inr rfl)) hmem hfree
 | delete id =>
  obtain ⟨d, hd, hid, hcluster, hname, -, hdeleted, -⟩ := mem_delete hmem
  refine .inl ⟨d, mem_filter.mpr ⟨hd, ?_⟩, hid, hname, hcluster⟩
  by_contra hcase
  simp [hdeleted (.inl (by simpa using hcase))] at hlive

theorem name_ne_of_free {d d' : AppDeployment} (hfree : nameFree db d.clusterId d.id d.name = true)
  (hd' : d' ∈ db.listAllAppDeployments) (hid : d.id ≠ d'.id) (hcluster : d'.clusterId = d.clusterId) :
  d'.name ≠ d.name := by
 rcases of_decide_eq_true (all_eq_true.mp hfree d' hd') with hsame | hother | hne
 · exact absurd hsame.symm hid
 · exact absurd hcluster hother
 · exact hne

theorem Effect.hostsDiffer (h : Effect s s' write)
  (hcopied : ∀ copy, write = .store copy ∨ write = .set copy → Copied s.db copy)
  (hfree : livesUnderFreeName s.db write = true) (hs : HostsDiffer s.db) : HostsDiffer s'.db := by
 intro cluster hcluster d hd d' hd' hon hon' hid
 rw [h.clusters] at hcluster
 rw [Ne, deploymentHostname_inj]
 rcases h.live hcopied hfree hd with ⟨e, he, hide, hname, hone⟩ | ⟨htarget, hname⟩
 · rcases h.live hcopied hfree hd' with ⟨e', he', hide', hname', hone'⟩ | ⟨-, hname'⟩
   · have hne := hs cluster hcluster e he e' he' (hone ▸ hon) (hone' ▸ hon') (hide ▸ hide' ▸ hid)
     rw [Ne, deploymentHostname_inj] at hne
     rwa [hname, hname']
   · rw [hname]
     exact name_ne_of_free hname' he (hide ▸ hid.symm) (by rw [← hone, hon, hon'])
 · rcases h.live hcopied hfree hd' with ⟨e', he', hide', hname', hone'⟩ | ⟨htarget', -⟩
   · rw [hname']
     exact (name_ne_of_free hname he' (hide' ▸ hid) (by rw [← hone', hon, hon'])).symm
   · exact absurd (Option.some.inj (htarget.symm.trans htarget')) hid

def KeepsHosts (w : World Store Phase) : Prop := Holds Sound PhaseInv w ∧ HostsDiffer w.db.db

theorem step_keepsHosts {l : Label} (h : KeepsHosts w) (hok : namesFree w l = true)
  (hstep : step text w l = some w') : KeepsHosts w' := by
 refine ⟨step_holds h.1 hstep, ?_⟩
 rcases step_effect hstep with hdb | ⟨id, a, call, rfl, hcall, heffect⟩
 · rw [hdb]
   exact h.2
 · simp only [namesFree, hcall, Option.all_some] at hok
   exact heffect.hostsDiffer (h.1.of_lookup hcall).copied_of_attempt hok h.2

/-- In every run in which deployments go live only under free names, no two live deployments of a cluster have the same
hostname. -/
theorem hostnames_differ (text : ComposeText) (s : Store) (hsound : Sound s) (hs : HostsDiffer s.db) (ls : List Label)
  (w : World Store Phase) (hrun : RunIf (step text) (fun w l => namesFree w l = true) { db := s } ls w) :
  HostsDiffer w.db.db := by
 have hstart : KeepsHosts ({ db := s } : World Store Phase) :=
  ⟨⟨hsound, List.nodup_nil, fun _ hc => absurd hc List.not_mem_nil⟩, hs⟩
 exact (hrun.invariant (fun _ _ _ => step_keepsHosts) hstart).2

def requestOf (userId : Nat) : CreateAppDeploymentRequest where
 userId := userId
 appId := 1
 regionId := 1
 name := "relay"

def nameTakenOver : List Label :=
 [.create 1 (requestOf 1)] ++ queries 1 7 ++ [.reconcile 2 1] ++ queries 2 5 ++ [.delete 3 1 1] ++ queries 3 4 ++
  [.create 4 (requestOf 2)] ++ queries 4 7

theorem hostnames_differ_taken_over : ∃ w,
  RunIf (step relayText) (fun w l => namesFree w l = true)
   { db := { db := roomyCluster } } nameTakenOver w ∧
   w.db.db.appDeployments.map (fun d => (d.userId, d.name, d.deleted)) =
    [(1, "relay", true), (2, "relay", false)] ∧ HostsDiffer w.db.db :=
 RunIf.exists_and_of_execIf (by decide +kernel) fun w hrun _ => hostnames_differ relayText { db := roomyCluster }
  ⟨by decide, by decide, by decide⟩ (fun _ _ _ hd => nomatch hd) _ w hrun

def nameTakenTwice : List Label :=
 [.create 1 (requestOf 1)] ++ queries 1 7 ++ [.create 2 (requestOf 2)] ++ queries 2 7

def shared (db : AppDb) : Bool := db.appClusters.any fun cluster =>
 db.listAllAppDeployments.any fun d => db.listAllAppDeployments.any fun d' =>
  d.clusterId = cluster.id ∧ d'.clusterId = cluster.id ∧ d.id ≠ d'.id ∧ d.userId ≠ d'.userId ∧ d.name = d'.name

theorem not_hostsDiffer_of_shared (h : shared db = true) : ¬ HostsDiffer db := by
 intro hs
 obtain ⟨cluster, hcluster, h⟩ := any_eq_true.mp h
 obtain ⟨d, hd, h⟩ := any_eq_true.mp h
 obtain ⟨d', hd', h⟩ := any_eq_true.mp h
 obtain ⟨hon, hon', hid, -, hname⟩ := of_decide_eq_true h
 exact hs cluster hcluster d hd d' hd' hon hon' hid (deploymentHostname_inj.mpr hname)

theorem hostname_shared : ∃ w, Run (step relayText) { db := { db := roomyCluster } }
  nameTakenTwice w ∧ ¬ HostsDiffer w.db.db :=
 Run.exists_of_exec_imp (fun _ _ => not_hostsDiffer_of_shared) (by decide +kernel)

end AppOperator

end Lnvps
