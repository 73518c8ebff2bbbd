import Lnvps.AppOperator

/-! # Customer actions on app deployments -/

namespace Lnvps

namespace AppOperator

open Table Steps Calls List

variable {text : ComposeText} {s s' : Store} {w w' : World Store Phase} {write : Write} {db : AppDb}

def lastSet (id : Nat) (log : List Commit) : Option DesiredState :=
 log.findSome? fun
  | .set id' state => if id' = id then some state else none
  | .deleted _ => none

def Honoured (s : Store) : Prop :=
 ∀ d ∈ s.db.appDeployments, (Commit.deleted d.id ∈ s.log → d.deleted = true) ∧
  ∀ state, lastSet d.id s.log = some state → d.desiredState = state

def upToDate (db : AppDb) : Write → Bool
 | .store copy => db.appDeployments.all fun d =>
   d.id ≠ copy.id ∨ (d.deleted = copy.deleted ∧ d.desiredState = copy.desiredState)
 | .set copy => db.appDeployments.all fun d => d.id ≠ copy.id ∨ d.deleted = copy.deleted
 | _ => true

def writesUpToDate (w : World Store Phase) : Label → Bool
 | .advance id a => (lookup (·.id) id w.calls).all fun call => upToDate w.db.db (call.phase.attempt a)
 | _ => true

theorem mem_of_lastSet {id : Nat} {log : List Commit} {state : DesiredState} (h : lastSet id log = some state) :
  Commit.set id state ∈ log := by
 obtain ⟨c, hc, hstate⟩ := exists_of_findSome?_eq_some h
 cases c with
 | deleted id' => cases hstate
 | set id' state' =>
  simp only [Option.ite_none_right_eq_some, Option.some.injEq] at hstate
  obtain ⟨rfl, rfl⟩ := hstate
  exact hc

theorem Effect.honoured (h : Effect s s' write) (hsound : Sound s) (hs : Honoured s)
  (hfresh : upToDate s.db write = true) : Honoured s' := by
 intro d' hd'
 rw [h.rows] at hd'
 rw [h.log]
 cases write with
 | nothing => exact hs d' hd'
 | insert copy =>
  rcases mem_insert hd' with hold | rfl
  · exact hs d' hold
  refine ⟨fun hlog => ?_, fun state hlog => ?_⟩
  · exact absurd (hsound.log _ hlog) (lt_irrefl _)
  · exact absurd (hsound.log _ (mem_of_lastSet hlog)) (lt_irrefl _)
 | store copy =>
  obtain ⟨d, hd, hid, -, hsame, hother⟩ := mem_update hd'
  by_cases hcase : d.id = copy.id
  · have hrow := all_eq_true.mp hfresh d hd
    simp only [hcase, ne_eq, not_true_eq_false, false_or, decide_eq_true_eq] at hrow
    obtain ⟨-, hdeleted, hstate⟩ := hsame hcase
    rw [hdeleted, hstate, ← hrow.1, ← hrow.2, hid]
    exact hs d hd
  · rw [hother hcase]
    exact hs d hd
 | set copy =>
  obtain ⟨d, hd, hid, -, hsame, hother⟩ := mem_update hd'
  by_cases hcase : d.id = copy.id
  · have hrow := all_eq_true.mp hfresh d hd
    simp only [hcase, ne_eq, not_true_eq_false, false_or, decide_eq_true_eq] at hrow
    obtain ⟨-, hdeleted, hstate⟩ := hsame hcase
    rw [hdeleted, hstate, ← hrow, hid]
    refine ⟨fun hlog => (hs d hd).1 (by simpa [Write.log] using hlog), fun state hlog => ?_⟩
    simpa [lastSet, Write.log, hcase] using hlog
  · rw [hother hcase]
    refine ⟨fun hlog => (hs d hd).1 (by simpa [Write.log] using hlog), fun state hlog => (hs d hd).2 state ?_⟩
    simpa [lastSet, Write.log, Ne.symm hcase] using hlog
 | delete id =>
  obtain ⟨d, hd, hid, -, -, hstate, hdeleted, -⟩ := mem_delete hd'
  rw [hid, hstate]
  refine ⟨fun hlog => hdeleted ?_, fun state hlog => (hs d hd).2 state (by simpa [lastSet, Write.log] using hlog)⟩
  rcases mem_append.mp hlog with hnew | hold
  · exact .inr (by simpa [Write.log] using hnew)
  · exact .inl ((hs d hd).1 hold)

def KeepsActions (w : World Store Phase) : Prop := Holds Sound PhaseInv w ∧ Honoured w.db

theorem step_keepsActions {l : Label} (h : KeepsActions w) (hok : writesUpToDate w l = true)
  (hstep : step text w l = some w') : KeepsActions w' := by
 refine ⟨step_holds h.1 hstep, ?_⟩
 rcases step_effect hstep with hdb | ⟨id, a, call, rfl, hcall, heffect⟩
 · rw [hdb]
   exact h.2
 · simp only [writesUpToDate, hcall, Option.all_some] at hok
   exact heffect.honoured h.1.db h.2 hok

theorem customer_actions_kept (text : ComposeText) (s : Store) (hsound : Sound s) (hs : Honoured s) (ls : List Label)
  (w : World Store Phase) (hrun : RunIf (step text) (fun w l => writesUpToDate w l = true) { db := s } ls w) :
  Honoured w.db := by
 have hstart : KeepsActions ({ db := s } : World Store Phase) :=
  ⟨⟨hsound, nodup_nil, fun _ hc => absurd hc not_mem_nil⟩, hs⟩
 exact (hrun.invariant (fun _ _ _ => step_keepsActions) hstart).2

def actionsInTurn : List Label :=
 [.reconcile 1 1] ++ queries 1 5 ++ [.setDesiredState 2 1 1 .stopped] ++ queries 2 2 ++
  [.reconcile 3 1] ++ queries 3 5 ++ [.delete 4 1 1] ++ queries 4 3

theorem sound_oneDeployment : Sound { db := oneDeployment } := ⟨by decide, by decide, by decide⟩

theorem customer_actions_kept_in_turn : ∃ w,
  RunIf (step relayText) (fun w l => writesUpToDate w l = true)
   { db := { db := oneDeployment } } actionsInTurn w ∧
   w.db.log = [.deleted 1, .set 1 .stopped] ∧ Honoured w.db :=
 RunIf.exists_and_of_execIf (by decide +kernel) fun w hrun _ => customer_actions_kept relayText { db := oneDeployment }
  sound_oneDeployment (fun _ _ => ⟨nofun, nofun⟩) _ w hrun

def deletedWhileReconciled : List Label :=
 [.reconcile 1 1] ++ queries 1 4 ++ [.delete 2 1 1] ++ queries 2 3 ++ queries 1 1

def stoppedWhileReconciled : List Label :=
 [.reconcile 1 1] ++ queries 1 4 ++ [.setDesiredState 2 1 1 .stopped] ++ queries 2 2 ++ queries 1 1

def deletedWhileFailing : List Label :=
 [.reconcile 1 1] ++ queries 1 2 ++ [.advance 1 { namespaceApplied := .error "timeout" }, .delete 2 1 1] ++
  queries 2 3 ++ queries 1 1

def deletedWhileStopped : List Label :=
 [.setDesiredState 1 1 1 .stopped] ++ queries 1 1 ++ [.delete 2 1 1] ++ queries 2 3 ++ queries 1 1

def lost (s : Store) : Bool := s.db.appDeployments.any fun d =>
 (Commit.deleted d.id ∈ s.log ∧ !d.deleted) ∨ (lastSet d.id s.log).any (· ≠ d.desiredState)

theorem not_honoured_of_lost (h : lost s = true) : ¬ Honoured s := by
 intro hs
 obtain ⟨d, hd, hlost⟩ := any_eq_true.mp h
 rcases of_decide_eq_true hlost with ⟨hlog, hlive⟩ | hset
 · simp [(hs d hd).1 hlog] at hlive
 · cases hstate : lastSet d.id s.log with
   | none => simp [hstate] at hset
   | some state => simp [hstate, (hs d hd).2 state hstate] at hset

private theorem exists_not_honoured {ls : List Label}
  (hrun : (exec (step relayText) { db := { db := oneDeployment } } ls).any (fun w => lost w.db = true) = true) :
  ∃ w, Run (step relayText) { db := { db := oneDeployment } } ls w ∧ ¬ Honoured w.db :=
 Run.exists_of_exec_imp (fun _ _ => not_honoured_of_lost) hrun

theorem customer_action_lost :
  (∃ w, Run (step relayText) { db := { db := oneDeployment } } deletedWhileReconciled w ∧
   ¬ Honoured w.db) ∧
  (∃ w, Run (step relayText) { db := { db := oneDeployment } } stoppedWhileReconciled w ∧
   ¬ Honoured w.db) ∧
  (∃ w, Run (step relayText) { db := { db := oneDeployment } } deletedWhileFailing w ∧
   ¬ Honoured w.db) ∧
  ∃ w, Run (step relayText) { db := { db := oneDeployment } } deletedWhileStopped w ∧
   ¬ Honoured w.db := by
 refine ⟨exists_not_honoured ?_, exists_not_honoured ?_, exists_not_honoured ?_, exists_not_honoured ?_⟩ <;>
  decide +kernel

end AppOperator

end Lnvps
