import Lnvps.Lib.Run
import Lnvps.Lib.StreamLog
import Lnvps.Lib.Table

/-! # The queue of jobs -/

namespace Lnvps.WorkQueue

open StreamLog Steps Table List Option Function

inductive WorkJob
 | patchHosts
 | checkVms
 | checkVm
 | spawnVm
 | sendNotification
 | sendAdminNotification
 | bulkMessage
 | deleteVm
 | startVm
 | stopVm
 | checkNostrDomains
 | processVmUpgrade
 | configureVm
 | applyVmFirewall
 | assignVmIp
 | unassignVmIp
 | updateVmIp
 | processVmRefund
 | listUnmanagedVms
 | importVm
 | reinstallVm
 | createVm
 | sendEmailVerification
 | downloadOsImages
 | checkSubscriptions
 | processReferralPayouts
 | syncRouterState
 | toggleBgpSession
 | setRouterDefaultRoute
 | clearRouterDefaultRoute
 | toggleTunnel
 | patchIpRangeDns
 deriving DecidableEq

def WorkJob.canSkip : WorkJob → Bool
 | .checkNostrDomains | .stopVm | .startVm | .checkVm | .checkVms | .checkSubscriptions | .listUnmanagedVms
 | .reinstallVm => true
 | _ => false

structure WorkJobMessage where
 id : Nat
 job : WorkJob
 isPending : Bool

inductive WorkerPhase
 | listen
 | claim
 | read
 | begin (todo : List WorkJobMessage)
 | execute (msg : WorkJobMessage) (todo : List WorkJobMessage)
 | acknowledge (msg : WorkJobMessage) (todo : List WorkJobMessage)

structure WorkAnswer where
 (fails lost : Bool := false)
 ok : Bool := true

structure State where
 log : Log WorkJob := {}
 now : Nat := 0
 worker : Nat → Option WorkerPhase := fun _ => none
 (history sent : List (Entry WorkJob) := [])
 delivered : List Nat := []
 executions : List (Nat × Bool) := []
 acked : List Nat := []

def maxLen : Nat := 1000

def minIdle : Nat := 10000

def readCount : Nat := 10

def claimCount : Nat := 100

def claimAttempts : Nat := 1000

inductive Label
 | send (job : WorkJob) (trimmed : Nat) (replied : Bool)
 | start (worker : Nat)
 | crash (worker : Nat)
 | tick (ms : Nat)
 | work (worker : Nat) (answer : WorkAnswer)

def toMessage (isPending : Bool) (e : Entry WorkJob) : WorkJobMessage := ⟨e.id, e.value, isPending⟩

def goto (w : Nat) (phase : WorkerPhase) (s : State) : State :=
 { s with worker := Function.update s.worker w (some phase) }

def deliver (w : Nat) (isPending : Bool) (es : List (Entry WorkJob)) (s : State) : State :=
 goto w (.begin (es.map (toMessage isPending))) { s with delivered := s.delivered ++ es.map (·.id) }

def advance (s : State) (w : Nat) (a : WorkAnswer) : WorkerPhase → State
 | .listen => goto w .claim { s with log := if a.fails then s.log else s.log.createGroup }
 | .claim =>
  if a.fails || s.log.group.isNone then goto w .listen s
  else
   let (log, es) := s.log.autoClaim s.now minIdle claimAttempts claimCount
   if a.lost then goto w .listen { s with log }
   else if es.isEmpty then goto w .read { s with log }
   else deliver w true es { s with log }
 | .read =>
  if a.fails || s.log.group.isNone then goto w .listen s
  else
   let (log, es) := s.log.readGroup s.now readCount
   if a.lost then goto w .listen { s with log } else deliver w false es { s with log }
 | .begin [] => goto w .listen s
 | .begin (msg :: todo) => goto w (if a.fails then .listen else .execute msg todo) s
 | .execute msg todo =>
  goto w (if a.ok || msg.job.canSkip then .acknowledge msg todo else .begin todo)
   { s with executions := s.executions ++ [(msg.id, a.ok)] }
 | .acknowledge msg todo =>
  goto w (.begin todo)
   (if a.fails then s else { s with log := s.log.ack msg.id, acked := s.acked ++ [msg.id] })

def addJob (s : State) (job : WorkJob) (trimmed : Nat) (replied : Bool) : State :=
 let e : Entry WorkJob := ⟨s.log.lastId + 1, job⟩
 { s with
   log := s.log.add job trimmed
   history := s.history ++ [e]
   sent := if replied then s.sent ++ [e] else s.sent }

def step (s : State) : Label → Option State
 | .send job trimmed replied =>
  if trimmed = 0 ∨ maxLen ≤ s.log.entries.length + 1 - trimmed then some (addJob s job trimmed replied) else none
 | .start w => if (s.worker w).isNone then some (goto w .listen s) else none
 | .crash w => some { s with worker := Function.update s.worker w none }
 | .tick ms => some { s with now := s.now + ms }
 | .work w a => (s.worker w).map (advance s w a)

def Deliverable (s : State) (id : Nat) : Prop :=
 ∃ ls s' new, Run step s ls s' ∧ s'.delivered = s.delivered ++ new ∧ id ∈ new

def Executed (s : State) (e : Entry WorkJob) : Prop :=
 (e.id, true) ∈ s.executions ∨ (e.value.canSkip = true ∧ (e.id, false) ∈ s.executions)

def safe (s : State) : Label → Bool
 | .send _ trimmed replied => (!replied || s.log.group.isSome) &&
   (s.log.entries.take trimmed).all fun e => e ∉ s.sent ∨ e.id ∈ s.acked
 | _ => true

variable {s t : State} {l : Label} {ls : List Label} {w id : Nat} {a : WorkAnswer} {phase : WorkerPhase}

structure Keeps (s t : State) : Prop where
 entries : t.log.entries = s.log.entries
 lastId : t.log.lastId = s.log.lastId
 history : t.history = s.history
 sent : t.sent = s.sent
 acked : s.acked ⊆ t.acked
 delivered : ∃ new, t.delivered = s.delivered ++ new ∧ ∀ id ∈ new, s.log.Available id
 of_available : ∀ id, t.log.Available id → s.log.Available id
 available : ∀ id, s.log.Available id → id ∈ t.acked ∨ t.log.Available id

theorem Keeps.refl (s : State) : Keeps s s where
 entries := rfl
 lastId := rfl
 history := rfl
 sent := rfl
 acked := .refl _
 delivered := ⟨[], (List.append_nil _).symm, fun _ h => absurd h List.not_mem_nil⟩
 of_available _ h := h
 available _ h := .inr h

theorem Keeps.goto (h : Keeps s t) (w : Nat) (phase : WorkerPhase) : Keeps s (goto w phase t) := { h with }

variable {L : Log WorkJob} {es : List (Entry WorkJob)}

theorem Keeps.log (hentries : L.entries = s.log.entries) (hlast : L.lastId = s.log.lastId)
  (havail : ∀ id, L.Available id ↔ s.log.Available id) : Keeps s { s with log := L } :=
 { Keeps.refl s with
   entries := hentries
   lastId := hlast
   of_available := fun id => (havail id).mp
   available := fun id h => .inr ((havail id).mpr h) }

theorem Keeps.deliver (h : Keeps s t) (hdelivered : t.delivered = s.delivered)
  (hes : ∀ e ∈ es, s.log.Available e.id) (w : Nat) (isPending : Bool) : Keeps s (deliver w isPending es t) := by
 have hkeeps : Keeps s { t with delivered := t.delivered ++ es.map (·.id) } :=
  { h with delivered := ⟨es.map (·.id), by rw [hdelivered], fun id hid => ?_⟩ }
 · exact hkeeps.goto w _
 obtain ⟨e, he, rfl⟩ := mem_map.mp hid
 exact hes e he

theorem keeps_advance (s : State) (w : Nat) (a : WorkAnswer) (phase : WorkerPhase) : Keeps s (advance s w a phase) := by
 cases phase with
 | listen =>
  refine Keeps.goto ?_ w _
  split
  · exact Keeps.refl s
  · exact Keeps.log rfl rfl fun _ => Log.available_createGroup_iff
 | claim =>
  have hlog : Keeps s { s with log := (s.log.autoClaim s.now minIdle claimAttempts claimCount).1 } :=
   .log rfl rfl fun _ => Log.available_autoClaim_iff
  unfold advance
  dsimp only
  split
  · exact (Keeps.refl s).goto w _
  split
  · exact hlog.goto w _
  split
  · exact hlog.goto w _
  · exact hlog.deliver rfl (fun e he => (Log.available_of_mem_autoClaim he).2) w true
 | read =>
  have hlog : Keeps s { s with log := (s.log.readGroup s.now readCount).1 } :=
   .log rfl rfl fun _ => Log.available_readGroup_iff
  unfold advance
  dsimp only
  split
  · exact (Keeps.refl s).goto w _
  split
  · exact hlog.goto w _
  · exact hlog.deliver rfl (fun e he => (Log.available_of_mem_readGroup he).2) w false
 | begin todo => cases todo <;> exact (Keeps.refl s).goto w _
 | execute msg todo =>
  have hkeeps : Keeps s { s with executions := s.executions ++ [(msg.id, a.ok)] } := { Keeps.refl s with }
  exact hkeeps.goto w _
 | acknowledge msg todo =>
  refine .goto ?_ w _
  split
  · exact .refl s
  refine { Keeps.refl s with
   acked := subset_append_left _ _
   of_available := fun id h => h.of_ack
   available := fun id h => ?_ }
  by_cases hid : id = msg.id
  · exact .inl (mem_append_right _ (mem_singleton.mpr hid))
  · exact .inr (h.ack hid)

theorem step_cases (h : step s l = some t) : Keeps s t ∨
  ∃ job trimmed replied, l = .send job trimmed replied ∧ t = addJob s job trimmed replied := by
 cases l with
 | send job trimmed replied =>
  simp only [step] at h
  split at h
  · exact .inr ⟨job, trimmed, replied, rfl, (Option.some.inj h).symm⟩
  · cases h
 | start w =>
  simp only [step] at h
  split at h
  · cases h
    exact .inl ((Keeps.refl s).goto w _)
  · cases h
 | crash w | tick ms =>
  cases h
  exact .inl { Keeps.refl s with }
 | work w a =>
  obtain ⟨phase, -, rfl⟩ := map_eq_some_iff.mp h
  exact .inl (keeps_advance s w a phase)

theorem step_delivered (h : step s l = some t) :
  ∃ new, t.delivered = s.delivered ++ new ∧ ∀ id ∈ new, s.log.Available id := by
 rcases step_cases h with hkeeps | ⟨job, trimmed, replied, -, rfl⟩
 · exact hkeeps.delivered
 · exact (Keeps.refl s).delivered

theorem run_delivered (h : Run step s ls t) : ∃ new, t.delivered = s.delivered ++ new := by
 induction h with
 | nil => exact ⟨[], (append_nil _).symm⟩
 | snoc _ _ hstep ih =>
  obtain ⟨new, hnew⟩ := ih
  obtain ⟨new', hnew', -⟩ := step_delivered hstep
  exact ⟨new ++ new', by rw [hnew', hnew, append_assoc]⟩

theorem step_lost (h : step s l = some t) (hle : id ≤ s.log.lastId) (hlost : ¬s.log.Available id) :
  id ≤ t.log.lastId ∧ ¬t.log.Available id := by
 rcases step_cases h with hkeeps | ⟨job, trimmed, replied, -, rfl⟩
 · exact ⟨hkeeps.lastId ▸ hle, fun havail => hlost (hkeeps.of_available id havail)⟩
 · exact ⟨Nat.le_succ_of_le hle, fun havail => hlost ((Log.available_add_iff hle).mp havail).1⟩

theorem run_lost (h : Run step s ls t) (hle : id ≤ s.log.lastId) (hlost : ¬s.log.Available id) :
  (id ≤ t.log.lastId ∧ ¬t.log.Available id) ∧ ∃ new, t.delivered = s.delivered ++ new ∧ id ∉ new := by
 induction h with
 | nil => exact ⟨⟨hle, hlost⟩, [], (append_nil _).symm, not_mem_nil⟩
 | snoc _ _ hstep ih =>
  obtain ⟨⟨hle', hlost'⟩, new, hnew, hid⟩ := ih
  obtain ⟨new', hnew', havail⟩ := step_delivered hstep
  refine ⟨step_lost hstep hle' hlost', new ++ new', by rw [hnew', hnew, append_assoc], ?_⟩
  rw [mem_append, not_or]
  exact ⟨hid, fun hmem => hlost' (havail id hmem)⟩

theorem available_of_deliverable (hle : id ≤ s.log.lastId) (h : Deliverable s id) : s.log.Available id := by
 by_contra hlost
 obtain ⟨ls, t, new, hrun, hnew, hid⟩ := h
 obtain ⟨-, new', hnew', hid'⟩ := run_lost hrun hle hlost
 rw [append_cancel_left (hnew.symm.trans hnew')] at hid
 exact hid' hid

theorem Deliverable.of_run (hrun : Run step s ls t) (h : Deliverable t id) : Deliverable s id := by
 obtain ⟨ls', u, new, hrun', hnew, hid⟩ := h
 obtain ⟨new', hnew'⟩ := run_delivered hrun
 refine ⟨_, u, new' ++ new, hrun.append hrun', ?_, mem_append_right _ hid⟩
 rw [hnew, hnew', append_assoc]

theorem run_begin (todo : List WorkJobMessage) (hw : s.worker w = some (.begin todo)) :
  ∃ ls t, Run step s ls t ∧ t.log = s.log.ackAll (todo.map (·.id)) := by
 induction todo generalizing s with
 | nil => exact ⟨[], s, .nil, rfl⟩
 | cons msg todo ih =>
  have hstart : step s (.work w {}) = some (goto w (.execute msg todo) s) := by
   simp [step, hw, advance]
  have hexecute : step (goto w (.execute msg todo) s) (.work w {}) = some (goto w (.acknowledge msg todo)
    { s with executions := s.executions ++ [(msg.id, true)] }) := by
   simp [step, goto, advance]
  have hack : step (goto w (.acknowledge msg todo) { s with executions := s.executions ++ [(msg.id, true)] })
    (.work w {}) = some (goto w (.begin todo) { s with
     executions := s.executions ++ [(msg.id, true)]
     log := s.log.ack msg.id
     acked := s.acked ++ [msg.id] }) := by
   simp [step, goto, advance]
  obtain ⟨ls, t, hrun, hlog⟩ := ih (s := goto w (.begin todo) { s with
   executions := s.executions ++ [(msg.id, true)]
   log := s.log.ack msg.id
   acked := s.acked ++ [msg.id] }) (by simp [goto])
  exact ⟨_, t, .cons trivial hstart (.cons trivial hexecute (.cons trivial hack hrun)), hlog⟩

theorem run_restart {g : Group} (hg : s.log.group = some g) (ms : Nat) :
  ∃ ls t, Run step s ls t ∧ t.worker 0 = some .claim ∧ t.log = s.log ∧ t.now = s.now + ms := by
 refine ⟨[.crash 0, .start 0, .tick ms, .work 0 {}], goto 0 .claim { s with now := s.now + ms }, ?_, ?_, rfl, rfl⟩
 · have hcrash : step s (.crash 0) = some { s with worker := update s.worker 0 none } := rfl
   have hstart : step { s with worker := update s.worker 0 none } (.start 0) = some (goto 0 .listen s) := by
    simp [step, goto]
   have htick : step (goto 0 .listen s) (.tick ms) = some (goto 0 .listen { s with now := s.now + ms }) := rfl
   have hlisten : step (goto 0 .listen { s with now := s.now + ms }) (.work 0 {}) =
     some (goto 0 .claim { s with now := s.now + ms }) := by
    simp [step, goto, advance, Log.createGroup_of_some hg]
   exact .cons trivial hcrash (.cons trivial hstart (.cons trivial htick (.single trivial hlisten)))
 · simp [goto]

theorem deliverable_or_acked {isPending : Bool}
  (hstep : step s l = some (deliver w isPending es t)) (hdelivered : t.delivered = s.delivered)
  (havail : t.log.Available id) : Deliverable s id ∨
   ∃ ls u, Run step s ls u ∧ u.log = t.log.ackAll (es.map (·.id)) ∧ u.log.Available id := by
 by_cases hid : id ∈ es.map (·.id)
 · exact .inl ⟨_, _, es.map (·.id), .single trivial hstep, by rw [← hdelivered]; rfl, hid⟩
 right
 obtain ⟨ls, u, hrun, hlog⟩ := run_begin (s := deliver w isPending es t) (w := w) (es.map (toMessage isPending))
  (by simp [deliver, goto])
 rw [List.map_map] at hlog
 exact ⟨_, u, .cons trivial hstep hrun, hlog, hlog ▸ havail.ackAll hid⟩

theorem deliverable_of_available (h : s.log.Available id) : Deliverable s id := by
 induction hn : s.log.backlog using Nat.strong_induction_on generalizing s with
 | _ n ih =>
  subst hn
  have havail := h
  obtain ⟨g, hg, -, -⟩ := h
  obtain ⟨ls, t, hrun, hw, hlog, hnow⟩ := run_restart hg ((g.pending.map (·.deliveredAt)).sum + minIdle)
  have hidle : ∀ p ∈ g.pending, minIdle ≤ t.now - p.deliveredAt := by
   intro p hp
   have hle : p.deliveredAt ≤ (g.pending.map (·.deliveredAt)).sum :=
    single_le_sum (fun _ _ => Nat.zero_le _) _ (mem_map_of_mem hp)
   omega
  rw [← hlog] at hg havail ih
  refine .of_run hrun ?_
  have hnone : t.log.group.isNone = false := by rw [hg]; rfl
  have hclaimed : (t.log.autoClaim t.now minIdle claimAttempts claimCount).1.Available id :=
   Log.available_autoClaim_iff.mpr havail
  by_cases hempty : (t.log.autoClaim t.now minIdle claimAttempts claimCount).2.isEmpty = true
  · have hread : step t (.work 0 {}) = some (goto 0 .read
      { t with log := (t.log.autoClaim t.now minIdle claimAttempts claimCount).1 }) := by
     simp [step, hw, advance, hnone, hempty]
    refine .of_run (.single trivial hread) ?_
    by_cases hpending : g.pending = []
    · have hgroup : (t.log.autoClaim t.now minIdle claimAttempts claimCount).1.group = some g := by
       rw [Log.autoClaim_of_nil hg hpending]
       exact hg
      rw [Log.autoClaim_of_nil hg hpending]
      have hstep : step (goto 0 .read t) (.work 0 {}) = some (deliver 0 false (t.log.readGroup t.now readCount).2
        (goto 0 .read { t with log := (t.log.readGroup t.now readCount).1 })) := by
       simp [step, goto, advance, deliver, hnone]
      rcases deliverable_or_acked hstep rfl (Log.available_readGroup_iff.mpr havail) with
       hdone | ⟨ls', u, hrun', hulog, huavail⟩
      · exact hdone
      · refine .of_run hrun' (ih _ ?_ huavail rfl)
        rw [hulog]
        exact Log.backlog_readGroup_lt hg hpending (Log.undelivered_ne_nil hg hpending havail)
    · refine ih _ ?_ hclaimed rfl
      have hlt := Log.backlog_autoClaim_lt 999 99 hg hpending hidle
      rw [show (t.log.autoClaim t.now minIdle (999 + 1) (99 + 1)).2 = [] from isEmpty_iff.mp hempty] at hlt
      exact hlt
  · have hstep : step t (.work 0 {}) = some (deliver 0 true (t.log.autoClaim t.now minIdle claimAttempts claimCount).2
      { t with log := (t.log.autoClaim t.now minIdle claimAttempts claimCount).1 }) := by
     simp [step, hw, advance, hnone, hempty]
    rcases deliverable_or_acked hstep rfl hclaimed with hdone | ⟨ls', u, hrun', hulog, huavail⟩
    · exact hdone
    refine .of_run hrun' (ih _ ?_ huavail rfl)
    rw [hulog]
    refine Log.backlog_autoClaim_lt 999 99 hg ?_ hidle
    intro hnil
    refine hempty ?_
    simp [Log.autoClaim, hg, hnil, scan, claimAttempts, claimCount]

def entryOf (msg : WorkJobMessage) : Entry WorkJob := ⟨msg.id, msg.job⟩

def PhaseOk (s : State) : WorkerPhase → Prop
 | .listen | .claim | .read => True
 | .begin todo => ∀ msg ∈ todo, entryOf msg ∈ s.history
 | .execute msg todo => entryOf msg ∈ s.history ∧ ∀ msg ∈ todo, entryOf msg ∈ s.history
 | .acknowledge msg todo =>
  entryOf msg ∈ s.history ∧ Executed s (entryOf msg) ∧ ∀ msg ∈ todo, entryOf msg ∈ s.history

structure Inv (s : State) : Prop where
 history_le : ∀ e ∈ s.history, e.id ≤ s.log.lastId
 keyed : Keyed (·.id) s.history
 entries : s.log.entries ⊆ s.history
 sent : s.sent ⊆ s.history
 acked : ∀ id ∈ s.acked, ∃ e ∈ s.history, e.id = id ∧ Executed s e
 phase : ∀ w phase, s.worker w = some phase → PhaseOk s phase

theorem Executed.mono {e : Entry WorkJob} (h : Executed s e) (hsub : s.executions ⊆ t.executions) : Executed t e :=
 h.imp (fun hok => hsub hok) fun hfailed => ⟨hfailed.1, hsub hfailed.2⟩

theorem PhaseOk.mono (h : PhaseOk s phase) (hhistory : s.history ⊆ t.history)
  (hexecutions : s.executions ⊆ t.executions) : PhaseOk t phase := by
 cases phase with
 | listen => trivial
 | claim => trivial
 | read => trivial
 | begin todo => exact fun msg hmsg => hhistory (h msg hmsg)
 | execute msg todo => exact ⟨hhistory h.1, fun msg hmsg => hhistory (h.2 msg hmsg)⟩
 | acknowledge msg todo =>
  exact ⟨hhistory h.1, h.2.1.mono hexecutions, fun msg hmsg => hhistory (h.2.2 msg hmsg)⟩

theorem inv_init : Inv {} where
 history_le := fun _ h => absurd h List.not_mem_nil
 keyed := List.nodup_nil
 entries := .refl _
 sent := .refl _
 acked := fun _ h => absurd h List.not_mem_nil
 phase := fun _ _ h => absurd h.symm (Option.some_ne_none _)

theorem Inv.goto (h : Inv s) (w : Nat) (phase : WorkerPhase) (hphase : PhaseOk s phase) : Inv (goto w phase s) :=
 { h with
   phase := by
    intro w' phase' hw'
    by_cases heq : w' = w
    · subst heq
      simp only [WorkQueue.goto, update_self, Option.some.injEq] at hw'
      exact hw' ▸ hphase
    · simp only [WorkQueue.goto, update_of_ne heq] at hw'
      exact h.phase w' phase' hw' }

theorem Inv.log (h : Inv s) (hentries : L.entries = s.log.entries) (hlast : L.lastId = s.log.lastId) :
  Inv { s with log := L } :=
 { h with
   history_le := fun e he => hlast ▸ h.history_le e he
   entries := by simpa only [hentries] using h.entries }

theorem Inv.deliver (h : Inv s) (hes : ∀ e ∈ es, e ∈ s.history) (w : Nat)
  (isPending : Bool) : Inv (deliver w isPending es s) := by
 have hinv : Inv { s with delivered := s.delivered ++ es.map (·.id) } := { h with }
 refine hinv.goto w (.begin (es.map (toMessage isPending))) fun msg hmsg => ?_
 obtain ⟨e, he, rfl⟩ := mem_map.mp hmsg
 exact hes e he

theorem Inv.execute (h : Inv s) (id : Nat) (ok : Bool) : Inv { s with executions := s.executions ++ [(id, ok)] } := by
 have hsub : s.executions ⊆ s.executions ++ [(id, ok)] := subset_append_left _ _
 refine { h with acked := fun id hid => ?_, phase := fun w phase hw => ?_ }
 · obtain ⟨e, he, heid, hexec⟩ := h.acked id hid
   exact ⟨e, he, heid, hexec.mono hsub⟩
 · exact (h.phase w phase hw).mono (.refl _) hsub

theorem Inv.addJob (h : Inv s) (job : WorkJob) (trimmed : Nat) (replied : Bool) :
  Inv (addJob s job trimmed replied) := by
 have hsub : s.history ⊆ s.history ++ [⟨s.log.lastId + 1, job⟩] := subset_append_left _ _
 have hnew : (⟨s.log.lastId + 1, job⟩ : Entry WorkJob) ∈ s.history ++ [⟨s.log.lastId + 1, job⟩] :=
  mem_append_right _ (mem_singleton_self _)
 constructor
 · intro e he
   rcases mem_snoc.mp he with hold | rfl
   · exact Nat.le_succ_of_le (h.history_le e hold)
   · exact Nat.le_refl _
 · exact h.keyed.snoc fun e he => Nat.ne_of_lt (Nat.lt_succ_of_le (h.history_le e he))
 · intro e he
   rcases mem_append.mp he with hold | hnew'
   · exact hsub (h.entries (mem_of_mem_drop hold))
   · exact mem_singleton.mp hnew' ▸ hnew
 · intro e he
   simp only [WorkQueue.addJob] at he
   split at he
   · rcases mem_append.mp he with hold | hnew'
     · exact hsub (h.sent hold)
     · exact mem_singleton.mp hnew' ▸ hnew
   · exact hsub (h.sent he)
 · intro id hid
   obtain ⟨e, he, heid, hexec⟩ := h.acked id hid
   exact ⟨e, hsub he, heid, hexec⟩
 · exact fun w phase hw => (h.phase w phase hw).mono hsub (.refl _)

theorem inv_advance (h : Inv s) (hw : s.worker w = some phase) (a : WorkAnswer) : Inv (advance s w a phase) := by
 have hphase := h.phase w phase hw
 cases phase with
 | listen =>
  refine .goto ?_ w .claim trivial
  split
  · exact h
  · exact h.log rfl rfl
 | claim =>
  have hlog : Inv { s with log := (s.log.autoClaim s.now minIdle claimAttempts claimCount).1 } := h.log rfl rfl
  unfold advance
  dsimp only
  split
  · exact h.goto w .listen trivial
  split
  · exact hlog.goto w .listen trivial
  split
  · exact hlog.goto w .read trivial
  · exact hlog.deliver (fun e he => h.entries (Log.available_of_mem_autoClaim he).1) w true
 | read =>
  have hlog : Inv { s with log := (s.log.readGroup s.now readCount).1 } := h.log rfl rfl
  unfold advance
  dsimp only
  split
  · exact h.goto w .listen trivial
  split
  · exact hlog.goto w .listen trivial
  · exact hlog.deliver (fun e he => h.entries (Log.available_of_mem_readGroup he).1) w false
 | begin todo =>
  cases todo with
  | nil => exact h.goto w .listen trivial
  | cons msg todo =>
   refine h.goto w _ ?_
   split
   · trivial
   · exact forall_mem_cons.mp hphase
 | execute msg todo =>
  refine (h.execute msg.id a.ok).goto w _ ?_
  have hnew : (msg.id, a.ok) ∈ s.executions ++ [(msg.id, a.ok)] := mem_append_right _ (mem_singleton_self _)
  split
  · rename_i hack
    refine ⟨hphase.1, ?_, hphase.2⟩
    cases hok : a.ok with
    | true => exact .inl (hok ▸ hnew)
    | false =>
     rw [hok, Bool.false_or] at hack
     exact .inr ⟨hack, hok ▸ hnew⟩
  · exact hphase.2
 | acknowledge msg todo =>
  obtain ⟨hmsg, hexec, htodo⟩ := hphase
  refine .goto ?_ w (.begin todo) ?_
  · split
    · exact h
    refine { h.log (L := s.log.ack msg.id) rfl rfl with acked := fun id hid => ?_ }
    rcases mem_append.mp hid with hold | hnew
    · exact h.acked id hold
    · exact ⟨entryOf msg, hmsg, (mem_singleton.mp hnew).symm, hexec⟩
  · split
    · exact htodo
    · exact htodo

theorem step_inv (h : Inv s) (hstep : step s l = some t) : Inv t := by
 cases l with
 | send job trimmed replied =>
  simp only [step] at hstep
  split at hstep
  · cases hstep
    exact h.addJob job trimmed replied
  · cases hstep
 | start w =>
  simp only [step] at hstep
  split at hstep
  · cases hstep
    exact h.goto w .listen trivial
  · cases hstep
 | crash w =>
  cases hstep
  refine { h with phase := fun w' phase hw' => ?_ }
  by_cases heq : w' = w
  · subst heq
    simp at hw'
  · simp only [update_of_ne heq] at hw'
    exact h.phase w' phase hw'
 | tick ms =>
  cases hstep
  exact { h with }
 | work w a =>
  obtain ⟨phase, hw, rfl⟩ := map_eq_some_iff.mp hstep
  exact inv_advance h hw a

theorem run_inv (h : Run step {} ls t) : Inv t := h.invariant (fun _ _ _ hinv _ hstep => step_inv hinv hstep) inv_init

theorem acknowledged_after_execution (h : Run step {} ls t) : ∀ e ∈ t.sent, e.id ∈ t.acked → Executed t e := by
 intro e he hid
 have hinv := run_inv h
 obtain ⟨e', he', heid, hexec⟩ := hinv.acked e.id hid
 obtain rfl := hinv.keyed.eq_of_key he' (hinv.sent he) heid
 exact hexec

def Held (s : State) : Prop := ∀ e ∈ s.sent, e.id ∈ s.acked ∨ s.log.Available e.id

theorem step_held (hinv : Inv s) (h : Held s) (hsafe : safe s l = true) (hstep : step s l = some t) : Held t := by
 rcases step_cases hstep with hkeeps | ⟨job, trimmed, replied, rfl, rfl⟩
 · intro e he
   rcases h e (hkeeps.sent ▸ he) with hacked | havail
   · exact .inl (hkeeps.acked hacked)
   · exact hkeeps.available e.id havail
 simp only [safe, Bool.and_eq_true, Bool.or_eq_true, Bool.not_eq_true', List.all_eq_true, decide_eq_true_eq] at hsafe
 obtain ⟨hgroup, htrimmed⟩ := hsafe
 have hold : ∀ e ∈ s.sent, e.id ∈ s.acked ∨ (s.log.add job trimmed).Available e.id := by
  intro e he
  by_cases hacked : e.id ∈ s.acked
  · exact .inl hacked
  have havail := (h e he).resolve_left hacked
  refine .inr ((Log.available_add_iff havail.le).mpr ⟨havail, fun e' he' hid => ?_⟩)
  obtain rfl := hinv.keyed.eq_of_key (hinv.entries (mem_of_mem_take he')) (hinv.sent he) hid
  exact (htrimmed e' he').elim (fun hnot => hnot he) hacked
 intro e he
 simp only [addJob] at he
 split at he
 · rename_i hreplied
   rcases mem_snoc.mp he with hsent | rfl
   · exact hold e hsent
   · refine .inr (Log.available_add_new.mpr (hgroup.resolve_left ?_))
     rw [hreplied]
     exact Bool.noConfusion
 · exact hold e he

theorem safe_of_held (hinv : Inv s) (hstep : step s l = some t) (h : Held t) : safe s l = true := by
 rcases l with ⟨job, trimmed, replied⟩ | _ | _ | _ | _
 · simp only [step] at hstep
   split at hstep
   · cases hstep
     simp only [safe, Bool.and_eq_true, Bool.or_eq_true, Bool.not_eq_true', List.all_eq_true, decide_eq_true_eq]
     constructor
     · cases replied with
       | false => exact .inl rfl
       | true =>
        right
        rcases h ⟨s.log.lastId + 1, job⟩ (mem_append_right _ (mem_singleton_self _)) with hacked | havail
        · obtain ⟨e, he, hid, -⟩ := hinv.acked _ hacked
          have hle := hinv.history_le e he
          simp only at hid
          omega
        · exact Log.available_add_new.mp havail
     · intro e he
       by_cases hsent : e ∈ s.sent
       · right
         refine (h e ?_).resolve_right fun havail => ?_
         · simp only [addJob]
           split
           · exact mem_append_left _ hsent
           · exact hsent
         · have hle := hinv.history_le e (hinv.sent hsent)
           exact ((Log.available_add_iff hle).mp havail).2 e he rfl
       · exact .inl hsent
   · cases hstep
 all_goals rfl

theorem held_iff_deliverable (hinv : Inv s) : Held s ↔ ∀ e ∈ s.sent, e.id ∈ s.acked ∨ Deliverable s e.id := by
 refine forall₂_congr fun e he => or_congr_right ⟨deliverable_of_available, available_of_deliverable ?_⟩
 exact hinv.history_le e (hinv.sent he)

theorem at_least_once_iff (ls : List Label) (t : State) (h : Run step {} ls t) :
  ((∀ ls' u, ls' <+: ls → Run step {} ls' u → ∀ e ∈ u.sent, e.id ∈ u.acked ∨ Deliverable u e.id) ↔
    RunIf step (fun s l => safe s l = true) {} ls t) ∧
   ∀ e ∈ t.sent, e.id ∈ t.acked → Executed t e := by
 refine ⟨⟨fun hall => ?_, fun hsafe ls' u hls hrun => ?_⟩, acknowledged_after_execution h⟩
 · induction h with
   | nil => exact .nil
   | @snoc u t ls l hrun _ hstep ih =>
    have hheld : Held t := (held_iff_deliverable (run_inv (hrun.snoc trivial hstep))).mpr
     (hall _ t (prefix_refl _) (hrun.snoc trivial hstep))
    refine .snoc (ih fun ls' v hls => hall ls' v (hls.trans (prefix_append _ _))) ?_ hstep
    exact safe_of_held (run_inv hrun) hstep hheld
 · refine (held_iff_deliverable (run_inv hrun)).mp ?_
   obtain ⟨rest, rfl⟩ := hls
   obtain ⟨u', hleft, -⟩ := hsafe.of_append
   obtain rfl := hrun.unique hleft
   have hkeep : ∀ s l t, Inv s ∧ Held s → safe s l = true → step s l = some t → Inv t ∧ Held t :=
    fun _ _ _ ⟨hinv, hheld⟩ hok hstep => ⟨step_inv hinv hstep, step_held hinv hheld hok hstep⟩
   have hboth := hleft.invariant hkeep ⟨inv_init, fun _ he => absurd he not_mem_nil⟩
   exact hboth.2

def skippedJob : List Label :=
 [.start 0, .work 0 {}, .send .startVm 0 true, .work 0 {}, .work 0 {}, .work 0 {}, .work 0 { ok := false }, .work 0 {}]

theorem at_least_once_iff_skipped : ∃ t, Run step {} skippedJob t ∧ t.acked = [1] ∧
  ∀ ls' u, ls' <+: skippedJob → Run step {} ls' u → ∀ e ∈ u.sent, e.id ∈ u.acked ∨ Deliverable u e.id := by
 obtain ⟨t, hsafe, hacked⟩ := RunIf.exists_of_execIf (f := step) (c := safe) (s := {}) (r := skippedJob)
  (P := fun t => t.acked = [1]) (by decide +kernel)
 have hrun : Run step {} skippedJob t := hsafe.mono fun _ _ _ => trivial
 exact ⟨t, hrun, hacked, (at_least_once_iff skippedJob t hrun).1.mpr hsafe⟩

theorem run_sends (job : WorkJob) (n : Nat) (s : State) : ∃ t rest,
  Run step s (List.replicate n (.send job 0 true)) t ∧ t.log.entries = s.log.entries ++ rest ∧ rest.length = n ∧
   s.sent ⊆ t.sent ∧ t.acked = s.acked := by
 induction n generalizing s with
 | zero => exact ⟨s, [], .nil, (append_nil _).symm, rfl, .refl _, rfl⟩
 | succ n ih =>
  have hsend : step s (.send job 0 true) = some (addJob s job 0 true) := by simp [step]
  obtain ⟨t, rest, hrun, hentries, hlen, hsent, hacked⟩ := ih (addJob s job 0 true)
  refine ⟨t, ⟨s.log.lastId + 1, job⟩ :: rest, .cons trivial hsend hrun, ?_, by rw [length_cons, hlen],
   fun e he => hsent (mem_append_left _ he), hacked⟩
  rw [hentries]
  simp [addJob, Log.add]

/-- A job that is sent before the first worker starts is never delivered. With the group in place, but no worker at
work, 1100 jobs are sent, and the first hundred are trimmed. -/
theorem job_lost :
  (∃ t, Run step {} [.send .spawnVm 0 true] t ∧ ⟨1, .spawnVm⟩ ∈ t.sent ∧ 1 ∉ t.acked ∧ ¬Deliverable t 1) ∧
   ∃ t, Run step {} ([.start 0, .work 0 {}, .send .spawnVm 0 true] ++
     (List.replicate 1098 (.send .checkVms 0 true) ++ [.send .checkVms 100 true])) t ∧
    ⟨1, .spawnVm⟩ ∈ t.sent ∧ 1 ∉ t.acked ∧ ¬Deliverable t 1 := by
 constructor
 · refine ⟨_, .single trivial rfl, mem_singleton_self _, not_mem_nil, fun h => ?_⟩
   obtain ⟨g, hg, -⟩ := available_of_deliverable (Nat.le_refl 1) h
   cases hg
 obtain ⟨s, hstart, hentries, hsent, hacked⟩ := Run.exists_of_exec (f := step) (s := {})
  (r := [.start 0, .work 0 {}, .send .spawnVm 0 true])
  (P := fun s => s.log.entries = [⟨1, .spawnVm⟩] ∧ ⟨1, .spawnVm⟩ ∈ s.sent ∧ s.acked = []) (by decide +kernel)
 obtain ⟨u, rest, hsends, hentries', hlen, hsent', hacked'⟩ := run_sends .checkVms 1098 s
 rw [hentries] at hentries'
 have hfull : u.log.entries.length = 1099 := by rw [hentries', length_append, hlen]; rfl
 have hsend : step u (.send .checkVms 100 true) = some (addJob u .checkVms 100 true) := by
  simp [step, hfull, maxLen]
 refine ⟨_, hstart.append (hsends.snoc trivial hsend), mem_append_left _ (hsent' hsent), ?_, fun h => ?_⟩
 · change 1 ∉ u.acked
   rw [hacked', hacked]
   exact not_mem_nil
 have hfirst : (⟨1, .spawnVm⟩ : Entry WorkJob) ∈ u.log.entries := by
  rw [hentries']
  exact mem_append_left _ (mem_singleton_self _)
 have hle : 1 ≤ u.log.lastId := u.log.le _ hfirst
 have havail := available_of_deliverable (Nat.le_succ_of_le hle) h
 refine ((Log.available_add_iff hle).mp havail).2 ⟨1, .spawnVm⟩ ?_ rfl
 rw [hentries']
 exact mem_cons_self

end Lnvps.WorkQueue
