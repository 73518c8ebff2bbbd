import Mathlib.Data.List.Basic

/-! # Pipelines of steps with retries and rollbacks -/

namespace Lnvps

open List

variable {σ ε : Type}

inductive OpError (ε : Type)
 | transient (e : ε)
 | fatal (e : ε)

def OpError.intoInner : OpError ε → ε
 | .transient e | .fatal e => e

abbrev OpResult (ε : Type) := Except (OpError ε) Unit

abbrev Op (σ ε : Type) := σ → OpResult ε × σ

structure RetryPolicy where
 maxRetries : Nat := 3

structure PipelineStep (σ ε : Type) where
 name : String := ""
 action : Op σ ε
 rollback : Option (Op σ ε) := none

structure Pipeline (σ ε : Type) where
 steps : List (PipelineStep σ ε) := []
 retryPolicy : Option RetryPolicy := none

structure Tried (σ ε : Type) where
 attempts : List (OpResult ε)
 result : Except ε Unit
 state : σ

def Tried.Leaves (t : Tried σ ε) (F D : σ → Prop) : Prop :=
 (∃ e, t.result = .error e) ∧ F t.state ∨ t.result = .ok () ∧ D t.state

def retryLoop (op : Op σ ε) : Nat → σ → Tried σ ε
 | left, s =>
  match op s with
  | (.ok (), s') => ⟨[.ok ()], .ok (), s'⟩
  | (.error (.fatal e), s') => ⟨[.error (.fatal e)], .error e, s'⟩
  | (.error (.transient e), s') =>
   match left with
   | 0 => ⟨[.error (.transient e)], .error e, s'⟩
   | left + 1 =>
    let t := retryLoop op left s'
    { t with attempts := .error (.transient e) :: t.attempts }

def attempt (policy : Option RetryPolicy) (op : Op σ ε) (s : σ) : Tried σ ε :=
 match policy with
 | some policy => retryLoop op policy.maxRetries s
 | none =>
  match op s with
  | (.ok (), s') => ⟨[.ok ()], .ok (), s'⟩
  | (.error e, s') => ⟨[.error e], .error e.intoInner, s'⟩

namespace Pipeline

inductive Event (ε : Type)
 | action (index : Nat) (result : OpResult ε)
 | rollback (index : Nat) (result : OpResult ε)

structure Execution (σ ε : Type) where
 result : Except ε Unit
 trace : List (Event ε)
 state : σ

def rollbackAll (policy : Option RetryPolicy) : List (Nat × Op σ ε) → σ → List (Event ε) × σ
 | [], s => ([], s)
 | (i, rollback) :: rest, s =>
  let t := attempt policy rollback s
  let r := rollbackAll policy rest t.state
  (t.attempts.map (.rollback i) ++ r.1, r.2)

def executeFrom (policy : Option RetryPolicy) :
  List (PipelineStep σ ε) → Nat → List (Nat × Op σ ε) → σ → Execution σ ε
 | [], _, _, s => ⟨.ok (), [], s⟩
 | step :: steps, index, completed, s =>
  let t := attempt policy step.action s
  match t.result with
  | .ok () =>
   let completed := match step.rollback with
    | some rollback => completed ++ [(index, rollback)]
    | none => completed
   let x := executeFrom policy steps (index + 1) completed t.state
   { x with trace := t.attempts.map (.action index) ++ x.trace }
  | .error e =>
   let r := rollbackAll policy completed.reverse t.state
   ⟨.error e, t.attempts.map (.action index) ++ r.1, r.2⟩

def execute (p : Pipeline σ ε) (s : σ) : Execution σ ε := executeFrom p.retryPolicy p.steps 0 [] s

def retries (policy : Option RetryPolicy) : Nat := (policy.map (·.maxRetries)).getD 0

def final : OpResult ε → Except ε Unit
 | .ok () => .ok ()
 | .error e => .error e.intoInner

structure Tries (policy : Option RetryPolicy) (attempts : List (OpResult ε)) (result : Except ε Unit) : Prop where
 last : attempts.getLast?.map final = some result
 retried : ∀ r ∈ attempts.dropLast, ∃ e, r = .error (.transient e)
 bound : attempts.length ≤ retries policy + 1

inductive Replays (steps : List (PipelineStep σ ε)) : σ → List (Event ε) → σ → Prop
 | nil {s : σ} : Replays steps s [] s
 | action {i : Nat} {step : PipelineStep σ ε} {r : OpResult ε} {tr : List (Event ε)} {s s' t : σ} :
   steps[i]? = some step → step.action s = (r, s') → Replays steps s' tr t → Replays steps s (.action i r :: tr) t
 | rollback {i : Nat} {step : PipelineStep σ ε} {op : Op σ ε} {r : OpResult ε} {tr : List (Event ε)} {s s' t : σ} :
   steps[i]? = some step → step.rollback = some op → op s = (r, s') → Replays steps s' tr t →
    Replays steps s (.rollback i r :: tr) t

def hasRollback (steps : List (PipelineStep σ ε)) (i : Nat) : Bool := steps[i]?.any fun step => step.rollback.isSome

def Traced (policy : Option RetryPolicy) (steps : List (PipelineStep σ ε)) (index : Nat) (s : σ)
  (x : Execution σ ε) : Prop :=
 ∃ (actions : List (List (OpResult ε) × Except ε Unit)) (undone : List (Nat × List (OpResult ε))),
  x.trace = (actions.zipIdx index).flatMap (fun b => b.1.1.map (.action b.2)) ++
   undone.flatMap (fun u => u.2.map (.rollback u.1)) ∧
  Replays steps s x.trace x.state ∧
  (∀ b ∈ actions, Tries policy b.1 b.2) ∧ (∀ u ∈ undone, ∃ r, Tries policy u.2 r) ∧
  match x.result with
  | .ok () => index + actions.length = steps.length ∧ (∀ b ∈ actions, b.2 = .ok ()) ∧ undone = []
  | .error e => ∃ earlier failed, actions = earlier ++ [failed] ∧ index + earlier.length < steps.length ∧
    (∀ b ∈ earlier, b.2 = .ok ()) ∧ failed.2 = .error e ∧
    undone.map (·.1) = ((List.range (index + earlier.length)).filter (hasRollback steps)).reverse

section Attempts

variable {steps : List (PipelineStep σ ε)} {op : Op σ ε} {s t : σ}

theorem Replays.append {tr tr' : List (Event ε)} {u : σ} (h : Replays steps s tr t) (h' : Replays steps t tr' u) :
  Replays steps s (tr ++ tr') u := by
 induction h with
 | nil => exact h'
 | action hi hop _ ih => exact .action hi hop (ih h')
 | rollback hi hrb hop _ ih => exact .rollback hi hrb hop (ih h')

variable (policy : Option RetryPolicy)

theorem attempt_eq (op : Op σ ε) (s : σ) : attempt policy op s = retryLoop op (retries policy) s := by
 cases policy with
 | some policy => rfl
 | none =>
  unfold attempt retryLoop
  rcases op s with ⟨_ | _, s'⟩
  · rename_i e
    cases e <;> rfl
  · rfl

theorem tries_attempt (op : Op σ ε) (s : σ) :
  Tries policy (attempt policy op s).attempts (attempt policy op s).result := by
 rw [attempt_eq]
 have hloop : ∀ left s, (retryLoop op left s).attempts.getLast?.map final = some (retryLoop op left s).result ∧
   (∀ r ∈ (retryLoop op left s).attempts.dropLast, ∃ e, r = .error (.transient e)) ∧
   (retryLoop op left s).attempts.length ≤ left + 1 := by
  intro left
  induction left with
  | zero =>
   intro s
   unfold retryLoop
   rcases op s with ⟨(_ | _) | _, s'⟩ <;> simp [final, OpError.intoInner]
  | succ left ih =>
   intro s
   unfold retryLoop
   rcases op s with ⟨(e | e) | _, s'⟩
   · obtain ⟨hlast, hretried, hbound⟩ := ih s'
     have hne : (retryLoop op left s').attempts ≠ [] := by
      intro hnil
      rw [hnil] at hlast
      cases hlast
     refine ⟨?_, ?_, ?_⟩
     · rw [List.getLast?_cons, ← hlast, List.getLast?_eq_some_getLast hne]
       rfl
     · rw [dropLast_cons_of_ne_nil hne, forall_mem_cons]
       exact ⟨⟨e, rfl⟩, hretried⟩
     · rw [length_cons]
       omega
   · simp [final, OpError.intoInner]
   · simp [final]
 obtain ⟨hlast, hretried, hbound⟩ := hloop (retries policy) s
 exact ⟨hlast, hretried, hbound⟩

variable {policy : Option RetryPolicy}

theorem replays_attempt {mk : OpResult ε → Event ε}
  (hmk : ∀ s r s' tr t, op s = (r, s') → Replays steps s' tr t → Replays steps s (mk r :: tr) t) (s : σ) :
  Replays steps s ((attempt policy op s).attempts.map mk) (attempt policy op s).state := by
 rw [attempt_eq]
 generalize retries policy = left
 induction left generalizing s with
 | zero =>
  unfold retryLoop
  rcases hop : op s with ⟨(e | e) | _, s'⟩ <;> exact hmk _ _ _ _ _ hop .nil
 | succ left ih =>
  unfold retryLoop
  rcases hop : op s with ⟨(e | e) | _, s'⟩
  · exact hmk _ _ _ _ _ hop (ih s')
  · exact hmk _ _ _ _ _ hop .nil
  · exact hmk _ _ _ _ _ hop .nil

theorem attempt_outcome {I F D : σ → Prop}
  (hop : ∀ u, I u → (∃ e v, op u = (.error e, v) ∧ F v ∧ ∀ m, e = .transient m → I v) ∨
   ∃ v, op u = (.ok (), v) ∧ D v) (h : I s) : (attempt policy op s).Leaves F D := by
 rw [attempt_eq]
 generalize retries policy = left
 induction left generalizing s with
 | zero =>
  unfold retryLoop
  obtain ⟨e | e, v, hv, hF, -⟩ | ⟨v, hv, hD⟩ := hop s h <;> rw [hv]
  · exact .inl ⟨⟨e, rfl⟩, hF⟩
  · exact .inl ⟨⟨e, rfl⟩, hF⟩
  · exact .inr ⟨rfl, hD⟩
 | succ left ih =>
  unfold retryLoop
  obtain ⟨e | e, v, hv, hF, hI⟩ | ⟨v, hv, hD⟩ := hop s h <;> rw [hv]
  · exact ih (hI e rfl)
  · exact .inl ⟨⟨e, rfl⟩, hF⟩
  · exact .inr ⟨rfl, hD⟩

theorem attempt_of_ok (h : op s = (.ok (), t)) : attempt policy op s = ⟨[.ok ()], .ok (), t⟩ := by
 rw [attempt_eq]
 unfold retryLoop
 rw [h]

theorem leaves_of_ok (h : op s = (.ok (), t)) : (attempt policy op s).Leaves (fun _ => False) (t = ·) := by
 rw [attempt_of_ok h]
 exact .inr ⟨rfl, rfl⟩

theorem attempt_of_fatal {e : ε} (h : op s = (.error (.fatal e), t)) :
  attempt policy op s = ⟨[.error (.fatal e)], .error e, t⟩ := by
 rw [attempt_eq]
 unfold retryLoop
 rw [h]

end Attempts

section Steps

variable {policy : Option RetryPolicy} {all : List (PipelineStep σ ε)}

structure Completed (all : List (PipelineStep σ ε)) (index : Nat) (completed : List (Nat × Op σ ε)) : Prop where
 indices : completed.map (·.1) = (List.range index).filter (hasRollback all)
 ops : ∀ c ∈ completed, ∃ step, all[c.1]? = some step ∧ step.rollback = some c.2

theorem rollbackAll_spec {ops : List (Nat × Op σ ε)}
  (hops : ∀ c ∈ ops, ∃ step, all[c.1]? = some step ∧ step.rollback = some c.2) (s : σ) :
  Replays all s (rollbackAll policy ops s).1 (rollbackAll policy ops s).2 ∧
   ∃ undone : List (Nat × List (OpResult ε)),
    (rollbackAll policy ops s).1 = undone.flatMap (fun u => u.2.map (.rollback u.1)) ∧
    (∀ u ∈ undone, ∃ r, Tries policy u.2 r) ∧ undone.map (·.1) = ops.map (·.1) := by
 induction ops generalizing s with
 | nil => exact ⟨.nil, [], rfl, nofun, rfl⟩
 | cons c rest ih =>
  obtain ⟨i, op⟩ := c
  obtain ⟨step, hstep, hrollback⟩ := hops (i, op) mem_cons_self
  obtain ⟨hreplay, undone, htrace, htries, hindices⟩ :=
   ih (fun c hc => hops c (mem_cons_of_mem _ hc)) (attempt policy op s).state
  have hfirst := @replays_attempt σ ε all op policy (.rollback i)
   (fun _ _ _ _ _ hop htr => .rollback hstep hrollback hop htr) s
  refine ⟨hfirst.append hreplay, (i, (attempt policy op s).attempts) :: undone, ?_, ?_, ?_⟩
  · rw [rollbackAll, flatMap_cons, htrace]
  · rw [forall_mem_cons]
    exact ⟨⟨_, tries_attempt policy op s⟩, htries⟩
  · rw [map_cons, map_cons, hindices]

theorem Completed.snoc {index : Nat} {completed : List (Nat × Op σ ε)} {step : PipelineStep σ ε}
  (h : Completed all index completed) (hstep : all[index]? = some step) :
  Completed all (index + 1) (match step.rollback with
   | some rollback => completed ++ [(index, rollback)]
   | none => completed) := by
 have hrange : (List.range (index + 1)).filter (hasRollback all) = (List.range index).filter (hasRollback all) ++
   if step.rollback.isSome then [index] else [] := by
  rw [range_succ, filter_append, filter_singleton]
  simp [hasRollback, hstep]
 split
 · rename_i rollback hrb
   constructor
   · rw [map_append, h.indices, hrange, hrb]
     rfl
   intro c hc
   rcases mem_append.mp hc with hc | hc
   · exact h.ops c hc
   · obtain rfl := mem_singleton.mp hc
     exact ⟨step, hstep, hrb⟩
 · rename_i hrb
   refine ⟨?_, h.ops⟩
   rw [h.indices, hrange, hrb]
   exact (append_nil _).symm

variable {steps : List (PipelineStep σ ε)} {completed : List (Nat × Op σ ε)}

theorem executeFrom_traced {index : Nat}
  (hsteps : all.drop index = steps) (hindex : index ≤ all.length) (hcompleted : Completed all index completed)
  (s : σ) : Traced policy all index s (executeFrom policy steps index completed s) := by
 induction steps generalizing index completed s with
 | nil =>
  refine ⟨[], [], rfl, .nil, nofun, nofun, ?_, nofun, rfl⟩
  have := drop_eq_nil_iff.mp hsteps
  simp only [length_nil]
  omega
 | cons step steps ih =>
  have hget : all[index]? = some step := by
   rw [← List.head?_drop, hsteps]
   rfl
  have hlt : index < all.length := (List.getElem?_eq_some_iff.mp hget).1
  have hdrop : all.drop (index + 1) = steps := by
   rw [← drop_drop, hsteps]
   rfl
  have hfirst := @replays_attempt σ ε all step.action policy (.action index)
   (fun _ _ _ _ _ hop htr => .action hget hop htr) s
  have htry := tries_attempt policy step.action s
  unfold executeFrom
  dsimp only
  split
  · rename_i hok
    rw [hok] at htry
    obtain ⟨actions, undone, htrace, hreplay, htries, hundone, hresult⟩ :=
     ih hdrop hlt (hcompleted.snoc hget) (attempt policy step.action s).state
    refine ⟨((attempt policy step.action s).attempts, .ok ()) :: actions, undone, ?_, hfirst.append hreplay, ?_,
     hundone, ?_⟩
    · rw [htrace, zipIdx_cons, flatMap_cons, append_assoc]
    · rw [forall_mem_cons]
      exact ⟨htry, htries⟩
    dsimp only
    split at hresult
    · obtain ⟨hlen, hall, hnil⟩ := hresult
      refine ⟨?_, ?_, hnil⟩
      · rw [length_cons]
        omega
      · rw [forall_mem_cons]
        exact ⟨rfl, hall⟩
    · obtain ⟨earlier, failed, hactions, hlen, hall, hfailed, hindices⟩ := hresult
      refine ⟨(_, .ok ()) :: earlier, failed, by rw [hactions]; rfl, ?_, ?_, hfailed, ?_⟩
      · rw [length_cons]
        omega
      · rw [forall_mem_cons]
        exact ⟨rfl, hall⟩
      · rw [hindices, length_cons, Nat.add_right_comm, Nat.add_assoc]
  · rename_i e herr
    rw [herr] at htry
    have hops : ∀ c ∈ completed.reverse, ∃ step, all[c.1]? = some step ∧ step.rollback = some c.2 := by
     intro c hc
     exact hcompleted.ops c (mem_reverse.mp hc)
    obtain ⟨hreplay, undone, htrace, hundone, hindices⟩ :=
     @rollbackAll_spec σ ε policy all completed.reverse hops (attempt policy step.action s).state
    refine ⟨[((attempt policy step.action s).attempts, .error e)], undone, ?_, hfirst.append hreplay, ?_, hundone,
     [], _, rfl, hlt, nofun, rfl, ?_⟩
    · rw [htrace]
      simp
    · rw [forall_mem_singleton]
      exact htry
    · rw [hindices, map_reverse, hcompleted.indices]
      rfl

theorem executeFrom_error_cases {step : PipelineStep σ ε} {rollback : Op σ ε} {index : Nat} {s : σ} {e : ε}
  {F D : σ → Prop} (hrollback : step.rollback = some rollback)
  (hstep : (attempt policy step.action s).Leaves F D)
  (h : (executeFrom policy (step :: steps) index completed s).result = .error e) :
  let t := (attempt policy step.action s).state
  let x := executeFrom policy (step :: steps) index completed s
  F t ∧ x.state = (rollbackAll policy completed.reverse t).2 ∨ D t ∧
   let rest := executeFrom policy steps (index + 1) (completed ++ [(index, rollback)]) t
   rest.result = .error e ∧ x.state = rest.state := by
 intro t x
 have hx : x = executeFrom policy (step :: steps) index completed s := rfl
 rw [← hx] at h
 unfold executeFrom at hx
 obtain ⟨⟨e', herr⟩, hF⟩ | ⟨hok, hD⟩ := hstep
 · simp only [herr] at hx
   exact .inl ⟨hF, by rw [hx]⟩
 · simp only [hok, hrollback] at hx
   rw [hx] at h ⊢
   exact .inr ⟨hD, h, rfl⟩

end Steps

section Context

variable {γ : Type} {policy : Option RetryPolicy} {ctx : σ → γ}

def Undoes (policy : Option RetryPolicy) (ctx : σ → γ) (step : PipelineStep σ ε) : Prop :=
 ∀ s, (attempt policy step.action s).result = .ok () →
  match step.rollback with
  | some op => ∀ t, ctx t = ctx (attempt policy step.action s).state → ctx (attempt policy op t).state = ctx s
  | none => ctx (attempt policy step.action s).state = ctx s

def FailsClean (policy : Option RetryPolicy) (ctx : σ → γ) (step : PipelineStep σ ε) : Prop :=
 ∀ s e, (attempt policy step.action s).result = .error e → ctx (attempt policy step.action s).state = ctx s

theorem executeFrom_restores {steps : List (PipelineStep σ ε)} {index : Nat} {completed : List (Nat × Op σ ε)} {c : γ}
  {s : σ} {e : ε} (hundo : ∀ step ∈ steps, Undoes policy ctx step)
  (hclean : ∀ step ∈ steps, FailsClean policy ctx step)
  (hback : ∀ t, ctx t = ctx s → ctx (rollbackAll policy completed.reverse t).2 = c)
  (h : (executeFrom policy steps index completed s).result = .error e) :
  ctx (executeFrom policy steps index completed s).state = c := by
 induction steps generalizing index completed s with
 | nil => cases h
 | cons step steps ih =>
  unfold executeFrom at h ⊢
  dsimp only at h ⊢
  split at h
  · rename_i hok
    have hstep := hundo step mem_cons_self s hok
    refine ih (fun x hx => hundo x (mem_cons_of_mem _ hx)) (fun x hx => hclean x (mem_cons_of_mem _ hx))
     ?_ h
    intro t ht
    split at hstep
    · rename_i op hop
      rw [reverse_append, reverse_singleton, singleton_append, rollbackAll]
      exact hback _ (hstep t ht)
    · exact hback t (ht.trans hstep)
  · rename_i e' herr
    exact hback _ (hclean step mem_cons_self s e' herr)

end Context

theorem execute_trace {γ : Type} (p : Pipeline σ ε) (s : σ) (ctx : σ → γ) :
  Traced p.retryPolicy p.steps 0 s (p.execute s) ∧
   ((∀ step ∈ p.steps, Undoes p.retryPolicy ctx step) → (∀ step ∈ p.steps, FailsClean p.retryPolicy ctx step) →
    ∀ e, (p.execute s).result = .error e → ctx (p.execute s).state = ctx s) := by
 constructor
 · have hnone : Completed p.steps 0 [] := ⟨rfl, fun c hc => absurd hc not_mem_nil⟩
   exact executeFrom_traced rfl (Nat.zero_le _) hnone s
 · intro hundo hclean e herr
   exact executeFrom_restores hundo hclean (fun t ht => ht) herr

def raiseThenFail (rollback : Option (Op Nat Unit)) : Pipeline Nat Unit where
 steps := [{ action := fun n => (.ok (), n + 1), rollback }, { action := fun n => (.error (.fatal ()), n) }]
 retryPolicy := some {}

theorem raiseThenFail_failsClean (rollback : Option (Op Nat Unit)) :
  ∀ step ∈ (raiseThenFail rollback).steps, FailsClean (raiseThenFail rollback).retryPolicy id step := by
 intro step hstep s e herr
 simp only [raiseThenFail, mem_cons, not_mem_nil, or_false] at hstep
 rcases hstep with rfl | rfl
 · cases herr
 · rfl

theorem execute_trace_raise_then_fail :
  ((raiseThenFail (some fun n => (.ok (), n - 1))).execute 5).result = .error () ∧
   ((raiseThenFail (some fun n => (.ok (), n - 1))).execute 5).state = 5 := by
 refine ⟨rfl, (execute_trace _ 5 id).2 ?_ (raiseThenFail_failsClean _) () rfl⟩
 intro step hstep s hok
 simp only [raiseThenFail, mem_cons, not_mem_nil, or_false] at hstep
 rcases hstep with rfl | rfl
 · intro t ht
   have : t = s + 1 := ht
   subst this
   rfl
 · cases hok

/-- A step without a rollback is not taken back, although every rollback there is undoes its action. -/
theorem step_without_rollback_stays :
  ¬ ∀ (p : Pipeline Nat Unit) (s : Nat) (e : Unit),
   (∀ step ∈ p.steps, ∀ op, step.rollback = some op → Undoes p.retryPolicy id step) →
    (∀ step ∈ p.steps, FailsClean p.retryPolicy id step) →
     (p.execute s).result = .error e → (p.execute s).state = s := by
 intro h
 have hkept := h (raiseThenFail none) 5 () ?_ (raiseThenFail_failsClean none) rfl
 · cases hkept
 · intro step hstep op hop
   simp only [raiseThenFail, mem_cons, not_mem_nil, or_false] at hstep
   rcases hstep with rfl | rfl <;> cases hop

end Pipeline

end Lnvps
