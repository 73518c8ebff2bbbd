import Mathlib.Data.List.Basic

/-! # Runs of a step function -/

namespace Steps

variable {σ ι : Type}

inductive RunIf (step : σ → ι → Option σ) (ok : σ → ι → Prop) (s : σ) : List ι → σ → Prop
 | nil : RunIf step ok s [] s
 | snoc {t u : σ} {ls : List ι} {l : ι} :
   RunIf step ok s ls t → ok t l → step t l = some u → RunIf step ok s (ls ++ [l]) u

abbrev Run (step : σ → ι → Option σ) : σ → List ι → σ → Prop := RunIf step (fun _ _ => True)

def execIf (step : σ → ι → Option σ) (ok : σ → ι → Bool) : σ → List ι → Option σ
 | s, [] => some s
 | s, l :: ls => if ok s l then (step s l).bind (fun t => execIf step ok t ls) else none

def exec (step : σ → ι → Option σ) : σ → List ι → Option σ := execIf step (fun _ _ => true)

section

variable {step : σ → ι → Option σ} {ok ok' : σ → ι → Prop} {s t u : σ} {ls ls' : List ι} {l : ι}

theorem RunIf.append (h₁ : RunIf step ok s ls t) (h₂ : RunIf step ok t ls' u) : RunIf step ok s (ls ++ ls') u := by
 induction h₂ with
 | nil => simpa using h₁
 | snoc _ hok hs ih =>
  rw [← List.append_assoc]
  exact .snoc ih hok hs

theorem RunIf.single (hok : ok s l) (hs : step s l = some t) : RunIf step ok s [l] t :=
 .snoc .nil hok hs

theorem RunIf.cons (hok : ok s l) (hs : step s l = some t) (h : RunIf step ok t ls u) : RunIf step ok s (l :: ls) u :=
 (RunIf.single hok hs).append h

private theorem RunIf.head_of_eq (h : RunIf step ok s ls' u) (hls : ls' = l :: ls) :
  ∃ t, ok s l ∧ step s l = some t ∧ RunIf step ok t ls u := by
 induction h generalizing ls with
 | nil => cases hls
 | @snoc v u ks k hr hok hs ih =>
  cases ks with
  | nil =>
   obtain ⟨rfl, rfl⟩ := List.cons.inj hls
   generalize hnil : ([] : List ι) = e at hr
   cases hr with
   | nil => exact ⟨u, hok, hs, .nil⟩
   | snoc _ _ _ => simp at hnil
  | cons k' ks =>
   obtain ⟨rfl, rfl⟩ := List.cons.inj hls
   obtain ⟨t, hok', hs', hr'⟩ := ih rfl
   exact ⟨t, hok', hs', .snoc hr' hok hs⟩

theorem RunIf.head (h : RunIf step ok s (l :: ls) u) : ∃ t, ok s l ∧ step s l = some t ∧ RunIf step ok t ls u :=
 h.head_of_eq rfl

theorem RunIf.eq_of_nil (h : RunIf step ok s [] t) : t = s := by
 generalize hnil : ([] : List ι) = e at h
 cases h with
 | nil => rfl
 | snoc _ _ _ => simp at hnil

theorem RunIf.of_append (h : RunIf step ok s (ls ++ ls') u) : ∃ t, RunIf step ok s ls t ∧ RunIf step ok t ls' u := by
 induction ls generalizing s with
 | nil => exact ⟨s, .nil, h⟩
 | cons l ls ih =>
  obtain ⟨v, hok, hs, hrest⟩ := RunIf.head h
  obtain ⟨t, hleft, hright⟩ := ih hrest
  exact ⟨t, .cons hok hs hleft, hright⟩

theorem RunIf.unique (h : RunIf step ok s ls t) (h' : RunIf step ok' s ls u) : t = u := by
 induction ls generalizing s with
 | nil => rw [h.eq_of_nil, h'.eq_of_nil]
 | cons l ls ih =>
  obtain ⟨v, -, hs, hrest⟩ := h.head
  obtain ⟨v', -, hs', hrest'⟩ := h'.head
  obtain rfl : v = v' := Option.some.inj (hs.symm.trans hs')
  exact ih hrest hrest'

theorem RunIf.mono (hw : ∀ s l, ok s l → ok' s l) (h : RunIf step ok s ls t) : RunIf step ok' s ls t := by
 induction h with
 | nil => exact .nil
 | snoc _ hok hs ih => exact .snoc ih (hw _ _ hok) hs

theorem RunIf.invariant {Inv : σ → Prop} (hstep : ∀ s l t, Inv s → ok s l → step s l = some t → Inv t)
  (h : RunIf step ok s ls t) (h0 : Inv s) : Inv t := by
 induction h with
 | nil => exact h0
 | snoc _ hok hs ih => exact hstep _ _ _ ih hok hs

theorem RunIf.rel {Inv : σ → Prop} {R : σ → σ → Prop} (hrefl : ∀ s, R s s)
  (htrans : ∀ s t u, R s t → R t u → R s u)
  (hinv : ∀ s l t, Inv s → ok s l → step s l = some t → Inv t)
  (hstep : ∀ s l t, Inv s → ok s l → step s l = some t → R s t)
  (h : RunIf step ok s ls t) (h0 : Inv s) : R s t := by
 induction h with
 | nil => exact hrefl s
 | snoc hr hok hs ih => exact htrans _ _ _ ih (hstep _ _ _ (hr.invariant hinv h0) hok hs)

variable {okb : σ → ι → Bool}

theorem RunIf.of_execIf (h : execIf step okb s ls = some t) : RunIf step (fun s l => okb s l = true) s ls t := by
 induction ls generalizing s with
 | nil =>
  cases h
  exact .nil
 | cons l ls ih =>
  simp only [execIf] at h
  split at h
  · rename_i hok
    obtain ⟨s', hs, h'⟩ := Option.bind_eq_some_iff.1 h
    exact .cons hok hs (ih h')
  · cases h

variable {f : σ → ι → Option σ} {c : σ → ι → Bool} {s : σ} {r : List ι} {P Q : σ → Prop} [DecidablePred P]

theorem RunIf.exists_of_execIf (h : (execIf f c s r).any (P ·) = true) :
  ∃ t, RunIf f (fun s l => c s l = true) s r t ∧ P t := by
 rcases he : execIf f c s r with _ | t
 · rw [he] at h
   cases h
 · rw [he] at h
   exact ⟨t, .of_execIf he, of_decide_eq_true h⟩

theorem RunIf.exists_and_of_execIf (h : (execIf f c s r).any (P ·) = true)
  (hQ : ∀ t, RunIf f (fun s l => c s l = true) s r t → P t → Q t) :
  ∃ t, RunIf f (fun s l => c s l = true) s r t ∧ P t ∧ Q t := by
 obtain ⟨t, ht, hP⟩ := RunIf.exists_of_execIf h
 exact ⟨t, ht, hP, hQ t ht hP⟩

theorem Run.exists_of_exec (h : (exec f s r).any (P ·) = true) : ∃ t, Run f s r t ∧ P t := by
 obtain ⟨t, ht, hP⟩ := RunIf.exists_of_execIf h
 exact ⟨t, ht.mono (fun _ _ _ => trivial), hP⟩

theorem Run.exists_of_exec_imp (hQ : ∀ t, Run f s r t → P t → Q t) (h : (exec f s r).any (P ·) = true) :
  ∃ t, Run f s r t ∧ Q t := by
 obtain ⟨t, ht, hP⟩ := Run.exists_of_exec h
 exact ⟨t, ht, hQ t ht hP⟩

end

end Steps
