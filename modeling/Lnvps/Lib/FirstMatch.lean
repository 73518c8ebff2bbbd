import Mathlib.Data.List.Basic

/-! # Rules of which the first match decides -/

namespace FirstMatch

open List Option

variable {ρ ρ' A : Type} {hit : ρ → Bool} {act : ρ → A} {policy a : A} {rules rest : List ρ}

def verdict (hit : ρ → Bool) (act : ρ → A) (policy : A) (rules : List ρ) : A :=
 ((rules.find? hit).map act).getD policy

theorem verdict_cons (r : ρ) :
  verdict hit act policy (r :: rules) = if hit r then act r else verdict hit act policy rules := by
 rw [verdict, List.find?_cons, verdict]
 cases hit r <;> rfl

theorem verdict_append :
  verdict hit act policy (rules ++ rest) = verdict hit act (verdict hit act policy rest) rules := by
 induction rules with
 | nil => rfl
 | cons r rules ih => rw [cons_append, verdict_cons, verdict_cons, ih]

theorem verdict_of_no_hit (h : ∀ r ∈ rules, hit r = false) : verdict hit act policy rules = policy := by
 rw [verdict, List.find?_eq_none.mpr]
 · rfl
 · intro r hr
   simp [h r hr]

theorem verdict_of_hit (policy' : A) (h : ∃ r ∈ rules, hit r = true) :
  verdict hit act policy rules = verdict hit act policy' rules := by
 obtain ⟨r, hr⟩ := isSome_iff_exists.mp (List.find?_isSome.mpr h)
 rw [verdict, verdict, hr]
 rfl

theorem verdict_flatMap {hit' : ρ' → Bool} {act' : ρ' → A} {expand : ρ → List ρ'}
  (h : ∀ r ∈ rules, ((expand r).any hit' = hit r) ∧ ∀ q ∈ expand r, act' q = act r) :
  verdict hit' act' policy (rules.flatMap expand) = verdict hit act policy rules := by
 induction rules with
 | nil => rfl
 | cons r rules ih =>
  obtain ⟨hany, hact⟩ := h r (mem_cons_self ..)
  rw [flatMap_cons, verdict_append, verdict_cons, ih fun q hq => h q (mem_cons_of_mem _ hq), ← hany]
  cases hr : (expand r).any hit' with
  | false =>
   rw [if_neg Bool.false_ne_true]
   exact verdict_of_no_hit fun q hq => by simpa using any_eq_false.mp hr q hq
  | true =>
   rw [if_pos rfl]
   obtain ⟨q, hq⟩ := isSome_iff_exists.mp (List.find?_isSome.mpr (any_eq_true.mp hr))
   rw [verdict, hq]
   exact hact q (mem_of_find?_eq_some hq)

theorem verdict_filter_ne {p : ρ → Bool} (hp : ∀ r ∈ rules, p r = false → act r = a)
  (h : verdict hit act policy rules ≠ a) : verdict hit act policy (rules.filter p) ≠ a := by
 induction rules with
 | nil => exact h
 | cons r rules ih =>
  rw [verdict_cons] at h
  have htail := ih fun q hq => hp q (mem_cons_of_mem _ hq)
  cases hr : hit r with
  | true =>
   rw [hr, if_pos rfl] at h
   have hkept : p r = true := by
    by_contra hc
    exact h (hp r (mem_cons_self ..) (Bool.eq_false_iff.mpr hc))
   rw [filter_cons_of_pos hkept, verdict_cons, hr, if_pos rfl]
   exact h
  | false =>
   rw [hr, if_neg Bool.false_ne_true] at h
   cases hpr : p r with
   | true =>
    rw [filter_cons_of_pos hpr, verdict_cons, hr, if_neg Bool.false_ne_true]
    exact htail h
   | false =>
    rw [filter_cons_of_neg (by simp [hpr])]
    exact htail h

theorem verdict_take_filter_ne {p : ρ → Bool} (k : Nat) (hbefore : verdict hit act policy rules ≠ a)
  (hafter : verdict hit act policy (rules.filter p) ≠ a) :
  verdict hit act policy (rules.take k ++ (rules.drop k).filter p) ≠ a := by
 rw [verdict_append]
 by_cases hhit : ∃ r ∈ rules.take k, hit r = true
 · rw [verdict_of_hit (verdict hit act policy (rules.drop k)) hhit, ← verdict_append, take_append_drop]
   exact hbefore
 have hmiss : ∀ r ∈ rules.take k, hit r = false := by
  intro r hr
  by_contra hc
  exact hhit ⟨r, hr, by simpa using hc⟩
 rw [verdict_of_no_hit hmiss]
 rw [← take_append_drop k rules, filter_append, verdict_append, verdict_of_no_hit] at hafter
 · exact hafter
 · intro r hr
   exact hmiss r (mem_of_mem_filter hr)

theorem verdict_drop_append_ne (k : Nat) (hnew : ∀ r ∈ rules, hit r = true → act r ≠ a)
  (hrest : verdict hit act policy rest ≠ a) : verdict hit act policy (rules.drop k ++ rest) ≠ a := by
 rw [verdict_append]
 by_cases hhit : ∃ r ∈ rules.drop k, hit r = true
 · obtain ⟨r, hr⟩ := isSome_iff_exists.mp (List.find?_isSome.mpr hhit)
   rw [verdict, hr]
   exact hnew r (mem_of_mem_drop (mem_of_find?_eq_some hr)) (List.find?_some hr)
 rw [verdict_of_no_hit]
 · exact hrest
 · intro r hr
   by_contra hc
   exact hhit ⟨r, hr, by simpa using hc⟩

theorem exists_drop_append_eq (act : ρ → A) (policy : A) (rest : List ρ) {r : ρ} (hr : r ∈ rules)
  (hhit : hit r = true) : ∃ k, verdict hit act policy (rules.drop k ++ rest) = act r := by
 obtain ⟨k, hk, rfl⟩ := getElem_of_mem hr
 refine ⟨k, ?_⟩
 rw [drop_eq_getElem_cons hk, cons_append, verdict_cons, hhit, if_pos rfl]

end FirstMatch
