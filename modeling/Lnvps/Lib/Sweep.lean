import Mathlib.Data.List.Nodup
import Mathlib.Logic.Function.Iterate

/-! # Sweeps over independent cells -/

namespace Sweep

open List

variable {σ κ ν : Type} [DecidableEq κ]

def Pointwise (view : σ → κ → ν) (update : σ → κ → σ) (f : κ → ν → ν) : Prop :=
 ∀ s k j, view (update s k) j = if j = k then f k (view s k) else view s j

variable {view : σ → κ → ν} {update : σ → κ → σ} {f : κ → ν → ν}

theorem Pointwise.foldl (h : Pointwise view update f) (ks : List κ) (s : σ) (k : κ) :
  view (ks.foldl update s) k = (f k)^[ks.count k] (view s k) := by
 induction ks generalizing s with
 | nil => rfl
 | cons j ks ih =>
  rw [foldl_cons, ih, h]
  by_cases hk : k = j
  · subst hk
    rw [ite_cond_eq_true _ _ (eq_self k), count_cons_self, Function.iterate_succ_apply]
  · rw [ite_cond_eq_false _ _ (eq_false hk), count_cons_of_ne (.symm hk)]

theorem Pointwise.foldl_of_nodup (h : Pointwise view update f) {ks : List κ} (hks : ks.Nodup) (s : σ) (k : κ) :
  view (ks.foldl update s) k = if k ∈ ks then f k (view s k) else view s k := by
 rw [h.foldl]
 by_cases hk : k ∈ ks
 · rw [count_eq_one_of_mem hks hk, ite_cond_eq_true _ _ (eq_true hk), Function.iterate_one]
 · rw [count_eq_zero_of_not_mem hk, ite_cond_eq_false _ _ (eq_false hk), Function.iterate_zero, id]

omit [DecidableEq κ] in
theorem foldl_eq {α : Type} {g : σ → α} {ks : List κ} (h : ∀ s, ∀ k ∈ ks, g (update s k) = g s) (s : σ) :
  g (ks.foldl update s) = g s := by
 induction ks generalizing s with
 | nil => rfl
 | cons j ks ih =>
  rw [foldl_cons, ih (fun s k hk => h s k (mem_cons_of_mem _ hk)), h s j mem_cons_self]

theorem iterate_of_step {P Q : ν → Prop} {g : ν → ν} (hstep : ∀ v, P v → Q (g v)) (hQ : ∀ v, Q v → P v) {n : Nat}
  (hn : 0 < n) {v : ν} (hv : P v) : Q (g^[n] v) := by
 obtain ⟨m, rfl⟩ : ∃ m, n = m + 1 := ⟨n - 1, by omega⟩
 clear hn
 induction m generalizing v with
 | zero => exact hstep v hv
 | succ m ih =>
  rw [Function.iterate_succ_apply]
  exact ih (hQ _ (hstep v hv))

end Sweep
