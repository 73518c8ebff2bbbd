import Mathlib.Tactic

/-! # Tallies -/

namespace Tally

open List

section Entries

variable {κ ν ι : Type} {init : ν} {g : ν → Nat} {acc : List (κ × ν)}

def sum (g : ν → Nat) (acc : List (κ × ν)) : Nat := (acc.map fun e => g e.2).sum

theorem sum_cons (k : κ) (v : ν) : sum g ((k, v) :: acc) = g v + sum g acc := rfl

variable [DecidableEq κ]

def entry (init : ν) (f : ν → ν) (k : κ) : List (κ × ν) → List (κ × ν)
 | [] => [(k, f init)]
 | (k', v) :: acc => if k' = k then (k', f v) :: acc else (k', v) :: entry init f k acc

theorem sum_entry (init : ν) (g : ν → Nat) {f : ν → ν} (x : Nat) (hinit : g init = 0)
  (hf : ∀ v, g v ≤ sum g acc → g (f v) = g v + x) (k : κ) : sum g (entry init f k acc) = sum g acc + x := by
 induction acc with
 | nil =>
  have hnew := hf init (hinit.trans_le (Nat.zero_le _))
  rw [entry, sum_cons, hnew, hinit]
  simp [sum]
 | cons e acc ih =>
  obtain ⟨k', v⟩ := e
  rw [entry]
  split
  · have hold := hf v (by rw [sum_cons]; exact Nat.le_add_right _ _)
    rw [sum_cons, sum_cons, hold]
    omega
  · have hrest := ih fun v hv => hf v (by rw [sum_cons]; omega)
    rw [sum_cons, sum_cons, hrest]
    omega

theorem sum_foldl (g : ν → Nat) (acc : List (κ × ν)) {items : List ι} (key : ι → κ) {f : ι → ν → ν} (x : ι → Nat)
  {bound : Nat} (hinit : g init = 0)
  (hf : ∀ i ∈ items, ∀ v, g v + x i ≤ bound → g (f i v) = g v + x i)
  (hbound : sum g acc + (items.map x).sum ≤ bound) :
  sum g (items.foldl (fun acc i => entry init (f i) (key i) acc) acc) = sum g acc + (items.map x).sum := by
 induction items generalizing acc with
 | nil => rfl
 | cons i items ih =>
  rw [List.map_cons, List.sum_cons] at hbound
  have hhead : sum g (entry init (f i) (key i) acc) = sum g acc + x i :=
   sum_entry init g (x i) hinit (fun v hv => hf i List.mem_cons_self v (by omega)) (key i)
  rw [List.foldl_cons, ih _ (fun j hj => hf j (List.mem_cons_of_mem _ hj)) (by rw [hhead]; omega), hhead,
   List.map_cons, List.sum_cons]
  omega

end Entries

section Booking

variable {α β : Type} {l : List α} {f g : α → List (α × β)}

theorem filter_flatMap [DecidableEq α] (hl : l.Nodup) (hf : ∀ a ∈ l, ∀ b ∈ f a, b.1 = a) {a : α} (ha : a ∈ l) :
  (l.flatMap f).filter (fun b => b.1 = a) = f a := by
 induction l with
 | nil => exact absurd ha not_mem_nil
 | cons c l ih =>
  obtain ⟨hc, hl⟩ := nodup_cons.mp hl
  have hrest : ∀ a ∈ l, ∀ b ∈ f a, b.1 = a := fun a ha => hf a (mem_cons_of_mem _ ha)
  rw [flatMap_cons, filter_append]
  rcases mem_cons.mp ha with rfl | ha
  · have hown : (f a).filter (fun b => b.1 = a) = f a :=
     filter_eq_self.mpr fun b hb => decide_eq_true (hf a mem_cons_self b hb)
    have hother : (l.flatMap f).filter (fun b => b.1 = a) = [] := by
     refine filter_eq_nil_iff.mpr fun b hb => ?_
     obtain ⟨a', ha', hb⟩ := mem_flatMap.mp hb
     rw [decide_eq_true_eq, hrest a' ha' b hb]
     rintro rfl
     exact hc ha'
    rw [hown, hother, append_nil]
  · have hother : (f c).filter (fun b => b.1 = a) = [] := by
     refine filter_eq_nil_iff.mpr fun b hb => ?_
     rw [decide_eq_true_eq, hf c mem_cons_self b hb]
     rintro rfl
     exact hc ha
    rw [hother, nil_append, ih hl hrest ha]

theorem flatMap_perm_iff [DecidableEq α] (hl : l.Nodup) (hf : ∀ a ∈ l, ∀ b ∈ f a, b.1 = a)
  (hg : ∀ a ∈ l, ∀ b ∈ g a, b.1 = a) : (l.flatMap f).Perm (l.flatMap g) ↔ ∀ a ∈ l, (f a).Perm (g a) := by
 constructor
 · intro h a ha
   have hfilter := h.filter fun b => b.1 = a
   rwa [filter_flatMap hl hf ha, filter_flatMap hl hg ha] at hfilter
 · intro h
   exact .flatMap_left l h

end Booking

end Tally
