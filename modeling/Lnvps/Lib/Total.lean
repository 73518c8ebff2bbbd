import Mathlib.Tactic
import Lnvps.Lib.Table

/-! # Sums of a column -/

namespace Table

open List

variable {α β κ : Type}

def total (p : α → Bool) (val : α → Nat) (rows : List α) : Nat := ((rows.filter p).map val).sum

section

variable {p q : α → Bool} {val val' : α → Nat} {f : α → α} {rows : List α} {r : α}

theorem total_cons : total p val (r :: rows) = (if p r then val r else 0) + total p val rows := by
 by_cases h : p r = true <;> simp [total, h]

theorem total_eq_sum_toNat (p : α → Bool) (val : α → Nat) (rows : List α) :
  total p val rows = (rows.map fun r => (p r).toNat * val r).sum := by
 induction rows with
 | nil => rfl
 | cons r rows ih =>
  rw [total_cons, ih, map_cons, sum_cons]
  cases p r <;> simp

theorem total_snoc : total p val (rows ++ [r]) = total p val rows + if p r then val r else 0 := by
 by_cases h : p r = true <;> simp [total, h]

theorem total_filter : total p val (rows.filter q) = total (fun r => q r && p r) val rows := by
 unfold total
 rw [filter_filter]
 simp only [Bool.and_comm]

theorem total_mono (h : ∀ r ∈ rows, val r ≤ val' r) : total p val rows ≤ total p val' rows := by
 induction rows with
 | nil => exact Nat.le_refl _
 | cons r rows ih =>
  have hhead := h r mem_cons_self
  have hrest := ih fun s hs => h s (mem_cons_of_mem _ hs)
  rw [total_cons, total_cons]
  split <;> omega

theorem total_eq_iff (h : ∀ r ∈ rows, val r ≤ val' r) :
  total p val rows = total p val' rows ↔ ∀ r ∈ rows, p r = true → val r = val' r := by
 induction rows with
 | nil => simp [total]
 | cons r rows ih =>
  have hhead := h r mem_cons_self
  have hrest : ∀ s ∈ rows, val s ≤ val' s := fun s hs => h s (mem_cons_of_mem _ hs)
  have hle : total p val rows ≤ total p val' rows := total_mono hrest
  rw [total_cons, total_cons, forall_mem_cons, ← ih hrest]
  by_cases hp : p r = true
  · simp only [hp, ↓reduceIte, forall_const]
    omega
  · simp [hp]

theorem total_eq_zero_iff : total p val rows = 0 ↔ ∀ r ∈ rows, p r = true → val r = 0 := by
 simp only [total, sum_eq_zero_iff, forall_mem_map, mem_filter, and_imp]

theorem total_congr (h : ∀ r ∈ rows, val r = val' r) : total p val rows = total p val' rows :=
 (total_eq_iff fun r hr => (h r hr).le).mpr fun r hr _ => h r hr

theorem total_filter_add :
  total p val (rows.filter q) + total p val (rows.filter fun r => !q r) = total p val rows := by
 induction rows with
 | nil => rfl
 | cons r rows ih =>
  rw [total_cons]
  by_cases h : q r = true
  · rw [filter_cons_of_pos h, filter_cons_of_neg (by simp [h]), total_cons]
    omega
  · rw [filter_cons_of_neg h, filter_cons_of_pos (by simpa using h), total_cons]
    omega

theorem total_eq_sum_iff : total p val rows = (rows.map val).sum ↔ ∀ r ∈ rows, val r = 0 ∨ p r = true := by
 have hsplit : total (fun _ => true) val (rows.filter p) + total (fun _ => true) val (rows.filter fun r => !p r) =
   total (fun _ => true) val rows := total_filter_add
 rw [total_filter, total_filter] at hsplit
 simp only [Bool.and_true] at hsplit
 have hall : total (fun _ => true) val rows = (rows.map val).sum := by rw [total, filter_true]
 rw [← hall, ← hsplit, Nat.left_eq_add, total_eq_zero_iff]
 refine forall₂_congr fun r _ => ?_
 rw [Bool.not_eq_true', ← Bool.not_eq_true]
 tauto

theorem total_filter_le : total p val (rows.filter q) ≤ total p val rows := by
 have hsplit : total p val (rows.filter q) + total p val (rows.filter fun r => !q r) = total p val rows :=
  total_filter_add
 omega

theorem total_updateWhere (hp : ∀ r ∈ rows, p (f r) = p r) (hval : ∀ r ∈ rows, val (f r) = val r) :
  total p val (updateWhere q f rows) = total p val rows := by
 induction rows with
 | nil => rfl
 | cons r rows ih =>
  have hrest := ih (fun s hs => hp s (mem_cons_of_mem _ hs)) fun s hs => hval s (mem_cons_of_mem _ hs)
  have hhead : updateWhere q f (r :: rows) = (if q r then f r else r) :: updateWhere q f rows := rfl
  rw [hhead, total_cons, total_cons, hrest]
  by_cases h : q r = true
  · rw [if_pos h, hp r mem_cons_self, hval r mem_cons_self]
  · rw [if_neg h]

theorem total_updateWhere_le (hf : ∀ r ∈ rows, q r = true → p (f r) = true → p r = true ∧ val (f r) ≤ val r) :
  total p val (updateWhere q f rows) ≤ total p val rows := by
 induction rows with
 | nil => exact Nat.le_refl _
 | cons r rows ih =>
  have hrest := ih fun s hs => hf s (mem_cons_of_mem _ hs)
  have hhead : updateWhere q f (r :: rows) = (if q r then f r else r) :: updateWhere q f rows := rfl
  rw [hhead, total_cons, total_cons]
  by_cases h : q r = true
  · rw [if_pos h]
    by_cases hp : p (f r) = true
    · obtain ⟨hp', hval⟩ := hf r mem_cons_self h hp
      rw [if_pos hp, if_pos hp']
      omega
    · rw [if_neg hp]
      omega
  · rw [if_neg h]
    omega

theorem le_total (hr : r ∈ rows) (hp : p r = true) : val r ≤ total p val rows := by
 induction rows with
 | nil => cases hr
 | cons s rows ih =>
  rw [total_cons]
  rcases mem_cons.mp hr with rfl | hr
  · rw [if_pos hp]
    omega
  · have := ih hr
    omega

end

theorem sum_le_total [DecidableEq κ] {key : α → κ} {bookingKey : β → κ} {p : α → Bool} {val : α → Nat}
  {bookingVal : β → Nat} {rows : List α} {bookings : List β} (hnodup : (bookings.map bookingKey).Nodup)
  (hrow : ∀ b ∈ bookings, ∃ r ∈ rows, key r = bookingKey b ∧ p r = true ∧ bookingVal b ≤ val r) :
  (bookings.map bookingVal).sum ≤ total p val rows := by
 induction bookings generalizing rows with
 | nil => simp
 | cons b bookings ih =>
  obtain ⟨hb, hnodup⟩ := nodup_cons.mp hnodup
  let q : α → Bool := fun r => key r = bookingKey b
  have hrest : (bookings.map bookingVal).sum ≤ total p val (rows.filter fun r => !q r) := by
   apply ih hnodup
   intro c hc
   obtain ⟨r, hr, hkey, hcov⟩ := hrow c (mem_cons_of_mem _ hc)
   have hother : key r ≠ bookingKey b := by
    rw [hkey]
    intro heq
    exact hb (heq ▸ mem_map_of_mem hc)
   exact ⟨r, mem_filter.mpr ⟨hr, by simp [q, hother]⟩, hkey, hcov⟩
  have hfirst : bookingVal b ≤ total p val (rows.filter q) := by
   obtain ⟨r, hr, hkey, hp, hval⟩ := hrow b mem_cons_self
   have hmem : r ∈ rows.filter q := mem_filter.mpr ⟨hr, by simp [q, hkey]⟩
   exact hval.trans (le_total hmem hp)
  have hsplit : total p val (rows.filter q) + total p val (rows.filter fun r => !q r) = total p val rows :=
   total_filter_add
  rw [map_cons, sum_cons]
  omega

end Table
