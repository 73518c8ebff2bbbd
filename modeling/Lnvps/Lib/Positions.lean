import Mathlib.Data.List.Sort
import Mathlib.Data.List.Induction

/-! # Deleting by position -/

namespace Positions

open List

variable {α : Type} {p : α → Bool}

def positions (p : α → Bool) (listing : List (α × Nat)) : List Nat := (listing.filter fun e => p e.1).map (·.2)

def descending (p : α → Bool) (listing : List (α × Nat)) : List Nat :=
 (positions p listing).insertionSort fun a b => b ≤ a

def eraseEach : List Nat → List α → Option (List α)
 | [], xs => some xs
 | i :: is, xs => if i < xs.length then eraseEach is (xs.eraseIdx i) else none

variable (xs : List α)

theorem positions_append (x : α) :
  positions p (xs ++ [x]).zipIdx = positions p xs.zipIdx ++ if p x then [xs.length] else [] := by
 rw [positions, zipIdx_append, filter_append, map_append, positions]
 congr 1
 cases h : p x <;> simp [h]

theorem pairwise_positions : (positions p xs.zipIdx).Pairwise (· < ·) := by
 have hidx : (xs.zipIdx.map (·.2)).Pairwise (· < ·) := by
  rw [zipIdx_map_snd]
  exact pairwise_lt_range'
 exact hidx.sublist (filter_sublist.map _)

theorem descending_eq : descending p xs.zipIdx = (positions p xs.zipIdx).reverse := by
 have hsorted : (positions p xs.zipIdx).reverse.Pairwise fun a b => b ≤ a := by
  rw [pairwise_reverse]
  exact (pairwise_positions xs).imp fun h => Nat.le_of_lt h
 have hperm : (descending p xs.zipIdx).Perm (positions p xs.zipIdx).reverse :=
  (perm_insertionSort _ _).trans (reverse_perm _).symm
 exact hperm.eq_of_pairwise' (pairwise_insertionSort _ _) hsorted

theorem eraseEach_take (xs ys : List α) (n : Nat) :
  ∃ k ≤ xs.length, eraseEach ((descending p xs.zipIdx).take n) (xs ++ ys) =
   some (xs.take k ++ (xs.drop k).filter (!p ·) ++ ys) := by
 rw [descending_eq]
 induction xs using reverseRecOn generalizing ys n with
 | nil => exact ⟨0, Nat.le_refl 0, by simp [positions, eraseEach]⟩
 | append_singleton xs x ih =>
  rw [positions_append, reverse_append]
  have htake : ∀ k ≤ xs.length, (xs ++ [x]).take k = xs.take k := fun k hk => take_append_of_le_length hk
  have hdrop : ∀ k ≤ xs.length, (xs ++ [x]).drop k = xs.drop k ++ [x] :=
   fun k hk => drop_append_of_le_length hk
  have hlen : (xs ++ [x]).length = xs.length + 1 := length_append
  cases hx : p x with
  | false =>
   obtain ⟨k, hk, h⟩ := ih (x :: ys) n
   refine ⟨k, by omega, ?_⟩
   rw [htake k hk, hdrop k hk]
   simpa [hx] using h
  | true =>
   cases n with
   | zero =>
    refine ⟨(xs ++ [x]).length, Nat.le_refl _, ?_⟩
    rw [take_length, drop_length]
    simp [eraseEach]
   | succ n =>
    obtain ⟨k, hk, h⟩ := ih ys n
    refine ⟨k, by omega, ?_⟩
    rw [htake k hk, hdrop k hk]
    have herase : (xs ++ x :: ys).eraseIdx xs.length = xs ++ ys := by
     simp [eraseIdx_append_of_length_le]
    simpa [hx, eraseEach, herase] using h

theorem eraseEach_descending (xs ys : List α) :
  eraseEach (descending p xs.zipIdx) (xs ++ ys) = some (xs.filter (!p ·) ++ ys) := by
 rw [descending_eq]
 induction xs using reverseRecOn generalizing ys with
 | nil => simp [positions, eraseEach]
 | append_singleton xs x ih =>
  rw [positions_append, reverse_append]
  cases hx : p x with
  | false => simpa [hx] using ih (x :: ys)
  | true =>
   have herase : (xs ++ x :: ys).eraseIdx xs.length = xs ++ ys := by
    simp [eraseIdx_append_of_length_le]
   simpa [hx, eraseEach, herase] using ih ys

end Positions
