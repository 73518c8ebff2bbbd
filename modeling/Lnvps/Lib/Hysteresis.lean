import Mathlib.Order.Monotone.Basic

/-! # A switch with hysteresis -/

namespace Hysteresis

structure Signal where
 time : Nat → Nat
 (hot cool : Nat → Bool)
 hold : Nat

namespace Signal

variable (S : Signal)

def step (n : Nat) : Option (Option Nat) → Option (Option Nat)
 | none => if S.hot n then some none else none
 | some since =>
  if S.cool n then
   if S.hold ≤ S.time n - since.getD (S.time n) then none else some (some (since.getD (S.time n)))
  else some none

def run : Nat → Option (Option Nat)
 | 0 => none
 | n + 1 => S.step n (run n)

def Quiet (i j : Nat) : Prop :=
 ∃ k, i < k ∧ k ≤ j ∧ (∀ m, k ≤ m → m ≤ j → S.cool m = true) ∧ S.hold ≤ S.time j - S.time k

structure On (n : Nat) (since : Option Nat) (e k : Nat) : Prop where
 hot : S.hot e = true
 lt : e < k
 le : k ≤ n
 quiet : ∀ j, e < j → j < n → ¬ S.Quiet e j
 cool : ∀ m, k ≤ m → m < n → S.cool m = true
 first : k = e + 1 ∨ S.cool (k - 1) = false
 since : since = if k < n then some (S.time k) else none

def Inv (n : Nat) : Option (Option Nat) → Prop
 | none => ∀ i < n, S.hot i = true → ∃ j, i < j ∧ j < n ∧ S.Quiet i j
 | some since => ∃ e k, S.On n since e k

variable {S} {n e k : Nat} {since : Option Nat}

theorem On.since_getD (h : S.On n since e k) : since.getD (S.time n) = S.time k := by
 rw [h.since]
 split_ifs with hk
 · rfl
 · rw [show k = n by have := h.le; omega, Option.getD_none]

theorem On.cool_succ (h : S.On n since e k) (hcool : S.cool n = true) (m : Nat) (hk : k ≤ m) (hm : m ≤ n) :
  S.cool m = true := by
 rcases Nat.lt_or_eq_of_le hm with hlt | rfl
 · exact h.cool m hk hlt
 · exact hcool

theorem On.le_of_cool (h : S.On n since e k) {k' : Nat} (he : e < k') (hcool : ∀ m, k' ≤ m → m ≤ n → S.cool m = true) :
  k ≤ k' := by
 by_contra hlt
 have hle := h.le
 rcases h.first with hk | hwarm
 · omega
 · rw [hcool (k - 1) (by omega) (by omega)] at hwarm
   cases hwarm

variable (hexcl : ∀ i, S.hot i = true → S.cool i = false)

include hexcl

theorem step_inv (htime : Monotone S.time) {s : Option (Option Nat)} (h : S.Inv n s) : S.Inv (n + 1) (S.step n s) := by
 cases s with
 | none =>
  simp only [step]
  split_ifs with hhot
  · refine ⟨n, n + 1, hhot, by omega, le_rfl, fun j _ _ => by omega, fun m _ _ => by omega, .inl rfl, ?_⟩
    simp
  intro i hi hot
  have hne : i ≠ n := fun h => hhot (h ▸ hot)
  obtain ⟨j, hij, hjn, hq⟩ := h i (by omega) hot
  exact ⟨j, hij, by omega, hq⟩
 | some since =>
  obtain ⟨e, k, hon⟩ := h
  have hle := hon.le
  have hlt := hon.lt
  simp only [step, hon.since_getD]
  split_ifs with hcool hover
  · intro i hi hot
    have hik : i < k := by
     by_contra hki
     have hboth := hon.cool_succ hcool i (by omega) (by omega)
     rw [hexcl i hot] at hboth
     cases hboth
    exact ⟨n, by omega, by omega, k, hik, hle, hon.cool_succ hcool, hover⟩
  · refine ⟨e, k, hon.hot, hlt, by omega, ?_, fun m hk hm => hon.cool_succ hcool m hk (by omega), hon.first, ?_⟩
    · rintro j hj hjn ⟨k', hk', hkj, hcool', hspan⟩
      rcases Nat.lt_or_eq_of_le (Nat.le_of_lt_succ hjn) with hlt' | rfl
      · exact hon.quiet j hj hlt' ⟨k', hk', hkj, hcool', hspan⟩
      · have := htime (hon.le_of_cool hk' hcool')
        omega
    · rw [if_pos (by omega)]
  · refine ⟨e, n + 1, hon.hot, by omega, le_rfl, ?_, fun m _ _ => by omega, .inr (by simpa using hcool), by simp⟩
    rintro j hj hjn ⟨k', hk', hkj, hcool', hspan⟩
    rcases Nat.lt_or_eq_of_le (Nat.le_of_lt_succ hjn) with hlt' | rfl
    · exact hon.quiet j hj hlt' ⟨k', hk', hkj, hcool', hspan⟩
    · exact hcool (hcool' j hkj le_rfl)

theorem run_inv (htime : Monotone S.time) (n : Nat) : S.Inv n (S.run n) := by
 induction n with
 | zero => exact fun i hi => absurd hi (by omega)
 | succ n ih => exact step_inv hexcl htime ih

theorem run_isSome_iff (htime : Monotone S.time) (n : Nat) : (S.run n).isSome = true ↔
  ∃ i < n, S.hot i = true ∧ ∀ j, i < j → j < n → ¬ S.Quiet i j := by
 have hinv := run_inv hexcl htime n
 cases hs : S.run n with
 | none =>
  rw [hs] at hinv
  refine ⟨nofun, ?_⟩
  rintro ⟨i, hi, hot, hnone⟩
  obtain ⟨j, hij, hjn, hq⟩ := hinv i hi hot
  exact absurd hq (hnone j hij hjn)
 | some since =>
  rw [hs] at hinv
  obtain ⟨e, k, hon⟩ := hinv
  exact ⟨fun _ => ⟨e, Nat.lt_of_lt_of_le hon.lt hon.le, hon.hot, hon.quiet⟩, fun _ => rfl⟩

end Signal

end Hysteresis
