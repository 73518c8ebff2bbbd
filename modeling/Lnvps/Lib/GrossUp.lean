import Mathlib.Algebra.Order.Floor.Semiring
import Mathlib.Tactic

/-! # Grossing up -/

namespace GrossUp

variable {K : Type*} [Field K]

def left (r b g : K) : K := g * (1 - r) - b

theorem left_add (r b g g' : K) : left r b (g + g') = left r b g + left r b g' + b := by
 unfold left
 ring

theorem sub_left (r b g : K) : g - left r b g = g * r + b := by
 unfold left
 ring

variable [LinearOrder K] [FloorSemiring K]

def fee (r b a : K) : ℕ := ⌈a * r / (1 - r)⌉₊ + ⌈b / (1 - r)⌉₊

def net (r b t g : K) : ℕ := ⌊left r b g / (1 + t)⌋₊

variable [IsStrictOrderedRing K] {r b t a g g' : K}

section Fee

variable (hr : r < 1)

include hr

theorem left_add_fee_eq : left r b (a + fee r b a) =
  a + (⌈a * r / (1 - r)⌉₊ - a * r / (1 - r)) * (1 - r) + (⌈b / (1 - r)⌉₊ - b / (1 - r)) * (1 - r) := by
 have hne : 1 - r ≠ 0 := (sub_pos.mpr hr).ne'
 unfold left fee
 push_cast
 field_simp
 ring

theorem le_left_add_fee : a ≤ left r b (a + fee r b a) := by
 have hpos : 0 ≤ 1 - r := (sub_pos.mpr hr).le
 have hshare : 0 ≤ (⌈a * r / (1 - r)⌉₊ - a * r / (1 - r)) * (1 - r) :=
  mul_nonneg (sub_nonneg.mpr (Nat.le_ceil _)) hpos
 have hflat : 0 ≤ (⌈b / (1 - r)⌉₊ - b / (1 - r)) * (1 - r) :=
  mul_nonneg (sub_nonneg.mpr (Nat.le_ceil _)) hpos
 rw [left_add_fee_eq hr]
 linarith

private theorem ceil_sub_mul_lt (hr0 : 0 ≤ r) {x : K} (hx : 0 ≤ x) : (⌈x⌉₊ - x) * (1 - r) < 1 := by
  have hpos : 0 < 1 - r := sub_pos.mpr hr
  have hceil : (⌈x⌉₊ : K) - x < 1 := by
    have := Nat.ceil_lt_add_one hx
    linarith
  calc (⌈x⌉₊ - x) * (1 - r) < 1 * (1 - r) := by gcongr
    _ ≤ 1 := by linarith

theorem left_add_fee_lt (hr0 : 0 ≤ r) (hb : 0 ≤ b) (ha : 0 ≤ a) : left r b (a + fee r b a) < a + 2 := by
 have hpos : 0 < 1 - r := sub_pos.mpr hr
 have hshare := ceil_sub_mul_lt hr hr0 (x := a * r / (1 - r)) (by positivity)
 have hflat := ceil_sub_mul_lt hr hr0 (x := b / (1 - r)) (by positivity)
 rw [left_add_fee_eq hr]
 linarith

theorem left_add_lt (hr0 : 0 ≤ r) (hb : 0 ≤ b) (ha : 0 ≤ a) {f : ℕ}
  (hf : f + 2 ≤ fee r b a ∨ f + 1 ≤ ⌈a * r / (1 - r)⌉₊ ∨ f + 1 ≤ ⌈b / (1 - r)⌉₊) : left r b (a + f) < a := by
 have hpos : 0 < 1 - r := sub_pos.mpr hr
 have hx : 0 ≤ a * r / (1 - r) := by positivity
 have hy : 0 ≤ b / (1 - r) := by positivity
 have hxceil := Nat.ceil_lt_add_one hx
 have hyceil := Nat.ceil_lt_add_one hy
 have hshort : (f : K) < a * r / (1 - r) + b / (1 - r) := by
  rcases hf with hf | hf | hf
  · have hcast : (f : K) + 2 ≤ ⌈a * r / (1 - r)⌉₊ + ⌈b / (1 - r)⌉₊ := by exact_mod_cast hf
    linarith
  · have hcast : (f : K) + 1 ≤ ⌈a * r / (1 - r)⌉₊ := by exact_mod_cast hf
    linarith
  · have hcast : (f : K) + 1 ≤ ⌈b / (1 - r)⌉₊ := by exact_mod_cast hf
    linarith
 rw [← add_div, lt_div_iff₀ hpos] at hshort
 unfold left
 linarith

end Fee

section Net

variable (ht : 0 ≤ t)

include ht

theorem net_mul_le (h : 0 < net r b t g) : net r b t g * (1 + t) ≤ left r b g := by
 have hpos : 0 < 1 + t := by linarith
 have hle : (net r b t g : K) ≤ left r b g / (1 + t) := Nat.floor_le (Nat.pos_of_floor_pos h).le
 exact (le_div_iff₀ hpos).mp hle

theorem net_mono (hr : r < 1) (hg : g ≤ g') : net r b t g ≤ net r b t g' := by
 have hpos : 0 < 1 + t := by linarith
 have hkept : 0 < 1 - r := sub_pos.mpr hr
 unfold net left
 gcongr

theorem net_add_net_le (hb : 0 ≤ b) (h : 0 < net r b t g) (h' : 0 < net r b t g') :
  net r b t g + net r b t g' ≤ net r b t (g + g') := by
 have hpos : 0 < 1 + t := by linarith
 have hle := net_mul_le ht h
 have hle' := net_mul_le ht h'
 refine Nat.le_floor ?_
 rw [le_div_iff₀ hpos, left_add]
 push_cast
 linarith

theorem le_net_add_one {n : ℕ} (hlo : n + ⌊n * t⌋₊ ≤ left r b g) : n ≤ net r b t g + 1 := by
 have hpos : 0 < 1 + t := by linarith
 have htax : n * t < ⌊n * t⌋₊ + 1 := Nat.lt_floor_add_one _
 have hlt : (n : K) < left r b g / (1 + t) + 1 := by
  rw [← sub_lt_iff_lt_add, lt_div_iff₀ hpos]
  linarith
 have hfloor := Nat.lt_floor_add_one (left r b g / (1 + t))
 have hcast : (n : K) < net r b t g + 2 := by
  unfold net
  linarith
 exact Nat.lt_succ_iff.mp (by exact_mod_cast hcast)

theorem net_le_add_one {n : ℕ} (hhi : left r b g < n + ⌊n * t⌋₊ + 2) : net r b t g ≤ n + 1 := by
 have hpos : 0 < 1 + t := by linarith
 have htax : (⌊n * t⌋₊ : K) ≤ n * t := Nat.floor_le (by positivity)
 refine Nat.lt_succ_iff.mp (Nat.floor_lt' (by omega) |>.mpr ?_)
 rw [div_lt_iff₀ hpos]
 push_cast
 have hn : (0 : K) ≤ n := Nat.cast_nonneg n
 linarith

end Net

theorem floor_add_floor_le {x y : K} (hx : 0 ≤ x) (hy : 0 ≤ y) : ⌊x⌋₊ + ⌊y⌋₊ ≤ ⌊x + y⌋₊ := by
 refine Nat.le_floor ?_
 push_cast
 exact add_le_add (Nat.floor_le hx) (Nat.floor_le hy)

end GrossUp
