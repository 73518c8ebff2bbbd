import Mathlib.Data.Int.Log
import Mathlib.Data.Rat.Floor
import Mathlib.Tactic

/-! # Rounding to a number of binary digits -/

namespace Rounding

def roundEven (y : ℚ) : ℤ :=
 if y - ⌊y⌋ < 1 / 2 then ⌊y⌋
 else if 1 / 2 < y - ⌊y⌋ then ⌊y⌋ + 1
 else if ⌊y⌋ % 2 = 0 then ⌊y⌋ else ⌊y⌋ + 1

def ulp (p : ℕ) (x : ℚ) : ℚ := 2 ^ (Int.log 2 |x| + 1 - p)

def nearest (p : ℕ) (x : ℚ) : ℚ := if x = 0 then 0 else roundEven (x / ulp p x) * ulp p x

theorem abs_roundEven_sub_le (y : ℚ) : |(roundEven y : ℚ) - y| ≤ 1 / 2 := by
 have hlo := Int.floor_le y
 have hhi := Int.lt_floor_add_one y
 unfold roundEven
 rw [abs_le]
 split_ifs with h1 h2 h3
 all_goals
  push_cast
  constructor <;> linarith

theorem roundEven_intCast (n : ℤ) : roundEven n = n := by
 unfold roundEven
 simp

variable {x : ℚ} {p : ℕ}

theorem roundEven_mono {y : ℚ} (h : x ≤ y) : roundEven x ≤ roundEven y := by
 have hfloor : ⌊x⌋ ≤ ⌊y⌋ := Int.floor_mono h
 rcases hfloor.eq_or_lt with heq | hlt
 · unfold roundEven
   rw [heq]
   split_ifs <;> first | omega | linarith
 have hx : roundEven x ≤ ⌊x⌋ + 1 := by
  unfold roundEven
  split_ifs <;> omega
 have hy : ⌊y⌋ ≤ roundEven y := by
  unfold roundEven
  split_ifs <;> omega
 omega

theorem ulp_pos (p : ℕ) (x : ℚ) : 0 < ulp p x := zpow_pos (by norm_num) _

theorem ulp_le (hx : x ≠ 0) : ulp p x ≤ 2 * |x| / 2 ^ p := by
 have hlog : (2 : ℚ) ^ Int.log 2 |x| ≤ |x| := by
  exact_mod_cast Int.zpow_log_le_self (b := 2) (by norm_num) (abs_pos.mpr hx)
 unfold ulp
 rw [zpow_sub₀ (by norm_num), zpow_add₀ (by norm_num), zpow_natCast, zpow_one, mul_comm]
 gcongr

theorem abs_nearest_sub_le (p : ℕ) (x : ℚ) : |nearest p x - x| ≤ |x| / 2 ^ p := by
  unfold nearest
  split_ifs with hx
  · simp [hx]
  have hulp := ulp_pos p x
  have hround := abs_roundEven_sub_le (x / ulp p x)
  have hsplit : (roundEven (x / ulp p x) : ℚ) * ulp p x - x =
      ((roundEven (x / ulp p x) : ℚ) - x / ulp p x) * ulp p x := by
    field_simp
  have hle : ulp p x ≤ 2 * |x| / 2 ^ p := ulp_le hx
  calc |(roundEven (x / ulp p x) : ℚ) * ulp p x - x|
      = |(roundEven (x / ulp p x) : ℚ) - x / ulp p x| * ulp p x := by
        rw [hsplit, abs_mul, abs_of_pos hulp]
    _ ≤ 1 / 2 * ulp p x := by gcongr
    _ ≤ 1 / 2 * (2 * |x| / 2 ^ p) := by gcongr
    _ = |x| / 2 ^ p := by ring

theorem nearest_nonneg (hx : 0 ≤ x) : 0 ≤ nearest p x := by
 have h := (abs_le.mp (abs_nearest_sub_le p x)).1
 have hp : (1 : ℚ) ≤ 2 ^ p := one_le_pow₀ (by norm_num)
 have hdiv : |x| / 2 ^ p ≤ x := by
  rw [abs_of_nonneg hx]
  exact div_le_self hx hp
 linarith

theorem nearest_nonpos (hx : x ≤ 0) : nearest p x ≤ 0 := by
 have h := (abs_le.mp (abs_nearest_sub_le p x)).2
 have hp : (1 : ℚ) ≤ 2 ^ p := one_le_pow₀ (by norm_num)
 have hdiv : |x| / 2 ^ p ≤ -x := by
  rw [abs_of_nonpos hx]
  exact div_le_self (by linarith) hp
 linarith

theorem zpow_log_le_nearest (hp : 1 ≤ p) (hx : 0 < x) : (2 : ℚ) ^ Int.log 2 x ≤ nearest p x := by
 have hulp := ulp_pos p x
 have hpow : ((2 ^ (p - 1) : ℤ) : ℚ) * ulp p x = 2 ^ Int.log 2 x := by
  unfold ulp
  rw [abs_of_pos hx]
  push_cast
  rw [← zpow_natCast, ← zpow_add₀ (by norm_num)]
  congr 1
  omega
 have hle : ((2 ^ (p - 1) : ℤ) : ℚ) ≤ x / ulp p x := by
  rw [le_div_iff₀ hulp, hpow]
  exact Int.zpow_log_le_self (by norm_num) hx
 have hround := roundEven_mono hle
 rw [roundEven_intCast] at hround
 unfold nearest
 rw [if_neg hx.ne', ← hpow]
 have hcast : ((2 ^ (p - 1) : ℤ) : ℚ) ≤ roundEven (x / ulp p x) := by exact_mod_cast hround
 gcongr

theorem nearest_le_zpow_log (hx : 0 < x) : nearest p x ≤ 2 ^ (Int.log 2 x + 1) := by
 have hulp := ulp_pos p x
 have hpow : ((2 ^ p : ℤ) : ℚ) * ulp p x = 2 ^ (Int.log 2 x + 1) := by
  unfold ulp
  rw [abs_of_pos hx]
  push_cast
  rw [← zpow_natCast, ← zpow_add₀ (by norm_num)]
  congr 1
  omega
 have hle : x / ulp p x ≤ ((2 ^ p : ℤ) : ℚ) := by
  rw [div_le_iff₀ hulp, hpow]
  exact (Int.lt_zpow_succ_log_self (by norm_num) x).le
 have hround := roundEven_mono hle
 rw [roundEven_intCast] at hround
 unfold nearest
 rw [if_neg hx.ne', ← hpow]
 have hcast : (roundEven (x / ulp p x) : ℚ) ≤ ((2 ^ p : ℤ) : ℚ) := by exact_mod_cast hround
 gcongr

theorem nearest_mono (hp : 1 ≤ p) {y : ℚ} (hx : 0 ≤ x) (h : x ≤ y) : nearest p x ≤ nearest p y := by
  rcases hx.eq_or_lt with rfl | hpos
  · have hzero : nearest p 0 = 0 := by simp [nearest]
    rw [hzero]
    exact nearest_nonneg h
  have hy : 0 < y := lt_of_lt_of_le hpos h
  have hlog : Int.log 2 x ≤ Int.log 2 y := Int.log_mono_right hpos h
  rcases hlog.eq_or_lt with heq | hlt
  · have hunit : ulp p x = ulp p y := by
      unfold ulp
      rw [abs_of_pos hpos, abs_of_pos hy, heq]
    have hulp := ulp_pos p y
    unfold nearest
    rw [if_neg hpos.ne', if_neg hy.ne', hunit]
    have hround : (roundEven (x / ulp p y) : ℚ) ≤ roundEven (y / ulp p y) := by
      have hdiv : x / ulp p y ≤ y / ulp p y := by gcongr
      exact_mod_cast roundEven_mono hdiv
    gcongr
  · calc nearest p x ≤ 2 ^ (Int.log 2 x + 1) := nearest_le_zpow_log hpos
      _ ≤ 2 ^ Int.log 2 y := zpow_le_zpow_right₀ (by norm_num) hlt
      _ ≤ nearest p y := zpow_log_le_nearest hp hy

theorem nearest_natCast {n : ℕ} (hn : n < 2 ^ p) : nearest p n = n := by
 unfold nearest
 split_ifs with hzero
 · exact hzero.symm
 have hne : n ≠ 0 := fun h => hzero (by rw [h, Nat.cast_zero])
 have hlog : Int.log 2 |(n : ℚ)| = Nat.log 2 n := by rw [Nat.abs_cast, Int.log_natCast]
 obtain ⟨k, hk⟩ := Nat.exists_eq_add_of_lt (Nat.log_lt_of_lt_pow hne hn)
 have hulp : ulp p n = (2 ^ k)⁻¹ := by
  unfold ulp
  rw [hlog, hk, ← zpow_natCast, ← zpow_neg]
  congr 1
  push_cast
  ring
 have hquot : (n : ℚ) / ulp p n = ((n * 2 ^ k : ℤ) : ℚ) := by
  rw [hulp]
  push_cast
  rw [div_inv_eq_mul]
 rw [hquot, roundEven_intCast, ← hquot]
 exact div_mul_cancel₀ _ (ulp_pos p n).ne'

example : nearest 53 (1 / 10) = 3602879701896397 / 36028797018963968 := by decide +kernel

end Rounding
