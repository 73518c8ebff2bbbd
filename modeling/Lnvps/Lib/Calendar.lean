import Mathlib.Tactic

/-! # The proleptic Gregorian calendar -/

namespace Calendar

open Function

def yearStart (y : Int) : Int := 365 * y + y / 4 - y / 100 + y / 400

private theorem exists_cycles (y : Int) : ∃ e c q r : Int, y = 400 * e + 100 * c + 4 * q + r ∧
  (0 ≤ c ∧ c < 4) ∧ (0 ≤ q ∧ q < 25) ∧ (0 ≤ r ∧ r < 4) :=
 ⟨y / 400, y % 400 / 100, y % 100 / 4, y % 4, by omega, by omega, by omega, by omega⟩

private theorem yearStart_cycles {e c q r : Int} (hc : 0 ≤ c ∧ c < 4) (hq : 0 ≤ q ∧ q < 25) (hr : 0 ≤ r ∧ r < 4) :
  yearStart (400 * e + 100 * c + 4 * q + r) = 146097 * e + 36524 * c + 1461 * q + 365 * r := by
 unfold yearStart
 omega

private theorem yearStart_cycles_succ {e c q r : Int} (hc : 0 ≤ c ∧ c < 4) (hq : 0 ≤ q ∧ q < 25)
  (hr : 0 ≤ r ∧ r < 4) :
  yearStart (400 * e + 100 * c + 4 * q + r + 1) = 146097 * e + 36524 * c + 1461 * q + 365 * (r + 1) +
   (if r < 3 then 0 else if q < 24 then 1 else if c < 3 then 0 else 1) := by
 by_cases h1 : r < 3
 · have h := yearStart_cycles (e := e) hc hq (r := r + 1) (by omega)
   rw [if_pos h1, Int.add_assoc _ r 1, h]
   omega
 by_cases h2 : q < 24
 · have h := yearStart_cycles (e := e) hc (q := q + 1) (r := 0) (by omega) (by omega)
   rw [if_neg h1, if_pos h2, show 400 * e + 100 * c + 4 * q + r + 1 = 400 * e + 100 * c + 4 * (q + 1) + 0 by omega,
    h]
   omega
 by_cases h3 : c < 3
 · have h := yearStart_cycles (e := e) (c := c + 1) (q := 0) (r := 0) (by omega) (by omega) (by omega)
   rw [if_neg h1, if_neg h2, if_pos h3,
    show 400 * e + 100 * c + 4 * q + r + 1 = 400 * e + 100 * (c + 1) + 4 * 0 + 0 by omega, h]
   omega
 have h := yearStart_cycles (e := e + 1) (c := 0) (q := 0) (r := 0) (by omega) (by omega) (by omega)
 rw [if_neg h1, if_neg h2, if_neg h3,
  show 400 * e + 100 * c + 4 * q + r + 1 = 400 * (e + 1) + 100 * 0 + 4 * 0 + 0 by omega, h]
 omega

theorem yearStart_succ (y : Int) : yearStart y + 365 ≤ yearStart (y + 1) ∧ yearStart (y + 1) ≤ yearStart y + 366 := by
 obtain ⟨e, c, q, r, rfl, hc, hq, hr⟩ := exists_cycles y
 rw [yearStart_cycles hc hq hr, yearStart_cycles_succ hc hq hr]
 constructor <;> split_ifs <;> omega

def yearOf (z : Int) : Int :=
 let e := z / 146097
 let doe := z % 146097
 let c := min 3 (doe / 36524)
 let doc := doe - 36524 * c
 let q := doc / 1461
 let doq := doc - 1461 * q
 400 * e + 100 * c + 4 * q + min 3 (doq / 365)

theorem yearOf_spec (z : Int) : yearStart (yearOf z) ≤ z ∧ z < yearStart (yearOf z + 1) := by
 unfold yearOf
 extract_lets e doe c doc q doq
 have hdoe : z = 146097 * e + doe ∧ 0 ≤ doe ∧ doe < 146097 := by omega
 have hc : 0 ≤ c ∧ c ≤ 3 ∧ 36524 * c ≤ doe ∧ (c < 3 → doe < 36524 * (c + 1)) := by omega
 have hq : 0 ≤ q ∧ q ≤ 24 ∧ 1461 * q ≤ doc ∧ doc < 1461 * (q + 1) := by omega
 have hr : 0 ≤ min 3 (doq / 365) ∧ min 3 (doq / 365) < 4 := by omega
 rw [yearStart_cycles (by omega) (by omega) hr, yearStart_cycles_succ (by omega) (by omega) hr]
 constructor
 · omega
 · split_ifs <;> omega

def monthStart (m : Int) : Int :=
 yearStart ((m - 2) / 12) + (153 * ((m - 2) % 12) + 2) / 5 - 719468

def monthLen (m : Int) : Int := monthStart (m + 1) - monthStart m

def monthOf (d : Int) : Int :=
 let y := yearOf (d + 719468)
 12 * y + (5 * (d + 719468 - yearStart y) + 2) / 153 + 2

example : monthOf 0 = 12 * 1970 ∧ monthStart (12 * 2024 + 2) - monthStart (12 * 2024 + 1) = 29 := by decide

theorem monthLen_bounds (m : Int) : 28 ≤ monthLen m ∧ monthLen m ≤ 31 := by
 unfold monthLen monthStart
 have hy := yearStart_succ ((m - 2) / 12)
 by_cases h : (m - 2) % 12 = 11
 · rw [show (m + 1 - 2) / 12 = (m - 2) / 12 + 1 by omega]
   omega
 · rw [show (m + 1 - 2) / 12 = (m - 2) / 12 by omega]
   omega

theorem monthOf_spec (d : Int) : monthStart (monthOf d) ≤ d ∧ d < monthStart (monthOf d + 1) := by
 have hy := yearOf_spec (d + 719468)
 have hl := yearStart_succ (yearOf (d + 719468))
 unfold monthOf monthStart
 generalize yearOf (d + 719468) = y at *
 dsimp only
 generalize hm : (5 * (d + 719468 - yearStart y) + 2) / 153 = m
 have hm' : 0 ≤ m ∧ m ≤ 11 := by omega
 rw [show (12 * y + m + 2 - 2) / 12 = y by omega, show (12 * y + m + 2 - 2) % 12 = m by omega]
 by_cases h : m = 11
 · rw [show (12 * y + m + 2 + 1 - 2) / 12 = y + 1 by omega, show (12 * y + m + 2 + 1 - 2) % 12 = 0 by omega]
   omega
 · rw [show (12 * y + m + 2 + 1 - 2) / 12 = y by omega, show (12 * y + m + 2 + 1 - 2) % 12 = m + 1 by omega]
   omega

theorem monthStart_add_bounds (m : Int) (n : Nat) :
  monthStart m + 28 * n ≤ monthStart (m + n) ∧ monthStart (m + n) ≤ monthStart m + 31 * n := by
 induction n with
 | zero => simp
 | succ n ih =>
  have h := monthLen_bounds (m + n)
  unfold monthLen at h
  rw [show m + ((n + 1 : Nat) : Int) = m + n + 1 by push_cast; ring]
  push_cast
  omega

theorem monthStart_mono {m n : Int} (h : m ≤ n) : monthStart m ≤ monthStart n := by
 obtain ⟨k, rfl⟩ : ∃ k : Nat, n = m + k := ⟨(n - m).toNat, by omega⟩
 have := monthStart_add_bounds m k
 omega

theorem monthOf_eq {m d : Int} (h1 : monthStart m ≤ d) (h2 : d < monthStart (m + 1)) : monthOf d = m := by
 have hs := monthOf_spec d
 rcases lt_trichotomy (monthOf d) m with h | h | h
 · have := monthStart_mono (show monthOf d + 1 ≤ m by omega)
   omega
 · exact h
 · have := monthStart_mono (show m + 1 ≤ monthOf d by omega)
   omega

def dom (d : Int) : Int := d - monthStart (monthOf d)

def addMonthsDay (d n : Int) : Int :=
 monthStart (monthOf d + n) + min (dom d) (monthLen (monthOf d + n) - 1)

theorem dom_bounds (d : Int) : 0 ≤ dom d ∧ dom d < monthLen (monthOf d) := by
 have h := monthOf_spec d
 unfold dom monthLen
 omega

@[simp] theorem monthOf_addMonthsDay (d n : Int) : monthOf (addMonthsDay d n) = monthOf d + n := by
 have h := dom_bounds d
 have hl := monthLen_bounds (monthOf d + n)
 apply monthOf_eq
 · unfold addMonthsDay
   omega
 unfold addMonthsDay
 have : monthStart (monthOf d + n + 1) = monthStart (monthOf d + n) + monthLen (monthOf d + n) := by
  unfold monthLen
  omega
 omega

@[simp] theorem dom_addMonthsDay (d n : Int) : dom (addMonthsDay d n) = min (dom d) (monthLen (monthOf d + n) - 1) := by
 rw [dom, monthOf_addMonthsDay, addMonthsDay]
 omega

@[simp] theorem addMonthsDay_zero (d : Int) : addMonthsDay d 0 = d := by
 have h := dom_bounds d
 unfold addMonthsDay
 rw [Int.add_zero, min_eq_left (by omega), dom]
 omega

theorem addMonthsDay_bounds (d : Int) (n : Nat) :
  d + 28 * n - 3 ≤ addMonthsDay d n ∧ addMonthsDay d n ≤ d + 31 * n := by
 have h := dom_bounds d
 have hl := monthLen_bounds (monthOf d)
 have hl' := monthLen_bounds (monthOf d + n)
 have hs := monthStart_add_bounds (monthOf d) n
 have hd : d = monthStart (monthOf d) + dom d := by
  unfold dom
  omega
 unfold addMonthsDay
 omega

theorem le_addMonthsDay (d : Int) (n : Nat) : d ≤ addMonthsDay d n := by
 rcases Nat.eq_zero_or_pos n with rfl | hn
 · simp
 have h := dom_bounds d
 have hl := monthLen_bounds (monthOf d + n)
 have hs := monthOf_spec d
 have hm := monthStart_mono (show monthOf d + 1 ≤ monthOf d + n by omega)
 unfold addMonthsDay
 omega

def clampDom (m j n : Int) : Nat → Int
 | 0 => j
 | k + 1 => min (clampDom m j n k) (monthLen (m + (k + 1 : Nat) * n) - 1)

theorem iterate_addMonthsDay (d n : Int) (k : Nat) :
  (addMonthsDay · n)^[k] d = monthStart (monthOf d + k * n) + clampDom (monthOf d) (dom d) n k ∧
   monthOf ((addMonthsDay · n)^[k] d) = monthOf d + k * n ∧
   dom ((addMonthsDay · n)^[k] d) = clampDom (monthOf d) (dom d) n k := by
 induction k with
 | zero => simp [clampDom, dom]
 | succ k ih =>
  obtain ⟨-, hm, hd⟩ := ih
  rw [iterate_succ_apply']
  generalize (addMonthsDay · n)^[k] d = e at hm hd
  have hstep : monthOf d + k * n + n = monthOf d + (k + 1 : Nat) * n := by push_cast; ring
  refine ⟨?_, ?_, ?_⟩
  · rw [addMonthsDay, hm, hd, hstep, clampDom]
  · rw [monthOf_addMonthsDay, hm, hstep]
  · rw [dom_addMonthsDay, hm, hd, hstep, clampDom]

inductive Span
 | days (n : Nat)
 | months (n : Nat)
 deriving DecidableEq

namespace Span

def nextDay : Span → Int → Int
 | days n, d => d + n
 | months n, d => addMonthsDay d n

def next (s : Span) (u t : Int) : Int := t + u * (s.nextDay (t / u) - t / u)

theorem le_nextDay (s : Span) (d : Int) : d ≤ s.nextDay d := by
 cases s with
 | days n => exact Int.le_add_of_nonneg_right (Int.natCast_nonneg n)
 | months n => exact le_addMonthsDay d n

variable {u : Int} (hu : 0 < u) (s : Span) (t : Int)

include hu

theorem le_next : t ≤ s.next u t := by
 have h := s.le_nextDay (t / u)
 have := Int.mul_nonneg (Int.le_of_lt hu) (Int.sub_nonneg_of_le h)
 unfold next
 omega

theorem next_div : s.next u t / u = s.nextDay (t / u) := by
 unfold next
 rw [Int.add_mul_ediv_left _ _ (by omega)]
 omega

theorem iterate_next (k : Nat) : (s.next u)^[k] t = t + u * (s.nextDay^[k] (t / u) - t / u) := by
 have hdiv : ∀ k : Nat, (s.next u)^[k] t / u = s.nextDay^[k] (t / u) := by
  intro k
  induction k with
  | zero => rfl
  | succ k ih => rw [iterate_succ_apply', iterate_succ_apply', next_div hu, ih]
 induction k with
 | zero => simp
 | succ k ih =>
  rw [iterate_succ_apply', iterate_succ_apply']
  nth_rewrite 1 [next]
  rw [hdiv, ih]
  ring

omit hu

def Even (s : Span) (d : Int) (k : Nat) : Prop :=
 match s with
 | days _ => True
 | months n => k * (monthStart (monthOf d + n) + min (dom d) (monthLen (monthOf d + n) - 1) - d) =
   monthStart (monthOf d + k * n) + clampDom (monthOf d) (dom d) n k - d

instance (d : Int) (k : Nat) : Decidable (s.Even d k) :=
 match s with
 | days _ => inferInstanceAs (Decidable True)
 | months n => inferInstanceAs (Decidable (k * (monthStart (monthOf d + n) +
   min (dom d) (monthLen (monthOf d + n) - 1) - d) =
    monthStart (monthOf d + k * n) + clampDom (monthOf d) (dom d) n k - d))

theorem even_iff (d : Int) (k : Nat) : s.Even d k ↔ k * (s.nextDay d - d) = s.nextDay^[k] d - d := by
 cases s with
 | days n =>
  have h : ∀ k : Nat, (nextDay (days n))^[k] d = d + k * n := by
   intro k
   induction k with
   | zero => simp
   | succ k ih =>
    rw [iterate_succ_apply', ih, nextDay]
    push_cast
    ring
  rw [h]
  simp [Even, nextDay]
 | months n =>
  have h := (iterate_addMonthsDay d n k).1
  change _ ↔ k * (addMonthsDay d n - d) = (addMonthsDay · n)^[k] d - d
  rw [h, addMonthsDay]
  rfl

def count : Span → Nat
 | days n => n
 | months n => n

def scale (k : Nat) : Span → Span
 | days n => days (k * n)
 | months n => months (k * n)

theorem nextDay_of_count_eq_zero (h : s.count = 0) (d : Int) : s.nextDay d = d := by
 cases s with
 | days n =>
  obtain rfl : n = 0 := h
  simp [nextDay]
 | months n =>
  obtain rfl : n = 0 := h
  exact addMonthsDay_zero d

theorem lt_nextDay (h : 0 < s.count) (d : Int) : d < s.nextDay d := by
 cases s with
 | days n =>
  have h : 0 < n := h
  simp only [nextDay]
  omega
 | months n =>
  have h : 0 < n := h
  have hb := addMonthsDay_bounds d n
  simp only [nextDay]
  omega

theorem nextDay_scale_eq_iff (k : Nat) (d : Int) : s.nextDay d = (s.scale k).nextDay d ↔ s.count = 0 ∨ k = 1 := by
 have hcount : ∀ n : Nat, n = k * n ↔ n = 0 ∨ k = 1 := by
  intro n
  rcases Nat.eq_zero_or_pos n with rfl | hn
  · simp
  · rw [eq_comm, Nat.mul_eq_right hn.ne']
    omega
 cases s with
 | days n =>
  rw [count, ← hcount]
  simp only [nextDay, scale]
  omega
 | months n =>
  rw [count, ← hcount]
  constructor
  · intro h
    have hm := congrArg monthOf h
    simp only [nextDay, scale, monthOf_addMonthsDay] at hm
    omega
  · intro h
    rw [scale, ← h]

theorem nextDay_scale_lt {k n : Nat} (h : 0 < s.count) (hk : 0 < k) (hn : 2 ≤ n) (d e : Int) :
  (s.scale k).nextDay e - e < n * k * (s.nextDay d - d) := by
 have hpos := s.lt_nextDay h d
 have htwo : (2 : Int) * k * (s.nextDay d - d) ≤ n * k * (s.nextDay d - d) := by
  have : (0 : Int) ≤ k * (s.nextDay d - d) := Int.mul_nonneg (by omega) (by omega)
  rw [mul_assoc, mul_assoc]
  exact Int.mul_le_mul_of_nonneg_right (by omega) this
 refine Int.lt_of_lt_of_le ?_ htwo
 cases s with
 | days m =>
  have h : 0 < k * m := Nat.mul_pos hk h
  simp only [nextDay, scale]
  push_cast
  have h : (0 : Int) < k * m := by exact_mod_cast h
  rw [mul_assoc]
  have hd : (k : Int) * (d + m - d) = k * m := by ring
  omega
 | months m =>
  have h : 0 < m := h
  have hb := (addMonthsDay_bounds d m).1
  have he := (addMonthsDay_bounds e (k * m)).2
  simp only [nextDay, scale]
  push_cast at he ⊢
  have hstep : (2 : Int) * k * (28 * m - 3) ≤ 2 * k * (addMonthsDay d m - d) :=
   Int.mul_le_mul_of_nonneg_left (by omega) (by omega)
  have hkm : (k : Int) ≤ k * m := le_mul_of_one_le_right (by omega) (by omega)
  have hexp : (2 : Int) * k * (28 * m - 3) = 56 * (k * m) - 6 * k := by ring
  omega

end Span

end Calendar
