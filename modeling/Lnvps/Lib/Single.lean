import Lnvps.Lib.Text
import Mathlib.Data.Rat.Defs
import Mathlib.Algebra.Field.Rat
import Mathlib.Tactic.FieldSimp
import Mathlib.Tactic.IntervalCases
import Mathlib.Tactic.Ring

/-! # Decimal texts of single-precision numbers -/

namespace Single

open List Text

def ofNat (n : Nat) : Nat :=
 let unit := 2 ^ (n.log2 - 23)
 let q := n / unit
 let r := n % unit
 if 2 * r < unit ∨ (2 * r = unit ∧ q % 2 = 0) then q * unit else (q + 1) * unit

theorem ofNat_eq {n : Nat} (h : n < 2 ^ 24) : ofNat n = n := by
 have hlog : n.log2 - 23 = 0 := by
  by_cases hn : n = 0
  · subst hn
    decide
  · have := (Nat.log2_lt hn).mpr h
    omega
 simp [ofNat, hlog, Nat.mod_one]

def readAs (m t : Nat) : Bool :=
 let half := 125 * 2 ^ (m.log2 + 1)
 let even := m * 2 ^ (23 - m.log2) / 2 ^ (m.log2 - 23) % 2 = 0
 if 125 * m ≤ t then
  let d := (t - 125 * m) * 2 ^ 25
  d < half ∨ (d = half ∧ even)
 else
  let d := (125 * m - t) * 2 ^ 25
  let below := if m = 2 ^ m.log2 then half / 2 else half
  d < below ∨ (d = below ∧ even)

def shortestAt (m step : Nat) : Option Nat :=
 let down := 125 * m / step * step
 let up := down + step
 (if 125 * m - down < up - 125 * m then [down, up] else [up, down]).find? (readAs m)

def shortest (m : Nat) : Nat :=
 (((List.range 13).reverse.map (10 ^ ·)).findSome? (shortestAt m)).getD (125 * m)

section Shortest

variable {m t step : Nat}

theorem readAs_self (m : Nat) : readAs m (125 * m) = true := by
 simp [readAs]

theorem near_of_readAs (hm : m < 2 ^ 20) (h : readAs m t = true) : t < 125 * m + 5 ∧ 125 * m < t + 5 := by
 have hlog : m.log2 ≤ 19 := by
  by_cases h0 : m = 0
  · subst h0
    decide
  · have := (Nat.log2_lt h0).mpr hm
    omega
 have hhalf : 125 * 2 ^ (m.log2 + 1) ≤ 125 * 2 ^ 20 := by
  have := Nat.pow_le_pow_right (show 0 < 2 by decide) (show m.log2 + 1 ≤ 20 by omega)
  omega
 simp only [readAs] at h
 split at h
 · simp only [decide_eq_true_eq] at h
   omega
 · simp only [decide_eq_true_eq] at h
   split at h <;> omega

theorem eq_of_shortestAt (hm : m < 2 ^ 20) (hstep : step = 1 ∨ 5 ∣ step) (h : shortestAt m step = some t) :
  t = 125 * m := by
 have hmem := mem_of_find?_eq_some h
 obtain ⟨hlt, hgt⟩ := near_of_readAs hm (List.find?_some h)
 rcases hstep with rfl | hfive
 · simp only [shortestAt, Nat.div_one, Nat.mul_one, Nat.sub_self, Nat.add_sub_cancel_left, Nat.zero_lt_one, if_true,
    List.find?_cons, readAs_self] at h
   exact (Option.some.inj h).symm
 have hdvd : 5 ∣ t := by
  have hdown : 5 ∣ 125 * m / step * step := Dvd.dvd.mul_left hfive _
  have hup : 5 ∣ 125 * m / step * step + step := (Nat.dvd_add_right hdown).mpr hfive
  split at hmem <;> simp only [mem_cons, not_mem_nil, or_false] at hmem <;>
   rcases hmem with rfl | rfl <;> assumption
 omega

theorem shortest_eq (hm : m < 2 ^ 20) : shortest m = 125 * m := by
 unfold shortest
 cases hfind : ((List.range 13).reverse.map (10 ^ ·)).findSome? (shortestAt m) with
 | none => rfl
 | some t =>
  obtain ⟨step, hmem, hat⟩ := exists_of_findSome?_eq_some hfind
  obtain ⟨j, -, rfl⟩ := mem_map.mp hmem
  refine eq_of_shortestAt hm ?_ hat
  cases j with
  | zero => exact .inl rfl
  | succ j => exact .inr (Dvd.dvd.mul_left (show 5 ∣ 10 by decide) _)

example : 125 * (2 ^ 20 + 1) = 131072125 ∧ shortest (2 ^ 20 + 1) = 131072130 := by decide +kernel

end Shortest

def places (f : Nat) : List Char :=
 if f % 1000 = 0 then []
 else if f % 100 = 0 then [Nat.digitChar (f / 100 % 10)]
 else if f % 10 = 0 then [Nat.digitChar (f / 100 % 10), Nat.digitChar (f / 10 % 10)]
 else [Nat.digitChar (f / 100 % 10), Nat.digitChar (f / 10 % 10), Nat.digitChar (f % 10)]

def decimal (t : Nat) : List Char :=
 Nat.toDigits 10 (t / 1000) ++ if t % 1000 = 0 then [] else '.' :: places t

def readDecimal (cs : List Char) : Option Rat :=
 let whole := cs.takeWhile Char.isDigit
 if whole = [] then none
 else
  match cs.dropWhile Char.isDigit with
  | [] => some (Nat.ofDigitChars 10 whole 0)
  | c :: places =>
   if c = '.' ∧ places ≠ [] ∧ places.all Char.isDigit then
    some (Nat.ofDigitChars 10 whole 0 + Nat.ofDigitChars 10 places 0 / 10 ^ places.length)
   else none

theorem isDigit_digitChar {d : Nat} (h : d < 10) : (Nat.digitChar d).isDigit = true := by
 interval_cases d <;> decide

theorem toNat_digitChar {d : Nat} (h : d < 10) : (Nat.digitChar d).toNat - '0'.toNat = d := by
 interval_cases d <;> decide

theorem isDigit_places (f : Nat) : ∀ c ∈ places f, c.isDigit = true := by
 have hmod : ∀ n, (Nat.digitChar (n % 10)).isDigit = true := fun n => isDigit_digitChar (Nat.mod_lt _ (by decide))
 intro c hc
 unfold places at hc
 split at hc
 · exact absurd hc not_mem_nil
 split at hc
 · simp only [mem_singleton] at hc
   exact hc ▸ hmod _
 split at hc
 · simp only [mem_cons, not_mem_nil, or_false] at hc
   rcases hc with rfl | rfl <;> exact hmod _
 · simp only [mem_cons, not_mem_nil, or_false] at hc
   rcases hc with rfl | rfl | rfl <;> exact hmod _

theorem comma_decimal (t : Nat) : ',' ∉ decimal t := by
 intro h
 unfold decimal at h
 rcases mem_append.mp h with hwhole | hplaces
 · exact absurd (isDigit_toDigits _ _ hwhole) (by decide)
 split at hplaces
 · exact absurd hplaces not_mem_nil
 · rcases mem_cons.mp hplaces with hpoint | hdigit
   · exact absurd hpoint (by decide)
   · exact absurd (isDigit_places _ _ hdigit) (by decide)

theorem ofDigitChars_places {f : Nat} :
  Nat.ofDigitChars 10 (places f) 0 * 1000 = f % 1000 * 10 ^ (places f).length := by
 have hmod : ∀ n, (Nat.digitChar (n % 10)).toNat - '0'.toNat = n % 10 :=
  fun n => toNat_digitChar (Nat.mod_lt _ (by decide))
 unfold places
 split
 · simp_all
 split
 · simp only [Nat.ofDigitChars_cons, Nat.ofDigitChars_nil, hmod, length_singleton]
   omega
 split
 · simp only [Nat.ofDigitChars_cons, Nat.ofDigitChars_nil, hmod, length_cons, length_nil]
   omega
 · simp only [Nat.ofDigitChars_cons, Nat.ofDigitChars_nil, hmod, length_cons, length_nil]
   omega

theorem readDecimal_toDigits (n : Nat) : readDecimal (Nat.toDigits 10 n) = some (n : Rat) := by
 obtain ⟨htake, hdrop⟩ := whole_append n [] nofun
 rw [append_nil] at htake hdrop
 unfold readDecimal
 simp only [htake, hdrop, Nat.toDigits_ne_nil, if_false, Nat.ofDigitChars_toDigits (by decide : 1 < 10) (le_refl 10)]

theorem readDecimal_decimal (t : Nat) : readDecimal (decimal t) = some ((t : Rat) / 1000) := by
 have hsplit : (t : Rat) = 1000 * (t / 1000 : Nat) + (t % 1000 : Nat) := by
  exact_mod_cast (Nat.div_add_mod t 1000).symm
 unfold decimal
 split
 · rename_i hzero
   rw [append_nil, readDecimal_toDigits, hsplit, hzero]
   congr 1
   field_simp
   simp
 · rename_i hsome
   obtain ⟨htake, hdrop⟩ := whole_append (t / 1000) ('.' :: places t) (by simp)
   have hne : places t ≠ [] := by
    unfold places
    rw [if_neg hsome]
    split
    · simp
    split <;> simp
   have hplaces : (Nat.ofDigitChars 10 (places t) 0 : Rat) * 1000 = (t % 1000 : Nat) * 10 ^ (places t).length := by
    exact_mod_cast ofDigitChars_places
   unfold readDecimal
   simp only [htake, hdrop, Nat.toDigits_ne_nil, if_false, Nat.ofDigitChars_toDigits (by decide : 1 < 10) (le_refl 10)]
   rw [if_pos ⟨trivial, hne, all_eq_true.mpr (isDigit_places t)⟩, hsplit]
   congr 1
   field_simp
   rw [add_mul, hplaces]
   ring

end Single
