import Lnvps.TopUp

/-! # Exchange rates -/

namespace Lnvps

open Option

structure Ticker where
 (base quote : Currency)
 deriving DecidableEq

structure TickerRate where
 ticker : Ticker
 rate : ℚ

def currencyScale : Currency → ℚ
 | .btc => 10 ^ 11
 | _ => 100

def roundToU64 (x : ℚ) : Nat := min ⌊x + 1 / 2⌋₊ (2 ^ 64 - 1)

def convertBy (factor : ℚ) (source target : Currency) (amount : Nat) : Nat :=
 let srcStandard := f64 (f64 amount / currencyScale source)
 let dstStandard := f64 (srcStandard * factor)
 roundToU64 (f64 (dstStandard * currencyScale target))

namespace TickerRate

def canConvert (t : TickerRate) (currency : Currency) : Bool := currency = t.ticker.base ∨ currency = t.ticker.quote

def convert (t : TickerRate) (source : Currency) (amount : Nat) : Option (Currency × Nat) :=
 if !t.canConvert source then none
 else if source = t.ticker.base then some (t.ticker.quote, convertBy t.rate source t.ticker.quote amount)
 else if t.rate = 0 then some (t.ticker.base, if amount = 0 then 0 else 2 ^ 64 - 1)
 else some (t.ticker.base, convertBy (f64 (1 / t.rate)) source t.ticker.base amount)

end TickerRate

def Market.withTickers (mk : Market) (getRate : Ticker → Option ℚ) : Market := { mk with
 toBtc := fun currency amount => do
  let rate ← getRate ⟨.btc, currency⟩
  let (_, msat) ← TickerRate.convert ⟨⟨.btc, currency⟩, rate⟩ currency amount
  some (msat, rate) }

section Order

variable {x y factor : ℚ} {source target : Currency} {a b : Nat}

theorem f64_zero : f64 0 = 0 := by
 simp [f64, Rounding.nearest]

theorem f64_nonneg (hx : 0 ≤ x) : 0 ≤ f64 x := Rounding.nearest_nonneg hx

theorem f64_nonpos (hx : x ≤ 0) : f64 x ≤ 0 := Rounding.nearest_nonpos hx

theorem f64_mono (hx : 0 ≤ x) (h : x ≤ y) : f64 x ≤ f64 y := Rounding.nearest_mono (by norm_num) hx h

theorem currencyScale_pos (c : Currency) : 0 < currencyScale c := by
 cases c <;> simp [currencyScale]

theorem roundToU64_mono (h : x ≤ y) : roundToU64 x ≤ roundToU64 y := by
 have hfloor : ⌊x + 1 / 2⌋₊ ≤ ⌊y + 1 / 2⌋₊ := Nat.floor_mono (by linarith)
 unfold roundToU64
 omega

theorem roundToU64_of_nonpos (h : x ≤ 0) : roundToU64 x = 0 := by
 have hfloor : ⌊x + 1 / 2⌋₊ = 0 := Nat.floor_eq_zero.mpr (by linarith)
 unfold roundToU64
 omega

theorem convertBy_zero (factor : ℚ) (source target : Currency) : convertBy factor source target 0 = 0 := by
 simp [convertBy, f64_zero, roundToU64_of_nonpos]

theorem convertBy_mono (h : a ≤ b) : convertBy factor source target a ≤ convertBy factor source target b := by
 have hscale := currencyScale_pos source
 have hscale' := currencyScale_pos target
 have hcast : (a : ℚ) ≤ b := by exact_mod_cast h
 have hstandard : ∀ n : Nat, 0 ≤ f64 (f64 n / currencyScale source) := fun n =>
  f64_nonneg (div_nonneg (f64_nonneg (Nat.cast_nonneg n)) hscale.le)
 have hsrc : f64 (f64 a / currencyScale source) ≤ f64 (f64 b / currencyScale source) :=
  f64_mono (div_nonneg (f64_nonneg (Nat.cast_nonneg a)) hscale.le)
   (div_le_div_of_nonneg_right (f64_mono (Nat.cast_nonneg a) hcast) hscale.le)
 unfold convertBy
 rcases le_total 0 factor with hfactor | hfactor
 · have hdst : f64 (f64 (f64 a / currencyScale source) * factor) ≤
     f64 (f64 (f64 b / currencyScale source) * factor) :=
    f64_mono (mul_nonneg (hstandard a) hfactor) (mul_le_mul_of_nonneg_right hsrc hfactor)
   have hpos : 0 ≤ f64 (f64 (f64 a / currencyScale source) * factor) :=
    f64_nonneg (mul_nonneg (hstandard a) hfactor)
   exact roundToU64_mono (f64_mono (mul_nonneg hpos hscale'.le) (mul_le_mul_of_nonneg_right hdst hscale'.le))
 · have hdst : f64 (f64 (f64 a / currencyScale source) * factor) ≤ 0 :=
    f64_nonpos (mul_nonpos_of_nonneg_of_nonpos (hstandard a) hfactor)
   rw [roundToU64_of_nonpos (f64_nonpos (mul_nonpos_of_nonpos_of_nonneg hdst hscale'.le))]
   exact Nat.zero_le _

namespace TickerRate

variable {t : TickerRate} {c : Currency} {x : Nat}

theorem convert_mono (h : a ≤ b) (ha : t.convert source a = some (c, x)) :
  ∃ y, t.convert source b = some (c, y) ∧ x ≤ y := by
 unfold convert at ha ⊢
 split at ha
 · cases ha
 rename_i hcan
 rw [if_neg hcan]
 split at ha
 · rename_i hbase
   cases ha
   rw [if_pos hbase]
   exact ⟨_, rfl, convertBy_mono h⟩
 rename_i hbase
 rw [if_neg hbase]
 split at ha
 · rename_i hzero
   cases ha
   rw [if_pos hzero]
   refine ⟨_, rfl, ?_⟩
   split <;> split <;> omega
 · rename_i hzero
   cases ha
   rw [if_neg hzero]
   exact ⟨_, rfl, convertBy_mono h⟩

theorem convert_zero (h : t.convert source 0 = some (c, x)) : x = 0 := by
 unfold convert at h
 split at h
 · cases h
 split at h
 · cases h
   exact convertBy_zero _ _ _
 split at h
 · exact (Prod.mk.inj (some.inj h)).2.symm
 · cases h
   exact convertBy_zero _ _ _

end TickerRate

theorem roundMsatToSat_mono (h : a ≤ b) : roundMsatToSat a ≤ roundMsatToSat b :=
 Nat.mul_le_mul_right _ (Nat.div_le_div_right (by omega))

theorem roundMsatToSat_zero : roundMsatToSat 0 = 0 := by
 norm_num [roundMsatToSat]

variable {mk : Market} {getRate : Ticker → Option ℚ} {listed currency : Currency} {method : PaymentMethod} {x : Nat}
 {rate : ℚ}

theorem getAmountAndRate_cases (mk : Market) (listed : Currency) (method : PaymentMethod) :
  (∀ a, getAmountAndRate mk listed a method = none) ∨
  (∀ a, getAmountAndRate mk listed a method = some (listed, a, 1)) ∨
  (∀ a, getAmountAndRate mk listed a method = some (.btc, roundMsatToSat a, 1)) ∨
  ∀ a, getAmountAndRate mk listed a method =
   (mk.toBtc listed a).map fun p => (.btc, roundMsatToSat p.1, p.2) := by
 have hbtc : (∀ a, getAmountAndRate mk listed a .lightning = some (.btc, roundMsatToSat a, 1)) ∨
   ∀ a, getAmountAndRate mk listed a .lightning =
    (mk.toBtc listed a).map fun p => (.btc, roundMsatToSat p.1, p.2) := by
  by_cases hlisted : listed = .btc
  · exact .inl fun a => if_pos hlisted
  · refine .inr fun a => (if_neg hlisted).trans ?_
    cases mk.toBtc listed a <;> rfl
 cases method with
 | lightning | onChain => exact .inr (.inr hbtc)
 | revolut =>
  by_cases hlisted : listed = .btc
  · exact .inl fun a => if_pos hlisted
  · exact .inr (.inl fun a => if_neg hlisted)
 | paypal | stripe => exact .inl fun _ => rfl

theorem toBtc_withTickers (a : Nat) :
  (mk.withTickers getRate).toBtc listed a = (getRate ⟨.btc, listed⟩).bind fun rate =>
   (TickerRate.convert ⟨⟨.btc, listed⟩, rate⟩ listed a).map fun p => (p.2, rate) := by
 change (getRate ⟨.btc, listed⟩).bind _ = _
 refine bind_congr fun rate _ => ?_
 cases TickerRate.convert ⟨⟨.btc, listed⟩, rate⟩ listed a <;> rfl

theorem getAmountAndRate_mono (h : a ≤ b)
  (ha : getAmountAndRate (mk.withTickers getRate) listed a method = some (currency, x, rate)) :
  ∃ y, getAmountAndRate (mk.withTickers getRate) listed b method = some (currency, y, rate) ∧ x ≤ y := by
 rcases getAmountAndRate_cases (mk.withTickers getRate) listed method with hcase | hcase | hcase | hcase
 · rw [hcase] at ha
   cases ha
 · rw [hcase] at ha ⊢
   cases ha
   exact ⟨b, rfl, h⟩
 · rw [hcase] at ha ⊢
   cases ha
   exact ⟨_, rfl, roundMsatToSat_mono h⟩
 · rw [hcase, toBtc_withTickers] at ha ⊢
   obtain ⟨_, hto, heq⟩ := map_eq_some_iff.mp ha
   obtain ⟨rate', hrate, hto⟩ := bind_eq_some_iff.mp hto
   obtain ⟨⟨c, msat⟩, hconvert, rfl⟩ := map_eq_some_iff.mp hto
   cases heq
   obtain ⟨y, hy, hle⟩ := TickerRate.convert_mono h hconvert
   exact ⟨_, by rw [hrate, bind_some, hy]; rfl, roundMsatToSat_mono hle⟩

theorem getAmountAndRate_zero
  (h : getAmountAndRate (mk.withTickers getRate) listed 0 method = some (currency, x, rate)) : x = 0 := by
 rcases getAmountAndRate_cases (mk.withTickers getRate) listed method with hcase | hcase | hcase | hcase
 · rw [hcase] at h
   cases h
 · rw [hcase, some.injEq, Prod.mk.injEq, Prod.mk.injEq] at h
   exact h.2.1.symm
 · rw [hcase, some.injEq, Prod.mk.injEq, Prod.mk.injEq, roundMsatToSat_zero] at h
   exact h.2.1.symm
 rw [hcase, toBtc_withTickers] at h
 obtain ⟨_, hto, heq⟩ := map_eq_some_iff.mp h
 obtain ⟨rate', -, hto⟩ := bind_eq_some_iff.mp hto
 obtain ⟨⟨c, msat⟩, hconvert, rfl⟩ := map_eq_some_iff.mp hto
 rw [Prod.mk.injEq, Prod.mk.injEq] at heq
 rw [← heq.2.1, TickerRate.convert_zero hconvert]
 exact roundMsatToSat_zero

end Order

end Lnvps
