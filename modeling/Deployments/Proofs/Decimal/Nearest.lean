import Deployments.Proofs.Decimal.Shortest

/-!
Rounding finds the number that is nearest. A decimal in the span of a number is rounded to that
number, so the shortest decimal of a number reads back as it.
-/

namespace Deployments.Decimal

namespace Binary64

/-- A ratio is rounded to the natural that is not farther from it than a half, where a natural that
is just so far is even. -/
theorem divideToEven_eq {num den k : Nat} (positive : 0 < den)
    (below : 2 * (den * k) ≤ 2 * num + den) (above : 2 * num ≤ 2 * (den * k) + den)
    (odd : k % 2 = 1 → 2 * (den * k) < 2 * num + den ∧ 2 * num < 2 * (den * k) + den) :
    divideToEven num den = k := by
  have parts := Nat.div_add_mod num den
  have small := Nat.mod_lt num positive
  unfold divideToEven
  dsimp only
  generalize num / den = q at parts
  generalize num % den = r at parts small
  have near : k = q ∨ k = q + 1 := by
    by_contra! far
    rcases Nat.lt_or_ge k q with less | more
    · have step := Nat.mul_le_mul_left den (Nat.succ_le_of_lt less)
      rw [Nat.mul_succ] at step
      omega
    · have step := Nat.mul_le_mul_left den (Nat.lt_of_le_of_ne (Nat.lt_of_le_of_ne more far.1.symm)
        far.2.symm)
      rw [Nat.mul_succ, Nat.mul_succ] at step
      omega
  rcases near with rfl | rfl
  · split_ifs <;> omega
  · rw [Nat.mul_succ] at below above odd
    split_ifs <;> omega

theorem scaled_ratio (num : Nat) {den : Nat} (positive : 0 < den) (e : Int) :
    ((scaled num den e).1 : ℚ) = num / den / 2 ^ e * (scaled num den e).2 := by
  have den_pos : (0 : ℚ) < den := by exact_mod_cast positive
  unfold scaled
  split
  next nonneg =>
    obtain ⟨n, rfl⟩ := Int.eq_ofNat_of_zero_le nonneg
    simp only [Int.toNat_natCast, zpow_natCast]
    push_cast
    field_simp
  next negative =>
    obtain ⟨n, rfl⟩ : ∃ n : Nat, e = -(n : Int) := ⟨(-e).toNat, by omega⟩
    simp only [neg_neg, Int.toNat_natCast, zpow_neg, zpow_natCast]
    push_cast
    field_simp

/-- A ratio is rounded, at an exponent, to the mantissa to which it is nearest. -/
theorem divideToEven_scaled {num den : Nat} (positive : 0 < den) {e : Int} {k : Nat}
    (below : ((k : ℚ) - 1 / 2) * 2 ^ e ≤ num / den) (above : (num : ℚ) / den ≤ (k + 1 / 2) * 2 ^ e)
    (odd : k % 2 = 1 → ((k : ℚ) - 1 / 2) * 2 ^ e < num / den ∧
      (num : ℚ) / den < (k + 1 / 2) * 2 ^ e) :
    divideToEven (scaled num den e).1 (scaled num den e).2 = k := by
  have unit : (0 : ℚ) < 2 ^ e := by positivity
  have ratio := scaled_ratio num positive e
  have den_pos : 0 < (scaled num den e).2 := scaled_pos positive e
  have den_pos_ : (0 : ℚ) < (scaled num den e).2 := by exact_mod_cast den_pos
  rw [← le_div_iff₀ unit] at below
  rw [← div_le_iff₀ unit] at above
  rw [← lt_div_iff₀ unit, ← div_lt_iff₀ unit] at odd
  generalize (num : ℚ) / den / 2 ^ e = t at below above odd ratio
  generalize (scaled num den e).1 = a at ratio ⊢
  generalize (scaled num den e).2 = b at ratio den_pos den_pos_ ⊢
  refine divideToEven_eq den_pos ?_ ?_ fun isOdd => ⟨?_, ?_⟩
  · rw [← Nat.cast_le (α := ℚ)]
    push_cast
    nlinarith
  · rw [← Nat.cast_le (α := ℚ)]
    push_cast
    nlinarith
  · rw [← Nat.cast_lt (α := ℚ)]
    push_cast
    nlinarith [(odd isOdd).1]
  · rw [← Nat.cast_lt (α := ℚ)]
    push_cast
    nlinarith [(odd isOdd).2]

theorem exponentOf_eq {num den : Nat} (given : 0 < num) (positive : 0 < den) {e : Int}
    (least : minExponent ≤ e) (above : (num : ℚ) / den < 2 ^ (53 + e))
    (below : minExponent < e → (2 : ℚ) ^ (52 + e) ≤ num / den) : exponentOf num den = e := by
  obtain ⟨above', below'⟩ := exponentOf_bounds given positive
  have least' := minExponent_le_exponentOf num den
  generalize exponentOf num den = f at above' below' least'
  have apart : ∀ a b : Int, a < b → (2 : ℚ) ^ (52 + b) ≤ num / den →
      (num : ℚ) / den < 2 ^ (53 + a) → False := by
    intro a b less low high
    have widen : (2 : ℚ) ^ (53 + a) ≤ 2 ^ (52 + b) :=
      zpow_le_zpow_right₀ (by norm_num) (by omega)
    exact absurd (low.trans_lt (high.trans_le widen)) (lt_irrefl _)
  rcases lt_trichotomy f e with less | same | greater
  · exact (apart f e less (below (by omega)) above').elim
  · exact same
  · exact (apart e f greater (below' (by omega)) above).elim

end Binary64

open Binary64

namespace Span

theorem gap_le (m : Nat) (e : Int) : gap m e ≤ 1 / 2 := by
  unfold gap
  split <;> norm_num

section Holds

variable {m : Nat} {e : Int} {v : ℚ}

theorem Holds.le (holds : Holds m e v) :
    (m - gap m e) * 2 ^ e ≤ v ∧ v ≤ (m + 1 / 2) * 2 ^ e := by
  unfold Holds at holds
  split at holds
  · exact holds
  · exact ⟨holds.1.le, holds.2.le⟩

theorem Holds.lt_of_odd (holds : Holds m e v) (odd : m % 2 = 1) :
    (m - gap m e) * 2 ^ e < v ∧ v < (m + 1 / 2) * 2 ^ e := by
  rwa [Holds, if_neg (by omega)] at holds

theorem Holds.pos (holds : Holds m e v) (positive : 0 < m) : 0 < v := by
  have one : (1 : ℚ) ≤ m := by exact_mod_cast positive
  have small := gap_le m e
  have low : (0 : ℚ) < (m - gap m e) * 2 ^ e := mul_pos (by linarith) (by positivity)
  exact low.trans_le holds.le.1

/-- A power of two is nearest to the decimals that are just below it too. -/
theorem Holds.of_lt_power (holds : Holds m e v) (canonical : (finite false m e).Canonical)
    (least : minExponent < e) (less : v < 2 ^ (52 + e)) :
    m = 2 ^ 52 ∧ ((2 ^ 53 : Nat) - 1 / 2) * 2 ^ (e - 1) ≤ v := by
  have unit : (0 : ℚ) < 2 ^ e := by positivity
  have full : 2 ^ 52 ≤ m := by
    by_contra few
    have same : e = minExponent := canonical.2.2.2 (by simpa using few)
    omega
  have low := holds.le.1.trans_lt less
  rw [zpow_add₀ (by norm_num), mul_lt_mul_iff_left₀ unit] at low
  have bound : (m : ℚ) < 2 ^ 52 + 1 := by
    have small := gap_le m e
    norm_num at low
    linarith
  have power : m = 2 ^ 52 := by
    have above : m < 2 ^ 52 + 1 := by exact_mod_cast bound
    omega
  refine ⟨power, ?_⟩
  have quarter : gap m e = 1 / 4 := if_pos ⟨power, least⟩
  have half : (2 : ℚ) ^ e = 2 * 2 ^ (e - 1) := by
    rw [← zpow_one_add₀ (by norm_num)]
    congr 1
    omega
  have start := holds.le.1
  rw [quarter, power, half] at start
  push_cast at start ⊢
  linarith

end Holds

end Span

/-- A ratio is rounded to the number in whose span it is. -/
theorem ofRatio_of_holds (negative : Bool) {m num den : Nat} {e : Int} (positive : 0 < den)
    (given : 0 < num) (canonical : (finite false m e).Canonical)
    (holds : Span.Holds m e (num / den)) : ofRatio negative num den = finite negative m e := by
  have unit : (0 : ℚ) < 2 ^ e := by positivity
  obtain ⟨bits, least, greatest, _⟩ := id canonical
  have notFull : m ≠ 2 ^ 53 := Nat.ne_of_lt bits
  have bits_ : (m : ℚ) + 1 ≤ 2 ^ 53 := by exact_mod_cast bits
  have high : (num : ℚ) / den < 2 ^ (53 + e) := by
    calc (num : ℚ) / den ≤ (m + 1 / 2) * 2 ^ e := holds.le.2
      _ < 2 ^ 53 * 2 ^ e := by gcongr; linarith
      _ = 2 ^ (53 + e) := by rw [zpow_add₀ (by norm_num)]; norm_num
  rw [ofRatio_eq negative given]
  dsimp only
  by_cases reaches : minExponent < e → (2 : ℚ) ^ (52 + e) ≤ num / den
  · have wide := Span.gap_le m e
    have nearest : divideToEven (scaled num den e).1 (scaled num den e).2 = m := by
      refine divideToEven_scaled positive ?_ holds.le.2 fun odd => ⟨?_, (holds.lt_of_odd odd).2⟩
      · exact le_trans (by gcongr) holds.le.1
      · exact lt_of_le_of_lt (by gcongr) (holds.lt_of_odd odd).1
    rw [exponentOf_eq given positive least high reaches, nearest, if_neg notFull]
    dsimp only
    rw [if_neg greatest.not_gt]
  · push Not at reaches
    obtain ⟨inner, less⟩ := reaches
    obtain ⟨rfl, low⟩ := holds.of_lt_power canonical inner less
    have half : (2 : ℚ) ^ (52 + e) = 2 ^ 53 * 2 ^ (e - 1) := by
      rw [← zpow_natCast, ← zpow_add₀ (by norm_num)]
      congr 1
      omega
    have below : (0 : ℚ) < 2 ^ (e - 1) := by positivity
    have nearest : divideToEven (scaled num den (e - 1)).1 (scaled num den (e - 1)).2 = 2 ^ 53 := by
      refine divideToEven_scaled positive low ?_ (by norm_num)
      rw [half] at less
      push_cast
      linarith
    have exponent : exponentOf num den = e - 1 := by
      refine exponentOf_eq given positive (by omega) ?_ fun _ => ?_
      · exact less.trans_le (zpow_le_zpow_right₀ (by norm_num) (by omega))
      · refine le_trans ?_ low
        rw [zpow_add₀ (by norm_num)]
        gcongr
        norm_num
    rw [exponent, nearest, if_pos rfl]
    dsimp only
    rw [sub_add_cancel, if_neg greatest.not_gt]

/-- What is rounded to a finite number is in the range of finite numbers. -/
theorem Span.Holds.range {m : Nat} {e : Int} {v : ℚ} (holds : Holds m e v) (positive : 0 < m)
    (canonical : (finite false m e).Canonical) : 2 ^ (-1075 : Int) ≤ v ∧ v ≤ 2 ^ (1024 : Int) := by
  obtain ⟨bits, least, greatest, _⟩ := canonical
  have bits_ : (m : ℚ) + 1 ≤ 2 ^ (53 : Int) := by exact_mod_cast bits
  have one : (1 : ℚ) ≤ m := by exact_mod_cast positive
  have wide := Span.gap_le m e
  have unit : (0 : ℚ) < 2 ^ e := by positivity
  have half : (2 : ℚ) ^ (-1 : Int) = 1 / 2 := by norm_num
  constructor
  · calc (2 : ℚ) ^ (-1075 : Int) = 2 ^ (-1 : Int) * 2 ^ minExponent := by
          rw [← zpow_add₀ (by norm_num)]
          rfl
      _ ≤ 2 ^ (-1 : Int) * 2 ^ e := by gcongr; norm_num
      _ ≤ (m - gap m e) * 2 ^ e := by
        rw [half]
        gcongr
        linarith
      _ ≤ v := holds.le.1
  · calc v ≤ (m + 1 / 2) * 2 ^ e := holds.le.2
      _ ≤ 2 ^ (53 : Int) * 2 ^ e := by gcongr; linarith
      _ ≤ 2 ^ (53 : Int) * 2 ^ maxExponent := by gcongr; norm_num
      _ = 2 ^ (1024 : Int) := by
        rw [← zpow_add₀ (by norm_num)]
        rfl

/-- The digits and powers of ten of such decimals are among those that are looked at. -/
theorem decimal_bounds {m : Nat} {e : Int} (positive : 0 < m)
    (canonical : (finite false m e).Canonical) {d : Nat} {k : Int}
    (holds : Span.Holds m e (d * 10 ^ k)) : 0 < d ∧ k ≤ 400 ∧ -(400 + (d.log2 : Int)) ≤ k := by
  have unit : (0 : ℚ) < 10 ^ k := by positivity
  have given : (0 : ℚ) < d := pos_of_mul_pos_left (holds.pos positive) unit.le
  have given_ : 0 < d := by exact_mod_cast given
  obtain ⟨low, high⟩ := holds.range positive canonical
  refine ⟨given_, ?_, ?_⟩
  · by_contra! large
    have units : (1 : ℚ) ≤ d := by exact_mod_cast given_
    have powers : (2 : ℚ) ^ (1024 : Int) ≤ 10 ^ (400 : Int) := by
      exact_mod_cast two_pow_le (l := 1024) (b := 400) (by decide)
    have next : (10 : ℚ) ^ (400 : Int) < 10 ^ k := zpow_lt_zpow_right₀ (by norm_num) large
    have value : (10 : ℚ) ^ k ≤ d * 10 ^ k := le_mul_of_one_le_left unit.le units
    exact absurd (next.trans_le value) (high.trans powers).not_gt
  · by_contra! small
    have powers : (10 : ℚ) ^ (-400 : Int) ≤ 2 ^ (-1075 : Int) := by
      rw [zpow_neg, zpow_neg]
      refine inv_anti₀ (by positivity) ?_
      exact_mod_cast two_pow_le (l := 1075) (b := 400) (by decide)
    have log : (d : ℚ) < 2 ^ (d.log2 + 1) := by exact_mod_cast Nat.lt_log2_self
    have value : (d : ℚ) * 10 ^ k < 10 ^ (-400 : Int) := by
      calc (d : ℚ) * 10 ^ k < 2 ^ (d.log2 + 1) * 10 ^ k := by gcongr
        _ ≤ 10 ^ (d.log2 + 1) * 10 ^ k := by gcongr; norm_num
        _ = 10 ^ ((d.log2 : Int) + 1 + k) := by
          rw [zpow_add₀ (by norm_num), ← zpow_natCast]
          rfl
        _ ≤ 10 ^ (-400 : Int) := zpow_le_zpow_right₀ (by norm_num) (by omega)
    exact absurd value (powers.trans low).not_gt

/-- A decimal is read as the number in whose span it is. -/
theorem ofDecimal_of_holds (negative : Bool) {m : Nat} {e : Int} (positive : 0 < m)
    (canonical : (finite false m e).Canonical) {d : Nat} {k : Int}
    (holds : Span.Holds m e (d * 10 ^ k)) : ofDecimal negative d k = finite negative m e := by
  obtain ⟨given, notLarge, notSmall⟩ := decimal_bounds positive canonical holds
  rw [ofDecimal, if_neg given.ne', if_neg notLarge.not_gt, if_neg notSmall.not_gt]
  split
  next nonneg =>
    obtain ⟨n, rfl⟩ := Int.eq_ofNat_of_zero_le nonneg
    refine ofRatio_of_holds negative (by decide) (Nat.mul_pos given (Nat.pow_pos (by decide)))
      canonical ?_
    simpa using holds
  next below =>
    obtain ⟨n, rfl⟩ : ∃ n : Nat, k = -(n : Int) := ⟨(-k).toNat, by omega⟩
    refine ofRatio_of_holds negative (Nat.pow_pos (by decide)) given canonical ?_
    simpa [div_eq_mul_inv] using holds

/-- The shortest decimal of a number reads back as it. -/
theorem holds_shortest {m : Nat} {e : Int} (positive : 0 < m)
    (canonical : (finite false m e).Canonical) :
    Span.Holds m e ((shortest m e).digits * 10 ^ (shortest m e).exponent) :=
  (Span.admits_ofBinary_iff positive e _ _).mp (admits_shortest positive canonical)

end Deployments.Decimal
