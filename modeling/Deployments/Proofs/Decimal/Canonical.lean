import Mathlib.Algebra.Order.Field.Power
import Mathlib.Algebra.Order.Field.Rat
import Mathlib.Tactic.Linarith
import Mathlib.Tactic.Positivity
import Mathlib.Tactic.FieldSimp
import Mathlib.Tactic.NormNum
import Deployments.Decimal.Numeral

/-!
Rounding gives canonical numbers: the exponent at which a ratio is rounded leaves it a mantissa of
53 bits, unless it is the least exponent.
-/

namespace Deployments.Decimal.Binary64

theorem divideToEven_le {num den k : Nat} (bound : num < k * den) : divideToEven num den ≤ k := by
  have quotient : num / den < k := Nat.div_lt_of_lt_mul (Nat.mul_comm k den ▸ bound)
  unfold divideToEven
  dsimp only
  split
  · omega
  · split
    · omega
    · split <;> omega

theorem le_divideToEven {num den k : Nat} (positive : 0 < den) (bound : k * den ≤ num) :
    k ≤ divideToEven num den := by
  have quotient : k ≤ num / den := (Nat.le_div_iff_mul_le positive).mpr bound
  unfold divideToEven
  dsimp only
  split
  · omega
  · split
    · omega
    · split <;> omega

/-- The ratio scaled to an exponent, as numerator and denominator. -/
def scaled (num den : Nat) (e : Int) : Nat × Nat :=
  if 0 ≤ e then (num, den * 2 ^ e.toNat) else (num * 2 ^ (-e).toNat, den)

theorem scaled_pos {num den : Nat} (positive : 0 < den) (e : Int) : 0 < (scaled num den e).2 := by
  unfold scaled
  split
  · positivity
  · exact positive

theorem lt_scaled_iff (num : Nat) {den : Nat} (positive : 0 < den) (e : Int) (k : Nat) :
    (scaled num den e).1 < 2 ^ k * (scaled num den e).2 ↔ (num : ℚ) / den < 2 ^ (k + e) := by
  have den_pos : (0 : ℚ) < den := by exact_mod_cast positive
  rw [div_lt_iff₀ den_pos, zpow_add₀ (by norm_num), zpow_natCast]
  unfold scaled
  split
  next nonneg =>
    obtain ⟨n, rfl⟩ := Int.eq_ofNat_of_zero_le nonneg
    rw [← Nat.cast_lt (α := ℚ)]
    simp only [Int.toNat_natCast, zpow_natCast]
    push_cast
    constructor <;> intro bound <;> linarith
  next negative =>
    obtain ⟨n, rfl⟩ : ∃ n : Nat, e = -(n : Int) := ⟨(-e).toNat, by omega⟩
    rw [← Nat.cast_lt (α := ℚ)]
    simp only [neg_neg, Int.toNat_natCast, zpow_neg, zpow_natCast]
    push_cast
    rw [← div_eq_mul_inv, div_mul_eq_mul_div, lt_div_iff₀ (by positivity)]

theorem le_scaled_iff (num : Nat) {den : Nat} (positive : 0 < den) (e : Int) (k : Nat) :
    2 ^ k * (scaled num den e).2 ≤ (scaled num den e).1 ↔ (2 : ℚ) ^ (k + e) ≤ num / den := by
  rw [← not_lt, ← not_lt, lt_scaled_iff num positive]

theorem lt_log2 (num : Nat) {den : Nat} (positive : 0 < den) :
    (num : ℚ) / den < 2 ^ ((num.log2 : Int) - den.log2 + 1) := by
  have den_pos : (0 : ℚ) < den := by exact_mod_cast positive
  have above : (num : ℚ) < 2 ^ (num.log2 + 1) := by exact_mod_cast Nat.lt_log2_self
  have below : (2 : ℚ) ^ den.log2 ≤ den := by exact_mod_cast Nat.log2_self_le positive.ne'
  rw [div_lt_iff₀ den_pos]
  calc (num : ℚ) < 2 ^ (num.log2 + 1) := above
    _ = 2 ^ ((num.log2 : Int) - den.log2 + 1) * 2 ^ den.log2 := by
      rw [← zpow_natCast, ← zpow_natCast, ← zpow_add₀ (by norm_num)]
      congr 1
      omega
    _ ≤ 2 ^ ((num.log2 : Int) - den.log2 + 1) * den := by gcongr

theorem log2_lt {num den : Nat} (given : 0 < num) (positive : 0 < den) :
    (2 : ℚ) ^ ((num.log2 : Int) - den.log2 - 1) < num / den := by
  have den_pos : (0 : ℚ) < den := by exact_mod_cast positive
  have below : (2 : ℚ) ^ num.log2 ≤ num := by exact_mod_cast Nat.log2_self_le given.ne'
  have above : (den : ℚ) < 2 ^ (den.log2 + 1) := by exact_mod_cast Nat.lt_log2_self
  rw [lt_div_iff₀ den_pos]
  calc (2 : ℚ) ^ ((num.log2 : Int) - den.log2 - 1) * den
      < 2 ^ ((num.log2 : Int) - den.log2 - 1) * 2 ^ (den.log2 + 1) := by gcongr
    _ = 2 ^ num.log2 := by
      rw [← zpow_natCast, ← zpow_natCast, ← zpow_add₀ (by norm_num)]
      congr 1
      omega
    _ ≤ num := below

theorem minExponent_le_exponentOf (num den : Nat) : minExponent ≤ exponentOf num den := by
  unfold exponentOf
  exact Int.le_max_right _ _

/-- A ratio has 53 bits in front of the point at its exponent, or less at the least exponent. -/
theorem exponentOf_bounds {num den : Nat} (given : 0 < num) (positive : 0 < den) :
    (num : ℚ) / den < 2 ^ (53 + exponentOf num den) ∧
      (minExponent < exponentOf num den → (2 : ℚ) ^ (52 + exponentOf num den) ≤ num / den) := by
  have above := lt_log2 num positive
  have below := log2_lt given positive
  let e : Int := (num.log2 : Int) - den.log2 - 52
  let reaches : Bool :=
    if 0 ≤ e then decide (Nat.pow 2 52 * den * Nat.pow 2 e.toNat ≤ num)
    else decide (Nat.pow 2 52 * den ≤ num * Nat.pow 2 (-e).toNat)
  have reaches_iff : reaches = true ↔ (2 : ℚ) ^ (52 + e) ≤ num / den := by
    have bound := le_scaled_iff num positive e 52
    rw [Nat.cast_ofNat] at bound
    rw [← bound]
    simp only [reaches, scaled]
    split <;> simp [Nat.pow_eq, Nat.mul_assoc]
  have same : exponentOf num den = max (if reaches then e else e - 1) minExponent := rfl
  rw [same]
  have widen : ∀ a b : Int, a ≤ b → (2 : ℚ) ^ a ≤ 2 ^ b :=
    fun a b bound => zpow_le_zpow_right₀ (by norm_num) bound
  cases reached : reaches with
  | true =>
    have least := reaches_iff.mp reached
    simp only [if_true]
    constructor
    · exact above.trans_le (widen _ _ (by omega))
    · intro greater
      rwa [max_eq_left (by omega)]
  | false =>
    have less : (num : ℚ) / den < 2 ^ (52 + e) := by
      rw [← not_le, ← reaches_iff, reached]
      exact Bool.false_ne_true
    simp only [Bool.false_eq_true, if_false]
    constructor
    · exact less.trans_le (widen _ _ (by omega))
    · intro greater
      rw [max_eq_left (by omega)]
      exact (widen _ _ (by omega)).trans below.le

theorem canonical_zero (negative : Bool) : (zero negative).Canonical :=
  ⟨by decide, by decide, by decide, fun _ => rfl⟩

theorem ofRatio_eq (negative : Bool) {num den : Nat} (given : 0 < num) :
    ofRatio negative num den =
      let e := exponentOf num den
      let m := divideToEven (scaled num den e).1 (scaled num den e).2
      let carried : Nat × Int := if m = 2 ^ 53 then (2 ^ 52, e + 1) else (m, e)
      if maxExponent < carried.2 then infinity negative
      else finite negative carried.1 carried.2 := by
  have ratio (e : Int) : (if 0 ≤ e then divideToEven num (den * Nat.pow 2 e.toNat)
      else divideToEven (num * Nat.pow 2 (-e).toNat) den) =
        divideToEven (scaled num den e).1 (scaled num den e).2 := by
    unfold scaled
    split <;> rfl
  rw [ofRatio, if_neg given.ne']
  dsimp only
  rw [ratio]
  rfl

/-- A rounded ratio is canonical. -/
theorem canonical_ofRatio (negative : Bool) (num : Nat) {den : Nat} (positive : 0 < den) :
    (ofRatio negative num den).Canonical := by
  rcases Nat.eq_zero_or_pos num with rfl | given
  · exact canonical_zero negative
  · have bounds := exponentOf_bounds given positive
    have least := minExponent_le_exponentOf num den
    rw [ofRatio_eq negative given]
    generalize exponentOf num den = e at bounds least
    dsimp only
    have upper : divideToEven (scaled num den e).1 (scaled num den e).2 ≤ 2 ^ 53 := by
      refine divideToEven_le ((lt_scaled_iff num positive e 53).mpr ?_)
      exact_mod_cast bounds.1
    have lower : minExponent < e →
        2 ^ 52 ≤ divideToEven (scaled num den e).1 (scaled num den e).2 := by
      intro greater
      refine le_divideToEven (scaled_pos positive e) ((le_scaled_iff num positive e 52).mpr ?_)
      exact_mod_cast bounds.2 greater
    generalize divideToEven (scaled num den e).1 (scaled num den e).2 = m at upper lower
    by_cases full : m = 2 ^ 53
    · rw [if_pos full]
      dsimp only
      split
      next => trivial
      next within =>
        refine ⟨by decide, by omega, by omega, fun less => ?_⟩
        exact absurd less (Nat.lt_irrefl _)
    · rw [if_neg full]
      dsimp only
      split
      next => trivial
      next within =>
        refine ⟨Nat.lt_of_le_of_ne upper full, least, by omega, fun less => ?_⟩
        by_contra other
        exact absurd (lower (by omega)) (Nat.not_le.mpr less)

theorem canonical_ofInt (n : Int) : (ofInt n).Canonical := canonical_ofRatio _ _ (by decide)

theorem canonical_ofScaled (negative : Bool) (m : Nat) (e : Int) :
    (ofScaled negative m e).Canonical := by
  unfold ofScaled
  split
  · exact canonical_ofRatio _ _ (by decide)
  · exact canonical_ofRatio _ _ (Nat.pow_pos (by decide))

theorem canonical_ofDecimal (negative : Bool) (digits : Nat) (exponent : Int) :
    (ofDecimal negative digits exponent).Canonical := by
  unfold ofDecimal
  split
  · exact canonical_zero negative
  · split
    · trivial
    · split
      · exact canonical_zero negative
      · split
        · exact canonical_ofRatio _ _ (by decide)
        · exact canonical_ofRatio _ _ (Nat.pow_pos (by decide))

theorem Canonical.negate {x : Binary64} (canonical : x.Canonical) : x.negate.Canonical := by
  cases x with
  | nan | infinity => trivial
  | finite => exact canonical

theorem canonical_total (negative : Bool) (total low : Int) :
    (if total = 0 then zero negative
      else ofScaled (decide (total < 0)) total.natAbs low).Canonical := by
  split
  · exact canonical_zero _
  · exact canonical_ofScaled _ _ _

theorem canonical_add (x y : Binary64) : (add x y).Canonical := by
  unfold add
  split
  · exact canonical_total _ _ _
  · split <;> trivial
  · trivial
  · trivial
  · trivial

end Deployments.Decimal.Binary64

namespace Deployments.Decimal

theorem canonical_number? {cs : List Char} {x : Binary64} (read : number? cs = some x) :
    x.Canonical := by
  unfold number? at read
  dsimp only at read
  split at read
  next =>
    cases read
    trivial
  next =>
    split at read
    next =>
      cases read
      trivial
    next =>
      obtain ⟨⟨digits, e⟩, _, rfl⟩ := Option.map_eq_some_iff.mp read
      exact Binary64.canonical_ofDecimal _ _ _

end Deployments.Decimal
