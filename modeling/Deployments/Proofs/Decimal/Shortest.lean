import Mathlib.Tactic.Ring
import Deployments.Decimal.Shortest
import Deployments.Proofs.Decimal.Canonical

/-!
The shortest decimal of a positive number is in its span: the decimals of seventeen digits are finer
than that. So it is no zero.
-/

namespace Deployments.Decimal

namespace Span

theorem low_pos {m : Nat} (positive : 0 < m) (e : Int) : 0 < (ofBinary m e).low := by
  simp only [ofBinary]
  split <;> exact Nat.mul_pos (by omega) (Nat.pow_pos (by decide))

theorem pos_of_admits {s : Span} (low : 0 < s.low) {d : Nat} {k : Int}
    (admitted : s.admits d k = true) : 0 < d := by
  have scale : 0 < s.low * Nat.pow 10 (-k).toNat := Nat.mul_pos low (Nat.pow_pos (by decide))
  refine Nat.pos_of_ne_zero fun zero => ?_
  subst zero
  simp only [admits, Nat.zero_mul] at admitted
  split at admitted
  · simp only [Bool.and_eq_true, decide_eq_true_eq] at admitted
    omega
  · simp only [Bool.and_eq_true, decide_eq_true_eq] at admitted
    omega

theorem admits_of_nearest? {s : Span} {k : Int} {d : Nat} (found : s.nearest? k = some d) :
    s.admits d k = true := by
  unfold nearest? at found
  dsimp only at found
  split at found
  next admitted _ =>
    cases found
    exact admitted
  next admitted =>
    cases found
    exact admitted
  next => cases found
  next left right =>
    split at found
    · cases found
      exact left
    · split at found
      · cases found
        exact right
      · split at found
        · cases found
          exact left
        · cases found
          exact right

/-- Powers of ten with a sign in the exponent, taken apart as in the tests on naturals. -/
theorem ten_pow_toNat (k : Int) : (10 : ℚ) ^ k.toNat = 10 ^ k * 10 ^ (-k).toNat := by
  rcases Int.le_total 0 k with nonneg | negative
  · obtain ⟨n, rfl⟩ := Int.eq_ofNat_of_zero_le nonneg
    simp
  · obtain ⟨n, rfl⟩ : ∃ n : Nat, k = -(n : Int) := ⟨(-k).toNat, by omega⟩
    simp

section Bounds

variable {s : Span} (den : 0 < s.den)

include den

/-- The tests of a decimal against a bound of the span, as inequalities of rationals. -/
theorem scaled_le_iff (a b : Nat) (k : Int) :
    a * 10 ^ (-k).toNat ≤ b * 10 ^ k.toNat * s.den ↔ (a : ℚ) / s.den ≤ b * 10 ^ k := by
  have den_pos : (0 : ℚ) < s.den := by exact_mod_cast den
  have scale : (0 : ℚ) < 10 ^ (-k).toNat := by positivity
  have right : (b : ℚ) * (10 ^ k * 10 ^ (-k).toNat) * s.den =
      b * 10 ^ k * s.den * 10 ^ (-k).toNat := by ring
  rw [div_le_iff₀ den_pos, ← Nat.cast_le (α := ℚ)]
  push_cast
  rw [ten_pow_toNat k, right, mul_le_mul_iff_left₀ scale]

theorem le_scaled_iff (a b : Nat) (k : Int) :
    b * 10 ^ k.toNat * s.den ≤ a * 10 ^ (-k).toNat ↔ (b : ℚ) * 10 ^ k ≤ a / s.den := by
  have den_pos : (0 : ℚ) < s.den := by exact_mod_cast den
  have scale : (0 : ℚ) < 10 ^ (-k).toNat := by positivity
  have left : (b : ℚ) * (10 ^ k * 10 ^ (-k).toNat) * s.den =
      b * 10 ^ k * s.den * 10 ^ (-k).toNat := by ring
  rw [le_div_iff₀ den_pos, ← Nat.cast_le (α := ℚ)]
  push_cast
  rw [ten_pow_toNat k, left, mul_le_mul_iff_left₀ scale]

theorem isBelow_iff (p : Int) : s.isBelow p = true ↔ (s.num : ℚ) / s.den < 10 ^ p := by
  have bound := le_scaled_iff den s.num 1 p
  rw [Nat.one_mul, Nat.cast_one, one_mul, Nat.mul_comm] at bound
  rw [isBelow, decide_eq_true_eq]
  exact (Nat.not_le.symm.trans (not_congr bound)).trans not_le

/-- The decimal below the number on a grid, and the next one. -/
theorem floorAt_bounds (k : Int) :
    (s.floorAt k : ℚ) * 10 ^ k ≤ s.num / s.den ∧
      (s.num : ℚ) / s.den < (s.floorAt k + 1 : Nat) * 10 ^ k := by
  have positive : 0 < s.den * 10 ^ k.toNat := Nat.mul_pos den (Nat.pow_pos (by decide))
  have below := Nat.mul_div_le (s.num * 10 ^ (-k).toNat) (s.den * 10 ^ k.toNat)
  have above := Nat.lt_mul_div_succ (s.num * 10 ^ (-k).toNat) positive
  have same : s.num * 10 ^ (-k).toNat / (s.den * 10 ^ k.toNat) = s.floorAt k := rfl
  rw [same] at below above
  rw [← le_scaled_iff den, ← not_le, ← le_scaled_iff den, Nat.not_le]
  exact ⟨by linarith, by linarith⟩

theorem admits_iff (d : Nat) (k : Int) :
    s.admits d k = true ↔
      if s.closed then (s.low : ℚ) / s.den ≤ d * 10 ^ k ∧ (d : ℚ) * 10 ^ k ≤ s.high / s.den
      else (s.low : ℚ) / s.den < d * 10 ^ k ∧ (d : ℚ) * 10 ^ k < s.high / s.den := by
  rw [← not_le (a := (s.high : ℚ) / _), ← not_le (b := (s.low : ℚ) / _), ← scaled_le_iff den,
    ← scaled_le_iff den, ← le_scaled_iff den, ← le_scaled_iff den, admits]
  dsimp only [Nat.pow_eq]
  split <;> simp

end Bounds

theorem den_pos (m : Nat) (e : Int) : 0 < (ofBinary m e).den := Nat.pow_pos (by decide)

/-- A bound of a span in quarters of the last binary place. -/
theorem quarters (a : Nat) (e : Int) :
    ((a * 2 ^ (e - 2).toNat : Nat) : ℚ) / (2 ^ (2 - e).toNat : Nat) = a / 4 * 2 ^ e := by
  rcases Int.le_total 2 e with large | small
  · obtain ⟨n, rfl⟩ : ∃ n : Nat, e = n + 2 := ⟨(e - 2).toNat, by omega⟩
    have up : ((n : Int) + 2 - 2).toNat = n := by omega
    have down : (2 - ((n : Int) + 2)).toNat = 0 := by omega
    rw [up, down, zpow_add₀ (by norm_num), zpow_natCast]
    push_cast
    ring
  · obtain ⟨n, rfl⟩ : ∃ n : Nat, e = 2 - (n : Int) := ⟨(2 - e).toNat, by omega⟩
    have up : (2 - (n : Int) - 2).toNat = 0 := by omega
    have down : (2 - (2 - (n : Int))).toNat = n := by omega
    rw [up, down, zpow_sub₀ (by norm_num), zpow_natCast]
    push_cast
    field_simp

theorem ofBinary_ratio (m : Nat) (e : Int) :
    ((ofBinary m e).num : ℚ) / (ofBinary m e).den = m * 2 ^ e := by
  have same := quarters (4 * m) e
  push_cast at same
  rw [mul_div_cancel_left₀ _ (by norm_num)] at same
  simpa [ofBinary] using same

/-- How far below a number decimals read back as it, in its last binary place. -/
def gap (m : Nat) (e : Int) : ℚ := if m = 2 ^ 52 ∧ Binary64.minExponent < e then 1 / 4 else 1 / 2

/-- A rational number is nearest to `m · 2 ^ e` among the numbers, or halfway to a neighbour whose
mantissa is odd. -/
def Holds (m : Nat) (e : Int) (v : ℚ) : Prop :=
  if m % 2 = 0 then (m - gap m e) * 2 ^ e ≤ v ∧ v ≤ (m + 1 / 2) * 2 ^ e
  else (m - gap m e) * 2 ^ e < v ∧ v < (m + 1 / 2) * 2 ^ e

theorem holds_of_between {m : Nat} {e : Int} {v : ℚ} (below : (m - gap m e) * 2 ^ e < v)
    (above : v < (m + 1 / 2) * 2 ^ e) : Holds m e v := by
  unfold Holds
  split
  · exact ⟨below.le, above.le⟩
  · exact ⟨below, above⟩

theorem gap_pos (m : Nat) (e : Int) : 0 < gap m e := by
  unfold gap
  split <;> norm_num

theorem ofBinary_low {m : Nat} (positive : 0 < m) (e : Int) :
    ((ofBinary m e).low : ℚ) / (ofBinary m e).den = (m - gap m e) * 2 ^ e := by
  have cases : ∀ below : Nat, below ≤ 2 →
      (((4 * m - below) * 2 ^ (e - 2).toNat : Nat) : ℚ) / (2 ^ (2 - e).toNat : Nat) =
        (m - below / 4) * 2 ^ e := by
    intro below small
    rw [quarters, Nat.cast_sub (by omega)]
    push_cast
    ring
  unfold ofBinary gap
  dsimp only [Nat.pow_eq]
  split
  next => exact_mod_cast cases 1 (by decide)
  next =>
    rw [cases 2 le_rfl]
    norm_num

theorem ofBinary_high (m : Nat) (e : Int) :
    ((ofBinary m e).high : ℚ) / (ofBinary m e).den = (m + 1 / 2) * 2 ^ e := by
  have same := quarters (4 * m + 2) e
  have value : ((4 * m + 2 : Nat) : ℚ) / 4 = m + 1 / 2 := by
    push_cast
    ring
  rw [value] at same
  exact same

/-- The decimals in a span are those that are nearest to its number. -/
theorem admits_ofBinary_iff {m : Nat} (positive : 0 < m) (e : Int) (d : Nat) (k : Int) :
    (ofBinary m e).admits d k = true ↔ Holds m e (d * 10 ^ k) := by
  have closed : (ofBinary m e).closed = true ↔ m % 2 = 0 := beq_iff_eq
  rw [admits_iff (den_pos m e), ofBinary_low positive, ofBinary_high, Holds]
  simp only [closed]

/-- On a grid that is finer than the span, one of the two neighbours of the number is in it. -/
theorem exists_admits {m : Nat} (positive : 0 < m) {e k : Int}
    (fine : (10 : ℚ) ^ k < (gap m e + 1 / 2) * 2 ^ e) :
    (ofBinary m e).admits ((ofBinary m e).floorAt k) k = true ∨
      (ofBinary m e).admits ((ofBinary m e).floorAt k + 1) k = true := by
  obtain ⟨below, above⟩ := floorAt_bounds (den_pos m e) k
  rw [ofBinary_ratio] at below above
  rw [admits_ofBinary_iff positive, admits_ofBinary_iff positive]
  generalize (ofBinary m e).floorAt k = d at below above
  have unit : (0 : ℚ) < 2 ^ e := by positivity
  push_cast at above ⊢
  by_cases inside : (m - gap m e) * 2 ^ e < (d : ℚ) * 10 ^ k
  · exact .inl (holds_of_between inside (by linarith))
  · refine .inr (holds_of_between ?_ ?_)
    · nlinarith [mul_pos (gap_pos m e) unit]
    · linarith

theorem admits_of_nearest?_none {s : Span} {k : Int} (missing : s.nearest? k = none) :
    s.admits (s.floorAt k) k = false ∧ s.admits (s.floorAt k + 1) k = false := by
  unfold nearest? at missing
  dsimp only at missing
  split at missing
  next => cases missing
  next => cases missing
  next left right => exact ⟨left, right⟩
  next => split_ifs at missing

end Span

theorem ten_pow_le {a l : Nat} (bound : 10 * a ≤ 3 * l) : 10 ^ a ≤ 2 ^ l := by
  rw [← Nat.pow_le_pow_iff_left (n := 3) (by decide)]
  calc (10 ^ a) ^ 3 = (10 ^ 3) ^ a := by rw [← Nat.pow_mul, ← Nat.pow_mul, Nat.mul_comm]
    _ ≤ (2 ^ 10) ^ a := Nat.pow_le_pow_left (by decide) a
    _ = 2 ^ (10 * a) := by rw [← Nat.pow_mul]
    _ ≤ 2 ^ (3 * l) := Nat.pow_le_pow_right (by decide) bound
    _ = (2 ^ l) ^ 3 := by rw [← Nat.pow_mul, Nat.mul_comm]

theorem two_pow_le {l b : Nat} (bound : 28 * l ≤ 93 * b) : 2 ^ l ≤ 10 ^ b := by
  rw [← Nat.pow_le_pow_iff_left (n := 28) (by decide)]
  calc (2 ^ l) ^ 28 = 2 ^ (28 * l) := by rw [← Nat.pow_mul, Nat.mul_comm]
    _ ≤ 2 ^ (93 * b) := Nat.pow_le_pow_right (by decide) bound
    _ = (2 ^ 93) ^ b := by rw [← Nat.pow_mul]
    _ ≤ (10 ^ 28) ^ b := Nat.pow_le_pow_left (by decide) b
    _ = (10 ^ b) ^ 28 := by rw [← Nat.pow_mul, ← Nat.pow_mul, Nat.mul_comm]

/-- The power of ten two places in front of the estimate of a magnitude is not above `2 ^ l`. -/
theorem ten_zpow_le {l : Int} (least : -1074 ≤ l) (greatest : l ≤ 1024) :
    (10 : ℚ) ^ (l * 30103 / 100000 - 2) ≤ 2 ^ l := by
  rcases Int.le_total 0 (l * 30103 / 100000 - 2) with nonneg | negative
  · obtain ⟨a, same⟩ := Int.eq_ofNat_of_zero_le nonneg
    obtain ⟨n, rfl⟩ : ∃ n : Nat, l = n := ⟨l.toNat, by omega⟩
    rw [same, zpow_natCast, zpow_natCast]
    exact_mod_cast ten_pow_le (by omega)
  · obtain ⟨b, same⟩ : ∃ b : Nat, l * 30103 / 100000 - 2 = -(b : Int) :=
      ⟨(-(l * 30103 / 100000 - 2)).toNat, by omega⟩
    rw [same, zpow_neg, zpow_natCast]
    rcases Int.le_total 0 l with above | below
    · have one : (1 : ℚ) ≤ 2 ^ l := one_le_zpow₀ (by norm_num) above
      exact (inv_le_one_of_one_le₀ (one_le_pow₀ (by norm_num))).trans one
    · obtain ⟨n, rfl⟩ : ∃ n : Nat, l = -(n : Int) := ⟨(-l).toNat, by omega⟩
      rw [zpow_neg, zpow_natCast]
      refine inv_anti₀ (by positivity) ?_
      exact_mod_cast two_pow_le (by omega)

/-- The estimate of a magnitude is not too large. -/
theorem ten_zpow_estimate_le {m : Nat} {e : Int} (positive : 0 < m)
    (canonical : (Binary64.finite false m e).Canonical) :
    (10 : ℚ) ^ (((m.log2 : Int) + e) * 30103 / 100000 - 2) ≤ m * 2 ^ e := by
  obtain ⟨bits, least, greatest, _⟩ := canonical
  have log : m.log2 < 53 := (Nat.log2_lt positive.ne').mpr bits
  have below : (2 : ℚ) ^ m.log2 ≤ m := by exact_mod_cast Nat.log2_self_le positive.ne'
  have lower : -1074 ≤ (m.log2 : Int) + e := by
    have : Binary64.minExponent = -1074 := rfl
    omega
  have upper : (m.log2 : Int) + e ≤ 1024 := by
    have : Binary64.maxExponent = 971 := rfl
    omega
  calc (10 : ℚ) ^ (((m.log2 : Int) + e) * 30103 / 100000 - 2)
      ≤ 2 ^ ((m.log2 : Int) + e) := ten_zpow_le lower upper
    _ = 2 ^ m.log2 * 2 ^ e := by rw [zpow_add₀ (by norm_num), zpow_natCast]
    _ ≤ m * 2 ^ e := by gcongr

/-- The magnitude is the least one: the power of ten in front of it is not above the number. -/
theorem Span.ten_zpow_magnitude_le {m : Nat} {e : Int} (positive : 0 < m)
    (canonical : (Binary64.finite false m e).Canonical) :
    (10 : ℚ) ^ ((ofBinary m e).magnitude m e - 1) ≤ m * 2 ^ e := by
  have estimate := ten_zpow_estimate_le positive canonical
  have not_below : ∀ p, (ofBinary m e).isBelow p = false → (10 : ℚ) ^ p ≤ m * 2 ^ e := by
    intro p other
    rw [← ofBinary_ratio, ← not_lt, ← isBelow_iff (den_pos m e), other]
    exact Bool.false_ne_true
  unfold magnitude
  dsimp only
  generalize ((m.log2 : Int) + e) * 30103 / 100000 = start at estimate
  simp only [List.find?_cons, List.find?_nil]
  have at_ : ∀ {p q : Int}, (10 : ℚ) ^ p ≤ m * 2 ^ e → q = p → (10 : ℚ) ^ q ≤ m * 2 ^ e :=
    fun bound same => same ▸ bound
  cases first : (ofBinary m e).isBelow (start - 1) with
  | true =>
    dsimp only
    exact at_ estimate (by omega)
  | false =>
    cases second : (ofBinary m e).isBelow (start - 1 + 1) with
    | true =>
      dsimp only
      exact at_ (not_below _ first) (by omega)
    | false =>
      cases third : (ofBinary m e).isBelow (start - 1 + 2) with
      | true =>
        dsimp only
        exact at_ (not_below _ second) (by omega)
      | false =>
        cases fourth : (ofBinary m e).isBelow (start - 1 + 3) with
        | true =>
          dsimp only
          exact at_ (not_below _ third) (by omega)
        | false =>
          dsimp only
          exact at_ (not_below _ fourth) (by omega)

/-- Seventeen digits are finer than the span of a number. -/
theorem Span.ten_zpow_lt_width {m : Nat} {e p : Int}
    (canonical : (Binary64.finite false m e).Canonical)
    (least : (10 : ℚ) ^ (p - 1) ≤ m * 2 ^ e) :
    (10 : ℚ) ^ (p - ((16 : Nat) + 1)) < (gap m e + 1 / 2) * 2 ^ e := by
  have bits : (m : ℚ) < 2 ^ 53 := by exact_mod_cast canonical.1
  have unit : (0 : ℚ) < 2 ^ e := by positivity
  have digits : (10 : ℚ) ^ (p - ((16 : Nat) + 1)) = 10 ^ (p - 1) / 10 ^ 16 := by
    rw [← zpow_natCast, ← zpow_sub₀ (by norm_num)]
    congr 1
    omega
  have narrow : (m : ℚ) / 10 ^ 16 < gap m e + 1 / 2 := by
    unfold gap
    split
    next power =>
      rw [power.1]
      norm_num
    next => linarith
  calc (10 : ℚ) ^ (p - ((16 : Nat) + 1)) = 10 ^ (p - 1) / 10 ^ 16 := digits
    _ ≤ m * 2 ^ e / 10 ^ 16 := by gcongr
    _ = m / 10 ^ 16 * 2 ^ e := by ring
    _ < (gap m e + 1 / 2) * 2 ^ e := by gcongr

/-- A decimal of seventeen digits reads back, so a shortest one does. -/
theorem admits_shortest {m : Nat} {e : Int} (positive : 0 < m)
    (canonical : (Binary64.finite false m e).Canonical) :
    (Span.ofBinary m e).admits (shortest m e).digits (shortest m e).exponent = true := by
  have least := Span.ten_zpow_magnitude_le positive canonical
  simp only [shortest]
  generalize (Span.ofBinary m e).magnitude m e = p at least
  cases found : (List.range 17).findSome? fun (n : Nat) =>
      ((Span.ofBinary m e).nearest? (p - ((n : Int) + 1))).map
        fun d => (⟨d, p - ((n : Int) + 1)⟩ : Scientific) with
  | some result =>
    obtain ⟨n, _, same⟩ := List.exists_of_findSome?_eq_some found
    obtain ⟨d, nearest, rfl⟩ := Option.map_eq_some_iff.mp same
    exact Span.admits_of_nearest? nearest
  | none =>
    have last := List.findSome?_eq_none_iff.mp found 16 (by decide)
    rw [Option.map_eq_none_iff] at last
    obtain ⟨first, second⟩ := Span.admits_of_nearest?_none last
    rcases Span.exists_admits positive (Span.ten_zpow_lt_width canonical least) with
      below | above
    · exact absurd (first.symm.trans below) Bool.false_ne_true
    · exact absurd (second.symm.trans above) Bool.false_ne_true

theorem digits_pos_of_shortest {m : Nat} {e : Int} (positive : 0 < m)
    (canonical : (Binary64.finite false m e).Canonical) : 0 < (shortest m e).digits :=
  Span.pos_of_admits (Span.low_pos positive e) (admits_shortest positive canonical)

end Deployments.Decimal
