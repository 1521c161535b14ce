import Mathlib.Data.Nat.Digits.Defs
import Deployments.Decimal.Notation
import Deployments.Proofs.Decimal.Shortest
import Deployments.Proofs.Json.Grammar

/-!
Number text is in the grammar of JSON texts: that of all integers, and that of all finite numbers.
-/

namespace Deployments

open Decimal Json.Grammar

namespace Decimal

/-- Digits of which the first one is not zero. -/
def IsSignificant (digits : List Char) : Prop :=
  ∃ c rest, digits = c :: rest ∧ c ≠ '0' ∧ digits.all Char.isDigit = true

theorem all_isDigit_natural (n : Nat) : (natural n).all Char.isDigit = true :=
  List.all_eq_true.mpr fun _ member => Nat.isDigit_of_mem_toDigits (by decide) (by decide) member

theorem natural_ne_nil (n : Nat) : natural n ≠ [] := Nat.toDigits_ne_nil

theorem isSignificant_natural {n : Nat} (positive : 0 < n) : IsSignificant (natural n) := by
  have leading : ∃ c rest, natural n = c :: rest ∧ c ≠ '0' := by
    induction n using Nat.strongRecOn with
    | ind n ih =>
      rw [natural, Nat.toDigits_eq_if (by decide)]
      split
      next digit =>
        refine ⟨n.digitChar, [], rfl, ?_⟩
        have cases : n = 1 ∨ n = 2 ∨ n = 3 ∨ n = 4 ∨ n = 5 ∨ n = 6 ∨ n = 7 ∨ n = 8 ∨ n = 9 := by
          omega
        rcases cases with rfl | rfl | rfl | rfl | rfl | rfl | rfl | rfl | rfl <;> decide
      next =>
        obtain ⟨c, rest, same, notZero⟩ := ih (n / 10) (by omega) (by omega)
        exact ⟨c, rest ++ [(n % 10).digitChar], by rw [← natural, same]; rfl, notZero⟩
  obtain ⟨c, rest, same, notZero⟩ := leading
  exact ⟨c, rest, same, notZero, all_isDigit_natural n⟩

/-- Zeros at the end are left out. -/
theorem IsSignificant.trimmed {digits : List Char} (significant : IsSignificant digits) :
    IsSignificant (digits.reverse.dropWhile (· == '0')).reverse := by
  obtain ⟨c, rest, rfl, notZero, all⟩ := significant
  have kept : ((c :: rest).reverse.dropWhile (· == '0')).reverse =
      c :: (rest.reverse.dropWhile (· == '0')).reverse := by
    rw [List.reverse_cons, List.dropWhile_append]
    split
    next empty => simp [List.isEmpty_iff.mp empty, notZero]
    next => simp
  rw [kept]
  rw [List.all_cons, Bool.and_eq_true] at all
  refine ⟨c, _, rfl, notZero, ?_⟩
  rw [List.all_cons, all.1, List.all_reverse]
  refine List.all_eq_true.mpr fun d member => List.all_eq_true.mp all.2 d ?_
  exact List.mem_reverse.mp ((List.dropWhile_suffix _).subset member)

theorem IsSignificant.isWhole {digits : List Char} (significant : IsSignificant digits) :
    IsWhole digits := by
  obtain ⟨c, rest, rfl, notZero, all⟩ := significant
  exact .inr ⟨c, rest, rfl, notZero, List.cons_ne_nil c rest, all⟩

theorem isWhole_natural (n : Nat) : IsWhole (natural n) := by
  rcases Nat.eq_zero_or_pos n with rfl | positive
  · exact .inl rfl
  · exact (isSignificant_natural positive).isWhole

theorem isNumber_integer (n : Int) : IsNumber (integer n) := by
  have isUnsigned : IsUnsigned (natural n.natAbs) :=
    ⟨_, [], [], by simp, isWhole_natural n.natAbs, .inl rfl, .inl rfl⟩
  have signed := isUnsigned.isNumber (decide (n < 0))
  simpa only [integer, decide_eq_true_eq] using signed

namespace NumberFormat

theorem isUnsigned_positional {digits : List Char} (significant : IsSignificant digits)
    (point : Int) : IsUnsigned (positional digits point) := by
  obtain ⟨c, rest, same, notZero, all⟩ := significant
  have given : digits ≠ [] := by
    rw [same]
    exact List.cons_ne_nil c rest
  unfold positional
  split
  next =>
    refine ⟨['0'], '.' :: (List.replicate (-point).toNat '0' ++ digits), [], by simp,
      .inl rfl, .inr ⟨_, rfl, ?_, ?_⟩, .inl rfl⟩
    · simp [given]
    · simp [all, List.all_replicate]
  next inside =>
    split
    next =>
      refine ⟨digits ++ List.replicate (point.toNat - digits.length) '0', ['.', '0'], [],
        by simp, ?_, .inr ⟨['0'], rfl, by decide, by decide⟩, .inl rfl⟩
      refine IsSignificant.isWhole ⟨c, rest ++ _, by rw [same]; rfl, notZero, ?_⟩
      simp [all, List.all_replicate]
    next short =>
      have first : digits.take point.toNat = c :: rest.take (point.toNat - 1) := by
        rw [same, List.take_cons (by omega)]
      have left : (digits.take point.toNat).all Char.isDigit = true :=
        List.all_eq_true.mpr fun d member =>
          List.all_eq_true.mp all d (List.mem_of_mem_take member)
      have right : (digits.drop point.toNat).all Char.isDigit = true :=
        List.all_eq_true.mpr fun d member =>
          List.all_eq_true.mp all d (List.mem_of_mem_drop member)
      refine ⟨digits.take point.toNat, '.' :: digits.drop point.toNat, [], by simp,
        IsSignificant.isWhole ⟨c, _, first, notZero, left⟩, .inr ⟨_, rfl, ?_, right⟩, .inl rfl⟩
      intro empty
      rw [List.drop_eq_nil_iff] at empty
      omega

theorem isUnsigned_exponential (format : NumberFormat) {digits : List Char}
    (significant : IsSignificant digits) (exponent : Int) :
    IsUnsigned (format.exponential digits exponent) := by
  let power := List.replicate (format.exponentDigits - (natural exponent.natAbs).length) '0' ++
    natural exponent.natAbs
  have digitsOfPower : IsDigits power := by
    refine ⟨?_, ?_⟩
    · simp [power, natural_ne_nil]
    · simp [power, all_isDigit_natural, List.all_replicate]
  let sign : List Char := [if exponent < 0 then '-' else '+']
  have signed : sign ∈ [[], ['+'], ['-']] := by
    simp only [sign]
    split <;> simp
  have tail : IsExponent ('e' :: (sign ++ power)) :=
    .inr ⟨'e', sign, power, rfl, by simp, signed, digitsOfPower⟩
  obtain ⟨c, rest, rfl, notZero, all⟩ := significant
  rw [List.all_cons, Bool.and_eq_true] at all
  have whole : IsWhole [c] := .inr ⟨c, [], rfl, notZero, by simp, by simp [all.1]⟩
  unfold exponential
  cases rest with
  | nil =>
    refine ⟨[c], [], 'e' :: (sign ++ power), ?_, whole, .inl rfl, tail⟩
    simp [sign, power]
  | cons d ds =>
    refine ⟨[c], '.' :: d :: ds, 'e' :: (sign ++ power), ?_, whole,
      .inr ⟨_, rfl, List.cons_ne_nil d ds, all.2⟩, tail⟩
    simp [sign, power]

theorem isUnsigned_scientific (format : NumberFormat) {s : Scientific} (positive : 0 < s.digits) :
    IsUnsigned (format.scientific s) := by
  have significant := (isSignificant_natural positive).trimmed
  unfold scientific
  dsimp only
  split
  · exact isUnsigned_positional significant _
  · exact isUnsigned_exponential format significant _

/-- The text of a finite number is that of a number, in every format. -/
theorem isNumber_write (format : NumberFormat) {x : Binary64} (canonical : x.Canonical)
    (finite : x.isFinite = true) : IsNumber (format.write x).toList := by
  cases x with
  | nan | infinity => cases finite
  | finite negative m e =>
    have magnitude : IsUnsigned (if m = 0 then ['0', '.', '0']
        else format.scientific (shortest m e)) := by
      split
      next =>
        exact ⟨['0'], ['.', '0'], [], rfl, .inl rfl, .inr ⟨['0'], rfl, by decide, by decide⟩,
          .inl rfl⟩
      next given =>
        exact format.isUnsigned_scientific
          (digits_pos_of_shortest (Nat.pos_of_ne_zero given) canonical)
    rw [write, String.toList_ofList]
    exact magnitude.isNumber negative

end NumberFormat

end Decimal

end Deployments
