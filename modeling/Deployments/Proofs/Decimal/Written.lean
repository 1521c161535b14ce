import Mathlib.Data.List.TakeWhile
import Deployments.Proofs.Decimal.Nearest
import Deployments.Proofs.Json.Numbers

/-!
Number text reads back: the text of a finite number, in any format, is read as that number.
-/

namespace Deployments.Decimal

open Json.Grammar

/-! ### Digits -/

theorem digitsValue_append (cs ds : List Char) :
    digitsValue (cs ++ ds) = digitsValue cs * 10 ^ ds.length + digitsValue ds := by
  induction ds using List.reverseRecOn with
  | nil => simp [digitsValue, ofDigits]
  | append_singleton ds d ih =>
    have last : ∀ cs : List Char,
        digitsValue (cs ++ [d]) = 10 * digitsValue cs + (d.toNat - 48) := by
      intro cs
      rw [digitsValue, List.map_append, List.map_singleton, ofDigits_append]
      rfl
    rw [← List.append_assoc, last, last, ih, List.length_append, List.length_singleton]
    ring

theorem digitsValue_zeros (n : Nat) : digitsValue (List.replicate n '0') = 0 := by
  induction n with
  | zero => rfl
  | succ n ih =>
    rw [List.replicate_succ', digitsValue_append, ih]
    rfl

theorem digitsValue_natural (n : Nat) : digitsValue (natural n) = n := by
  induction n using Nat.strongRecOn with
  | ind n ih =>
    have digit : ∀ d : Fin 10, digitsValue [Nat.digitChar d] = d := by decide
    rw [natural, Nat.toDigits_eq_if (by decide)]
    split
    next small => exact digit ⟨n, small⟩
    next large =>
      have last := digit ⟨n % 10, Nat.mod_lt n (by decide)⟩
      rw [digitsValue_append, ← natural, ih (n / 10) (by omega)]
      dsimp only at last
      rw [last, List.length_singleton]
      omega

/-- What is trimmed off is zeros. -/
theorem exists_trimmed (cs : List Char) :
    ∃ n, cs = (cs.reverse.dropWhile (· == '0')).reverse ++ List.replicate n '0' := by
  have parts := List.takeWhile_append_dropWhile (p := (· == '0')) (l := cs.reverse)
  refine ⟨(cs.reverse.takeWhile (· == '0')).length, ?_⟩
  have zeros : cs.reverse.takeWhile (· == '0') =
      List.replicate (cs.reverse.takeWhile (· == '0')).length '0' :=
    List.eq_replicate_of_mem fun c member => by simpa using List.mem_takeWhile_imp member
  rw [zeros] at parts
  have same := congrArg List.reverse parts
  rw [List.reverse_append, List.reverse_replicate, List.reverse_reverse] at same
  exact same.symm

/-! ### Unsigned decimals -/

/-- No digit stands at the beginning. -/
def NoDigitFirst (cs : List Char) : Prop := ∀ c ∈ cs.head?, c.isDigit = false

theorem takeWhile_digits {digits rest : List Char} (all : digits.all Char.isDigit = true)
    (ends : NoDigitFirst rest) : (digits ++ rest).takeWhile Char.isDigit = digits := by
  rw [List.takeWhile_append_of_pos (List.all_eq_true.mp all)]
  cases rest with
  | nil => simp
  | cons c rest => rw [List.takeWhile_cons_of_neg (by simp [ends c rfl]), List.append_nil]

theorem dropWhile_digits {digits rest : List Char} (all : digits.all Char.isDigit = true)
    (ends : NoDigitFirst rest) : (digits ++ rest).dropWhile Char.isDigit = rest := by
  rw [List.dropWhile_append_of_pos (List.all_eq_true.mp all)]
  cases rest with
  | nil => simp
  | cons c rest => rw [List.dropWhile_cons_of_neg (by simp [ends c rfl])]

theorem magnitude?_pointed {whole fraction tail : List Char} (given : whole ≠ [])
    (all : whole.all Char.isDigit = true) (all' : fraction.all Char.isDigit = true)
    (ends : NoDigitFirst tail) :
    magnitude? (whole ++ '.' :: (fraction ++ tail)) =
      (exponent? tail).map fun e : Int =>
        (digitsValue (whole ++ fraction), e - fraction.length) := by
  have point : NoDigitFirst ('.' :: (fraction ++ tail)) := by simp [NoDigitFirst]
  unfold magnitude?
  simp only [takeWhile_digits all point, dropWhile_digits all point, takeWhile_digits all' ends,
    dropWhile_digits all' ends]
  simp [given]

theorem magnitude?_pointless {whole tail : List Char} (given : whole ≠ [])
    (all : whole.all Char.isDigit = true) (ends : NoDigitFirst ('e' :: tail)) :
    magnitude? (whole ++ 'e' :: tail) =
      (exponent? ('e' :: tail)).map fun e => (digitsValue whole, e) := by
  unfold magnitude?
  simp only [takeWhile_digits all ends, dropWhile_digits all ends]
  simp [given]

theorem exponent?_letter {sign : Char} {power : List Char} (given : power ≠ [])
    (all : power.all Char.isDigit = true) (negative : Bool)
    (signed : sign = if negative then '-' else '+') :
    exponent? ('e' :: sign :: power) =
      some (if negative then -(digitsValue power : Int) else digitsValue power) := by
  have split : splitSign (sign :: power) = (negative, power) := by
    rw [signed]
    cases negative <;> rfl
  simp [exponent?, split, given, all]

/-- The unsigned decimal has a value. -/
def HasValue (cs : List Char) (v : ℚ) : Prop :=
  ∃ d k, magnitude? cs = some (d, k) ∧ (d : ℚ) * 10 ^ k = v

namespace NumberFormat

theorem hasValue_pointed {whole fraction : List Char} (given : whole ≠ [])
    (all : whole.all Char.isDigit = true) (all' : fraction.all Char.isDigit = true) :
    HasValue (whole ++ '.' :: fraction)
      (digitsValue (whole ++ fraction) * 10 ^ (-(fraction.length : Int))) := by
  have ends : NoDigitFirst [] := nofun
  have parts := magnitude?_pointed given all all' ends
  rw [List.append_nil] at parts
  exact ⟨_, _, parts, by rw [Int.zero_sub]⟩

theorem hasValue_positional {digits : List Char} (given : digits ≠ [])
    (all : digits.all Char.isDigit = true) (point : Int) :
    HasValue (positional digits point) (digitsValue digits * 10 ^ (point - digits.length)) := by
  unfold positional
  split
  next front =>
    let fraction := List.replicate (-point).toNat '0' ++ digits
    have all' : fraction.all Char.isDigit = true := by simp [fraction, all, List.all_replicate]
    have value : digitsValue (['0'] ++ fraction) = digitsValue digits := by
      rw [digitsValue_append, digitsValue_append, digitsValue_zeros, Nat.zero_mul, Nat.zero_add]
      simp [digitsValue, ofDigits]
    have place : -(fraction.length : Int) = point - digits.length := by
      simp only [fraction, List.length_append, List.length_replicate]
      omega
    rw [← value, ← place]
    exact hasValue_pointed (List.cons_ne_nil '0' []) (by decide) all'
  next inside =>
    split
    next long =>
      let whole := digits ++ List.replicate (point.toNat - digits.length) '0'
      have all' : whole.all Char.isDigit = true := by simp [whole, all, List.all_replicate]
      have zero : ['0'].all Char.isDigit = true := by decide
      have value : digitsValue (whole ++ ['0']) =
          digitsValue digits * 10 ^ (point.toNat - digits.length + 1) := by
        rw [digitsValue_append, digitsValue_append, digitsValue_zeros]
        simp [digitsValue, ofDigits, pow_succ]
        ring
      have scaled : (digitsValue (whole ++ ['0']) : ℚ) * 10 ^ (-(['0'].length : Int)) =
          digitsValue digits * 10 ^ (point - digits.length) := by
        rw [value]
        push_cast
        rw [mul_assoc, ← zpow_natCast, ← zpow_add₀ (by norm_num)]
        congr 2
        simp
        omega
      rw [← scaled]
      exact hasValue_pointed (by simp [given]) all' zero
    next short =>
      have left : (digits.take point.toNat).all Char.isDigit = true :=
        List.all_eq_true.mpr fun d member =>
          List.all_eq_true.mp all d (List.mem_of_mem_take member)
      have right : (digits.drop point.toNat).all Char.isDigit = true :=
        List.all_eq_true.mpr fun d member =>
          List.all_eq_true.mp all d (List.mem_of_mem_drop member)
      have some_ : digits.take point.toNat ≠ [] := by
        rw [ne_eq, List.take_eq_nil_iff, not_or]
        exact ⟨by omega, given⟩
      have place : -((digits.drop point.toNat).length : Int) = point - digits.length := by
        rw [List.length_drop]
        omega
      have value := hasValue_pointed some_ left right
      rwa [List.take_append_drop, place] at value

theorem hasValue_exponential (format : NumberFormat) {digits : List Char} (given : digits ≠ [])
    (all : digits.all Char.isDigit = true) (exponent : Int) :
    HasValue (format.exponential digits exponent)
      (digitsValue digits * 10 ^ (exponent + 1 - digits.length)) := by
  let zeros := List.replicate (format.exponentDigits - (natural exponent.natAbs).length) '0'
  let power := zeros ++ natural exponent.natAbs
  let sign : Char := if exponent < 0 then '-' else '+'
  have some_ : power ≠ [] := by simp [power, natural_ne_nil]
  have digitsOfPower : power.all Char.isDigit = true := by
    simp [power, zeros, all_isDigit_natural, List.all_replicate]
  have value : digitsValue power = exponent.natAbs := by
    rw [digitsValue_append, digitsValue_zeros, digitsValue_natural]
    omega
  have ends : NoDigitFirst ('e' :: sign :: power) := by simp [NoDigitFirst]
  have behind : exponent? ('e' :: sign :: power) = some exponent := by
    rw [exponent?_letter some_ digitsOfPower (decide (exponent < 0)) (by simp [sign]), value]
    simp only [decide_eq_true_eq, Option.some.injEq]
    split <;> omega
  unfold exponential
  cases digits with
  | nil => exact (given rfl).elim
  | cons d ds =>
    cases ds with
    | nil =>
      have parts := magnitude?_pointless given all ends
      rw [behind] at parts
      refine ⟨_, _, by simpa [sign, power, zeros] using parts, ?_⟩
      simp
    | cons c cs =>
      rw [List.all_cons, Bool.and_eq_true] at all
      have parts := magnitude?_pointed (List.cons_ne_nil d []) (by simp [all.1]) all.2 ends
      rw [behind] at parts
      refine ⟨_, _, by simpa [sign, power, zeros] using parts, ?_⟩
      simp

theorem hasValue_scientific (format : NumberFormat) {s : Scientific} (positive : 0 < s.digits) :
    HasValue (format.scientific s) (s.digits * 10 ^ s.exponent) := by
  obtain ⟨n, same⟩ := exists_trimmed (natural s.digits)
  obtain ⟨c, rest, first, _, all⟩ := (isSignificant_natural positive).trimmed
  have value := digitsValue_natural s.digits
  have length := congrArg List.length same
  unfold scientific
  dsimp only
  generalize ((natural s.digits).reverse.dropWhile (· == '0')).reverse = digits at *
  have given : digits ≠ [] := first ▸ List.cons_ne_nil c rest
  rw [same, digitsValue_append, digitsValue_zeros, List.length_replicate, Nat.add_zero] at value
  rw [List.length_append, List.length_replicate] at length
  have scaled : ∀ p : Int, p = s.exponent + n →
      (digitsValue digits : ℚ) * 10 ^ p = s.digits * 10 ^ s.exponent := by
    rintro p rfl
    rw [← value, zpow_add₀ (by norm_num), zpow_natCast]
    push_cast
    ring
  split
  · have place : s.exponent + (natural s.digits).length - digits.length = s.exponent + n := by omega
    rw [← scaled _ place]
    exact hasValue_positional given all _
  · have place : s.exponent + (natural s.digits).length - 1 + 1 - digits.length =
        s.exponent + n := by omega
    rw [← scaled _ place]
    exact hasValue_exponential format given all _

end NumberFormat

theorem splitSign_of_isDigit {c : Char} (digit : c.isDigit = true) (rest : List Char) :
    splitSign (c :: rest) = (false, c :: rest) := by
  unfold splitSign
  split
  next same => exact absurd (List.cons.inj same).1 (ne_of_isDigit digit (by decide))
  next same => exact absurd (List.cons.inj same).1 (ne_of_isDigit digit (by decide))
  next => rfl

/-- What begins with a digit is none of the words for special numbers, and has no sign. -/
theorem number?_signed {c : Char} {rest : List Char} (digit : c.isDigit = true) (negative : Bool) :
    number? (if negative then '-' :: c :: rest else c :: rest) =
      (magnitude? (c :: rest)).map fun value => Binary64.ofDecimal negative value.1 value.2 := by
  have split : splitSign (if negative then '-' :: c :: rest else c :: rest) =
      (negative, c :: rest) := by
    cases negative with
    | true => rfl
    | false => exact splitSign_of_isDigit digit rest
  have lower : c.toLower = c := by
    have small : c.toNat ≤ 57 := by
      simp only [Char.isDigit, Bool.and_eq_true, decide_eq_true_eq] at digit
      exact digit.2
    refine dif_neg fun upper => ?_
    have large : 65 ≤ c.toNat := upper.1
    omega
  have noWord : ∀ {word : String} {d : Char} {ds : List Char}, word.toList = d :: ds →
      d.isDigit = false → (String.ofList ((c :: rest).map Char.toLower) == word) = false := by
    intro word d ds letters other
    refine beq_eq_false_iff_ne.mpr fun same => ?_
    have all := congrArg String.toList same
    rw [String.toList_ofList, List.map_cons, lower, letters] at all
    exact ne_of_isDigit digit other (List.cons.inj all).1
  unfold number?
  have inf := noWord (rfl : "inf".toList = _) rfl
  have infinity := noWord (rfl : "infinity".toList = _) rfl
  have nan := noWord (rfl : "nan".toList = _) rfl
  simp only [split, inf, infinity, nan]
  rfl

/-- The text of a finite number, in any format, is read as that number. -/
theorem NumberFormat.number?_write (format : NumberFormat) {x : Binary64}
    (canonical : x.Canonical) (finite : x.isFinite = true) :
    number? (format.write x).toList = some x := by
  cases x with
  | nan | infinity => cases finite
  | finite negative m e =>
    rw [write, String.toList_ofList]
    rcases Nat.eq_zero_or_pos m with rfl | positive
    · obtain rfl : e = Binary64.minExponent := canonical.2.2.2 (by decide)
      rw [if_pos rfl]
      cases negative <;> decide
    · have digits := digits_pos_of_shortest positive canonical
      obtain ⟨d, k, read, value⟩ := format.hasValue_scientific digits
      obtain ⟨c, rest, first, digit⟩ := (format.isUnsigned_scientific digits).exists_digit
      have holds := holds_shortest positive canonical
      rw [← value] at holds
      rw [if_neg positive.ne', first, number?_signed digit, ← first, read, Option.map_some,
        ofDecimal_of_holds negative positive canonical holds]

end Deployments.Decimal
