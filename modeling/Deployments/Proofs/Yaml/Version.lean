import Mathlib.Data.List.SplitBy
import Deployments.Proofs.Decimal.Written
import Deployments.Proofs.Integers
import Deployments.Proofs.Yaml.Values
import Deployments.Record.Catalogue

/-!
Versions without quotation marks. Digits with points between them are taken for an integer, for a
number or for a text; what is taken for a number is kept only if it is how a number is written.
-/

namespace Deployments

open Decimal Reading Json.Grammar

namespace Decimal

theorem exists_ofNat_of_isDigit {c : Char} (digit : c.isDigit = true) :
    ∃ n : Fin 10, c = Char.ofNat (48 + n) := by
  simp only [Char.isDigit, Bool.and_eq_true, decide_eq_true_eq] at digit
  have lower : 48 ≤ c.toNat := digit.1
  have upper : c.toNat ≤ 57 := digit.2
  refine ⟨⟨c.toNat - 48, by omega⟩, ?_⟩
  rw [show 48 + (c.toNat - 48) = c.toNat by omega, Char.ofNat_toNat]

theorem natural_of_isDigit {c : Char} (digit : c.isDigit = true) :
    natural (digitsValue [c]) = [c] := by
  obtain ⟨n, rfl⟩ := exists_ofNat_of_isDigit digit
  revert n
  decide

/-- Digits without a needless zero in front are those of their value. -/
theorem natural_digitsValue {cs : List Char} (whole : IsWhole cs) :
    natural (digitsValue cs) = cs := by
  -- from the right: the last digit is the remainder by ten, those in front of it are the quotient
  induction cs using List.reverseRecOn with
  | nil => exact absurd rfl whole.isDigits.1
  | append_singleton front last ih =>
    have digit := whole.isDigits.of_mem (c := last) (by simp)
    cases front with
    | nil => exact natural_of_isDigit digit
    | cons c rest =>
      obtain short | ⟨_, _, same, other, _⟩ := id whole
      · simp at short
      obtain rfl := (List.cons.inj same).1
      have all : IsDigits (c :: rest) := by
        refine ⟨List.cons_ne_nil c rest, ?_⟩
        have both := whole.isDigits.2
        rw [List.all_append, Bool.and_eq_true] at both
        exact both.1
      have first := ih (.inr ⟨c, rest, rfl, other, all⟩)
      have second := natural_of_isDigit digit
      have small : digitsValue [last] < 10 := digitsValue_lt (by simp [digit])
      rw [digitsValue_append, List.length_singleton, Nat.pow_one]
      generalize digitsValue (c :: rest) = n at *
      generalize digitsValue [last] = d at *
      have positive : n ≠ 0 := by
        rintro rfl
        exact other (List.cons.inj first).1.symm
      rw [natural, Nat.toDigits_eq_if (by decide), if_pos small] at second
      rw [natural, Nat.toDigits_eq_if (by decide), if_neg (by omega),
        show (n * 10 + d) / 10 = n by omega, show (n * 10 + d) % 10 = d by omega, ← natural, first,
        second]

end Decimal

namespace Yaml

/-- Groups of digits with single points between them. -/
def dotted (groups : List (List Char)) : List Char := ['.'].intercalate groups

theorem dotted_cons_cons (first second : List Char) (rest : List (List Char)) :
    dotted (first :: second :: rest) = first ++ '.' :: dotted (second :: rest) := by
  simp [dotted, List.intercalate_cons_cons]

theorem dotted_singleton (group : List Char) : dotted [group] = group := by
  simp [dotted]

/-- Whether a version that is written with these groups stays as it is without quotation marks. One
group is an integer, which must have no needless zero in front and not too many digits, or a text,
if it has one in front and is not in base eight. Two groups are a number, and three are a text. -/
def Kept : List (List Char) → Prop
  | [digits] =>
    IsWhole digits ∧ digits.length ≤ maxDigits ∨
      ¬ IsWhole digits ∧ ('8' ∈ digits ∨ '9' ∈ digits)
  | [whole, fraction] =>
    ∃ x : Binary64, x.Canonical ∧
      NumberFormat.display.write x = String.ofList (dotted [whole, fraction])
  | _ => True

section Groups

variable {groups : List (List Char)}

theorem isDigit_or_of_mem (digits : ∀ group ∈ groups, IsDigits group) {c : Char}
    (member : c ∈ dotted groups) : c.isDigit = true ∨ c = '.' := by
  induction groups with
  | nil => cases member
  | cons first rest ih =>
    rw [List.forall_mem_cons] at digits
    cases rest with
    | nil =>
      rw [dotted_singleton] at member
      exact .inl (List.all_eq_true.mp digits.1.2 c member)
    | cons second rest =>
      rw [dotted_cons_cons] at member
      rcases List.mem_append.mp member with own | later
      · exact .inl (List.all_eq_true.mp digits.1.2 c own)
      · rcases List.mem_cons.mp later with point | later
        · exact .inr point
        · exact ih digits.2 later

theorem exists_digit (given : groups ≠ []) (digits : ∀ group ∈ groups, IsDigits group) :
    ∃ c rest, dotted groups = c :: rest ∧ c.isDigit = true := by
  obtain ⟨first, groups, rfl⟩ := List.exists_cons_of_ne_nil given
  obtain ⟨some_, all⟩ := digits first List.mem_cons_self
  obtain ⟨c, tail, rfl⟩ := List.exists_cons_of_ne_nil some_
  have digit := List.all_eq_true.mp all c List.mem_cons_self
  cases groups with
  | nil => exact ⟨c, tail, dotted_singleton _, digit⟩
  | cons second rest => exact ⟨c, _, dotted_cons_cons _ _ _, digit⟩

end Groups

/-! ### Types -/

namespace Tag

/-- The word begins with a digit. -/
def isNumeric (word : String) : Bool := word.toList.head?.any Char.isDigit

theorem not_contains_of_isDigit (words : List String) (other : words.any isNumeric = false)
    {c : Char} (digit : c.isDigit = true) (rest : List Char) :
    words.contains (String.ofList (c :: rest)) = false := by
  rw [Bool.eq_false_iff]
  intro member
  have numeric : isNumeric (String.ofList (c :: rest)) = true := by
    simp [isNumeric, digit]
  rw [List.any_eq_true.mpr ⟨_, List.contains_iff_mem.mp member, numeric⟩] at other
  cases other

theorem unsigned_of_isDigit {c : Char} (digit : c.isDigit = true) (rest : List Char) :
    unsigned (c :: rest) = c :: rest := by
  unfold unsigned
  split
  next same => exact absurd (List.cons.inj same).1 (ne_of_isDigit digit (by decide))
  next same => exact absurd (List.cons.inj same).1 (ne_of_isDigit digit (by decide))
  next => rfl

/-- There is no date without a dash. -/
theorem read?_eq_none {cs : List Char} (plain : '-' ∉ cs) :
    Calendar.Timestamp.read? cs = none := by
  unfold Calendar.Timestamp.read?
  cases years : Calendar.digitRun 4 4 cs with
  | none => rfl
  | some found =>
    obtain ⟨year, rest⟩ := found
    have inside : rest ⊆ cs := by
      unfold Calendar.digitRun at years
      dsimp only at years
      split at years
      next =>
        cases years
        exact List.drop_subset _ _
      next => cases years
    have stops : Calendar.after '-' rest = none := by
      unfold Calendar.after
      split
      next c _ =>
        refine if_neg ?_
        rintro rfl
        exact plain (inside List.mem_cons_self)
      next => rfl
    simp [stops]

/-- What begins with a digit and goes on with digits and points is a number or a text. -/
theorem ofPlain_of_isDigit {c : Char} {rest : List Char} (digit : c.isDigit = true)
    (all : ∀ d ∈ c :: rest, d.isDigit = true ∨ d = '.') :
    ofPlain (String.ofList (c :: rest)) =
      if isNumber (c :: rest) then .float else if isInteger (c :: rest) then .int else .str := by
  have other {d : Char} (neither : d.isDigit = false) (point : d ≠ '.') : d ∉ c :: rest := by
    intro member
    rcases all d member with digit | same
    · rw [neither] at digit
      cases digit
    · exact point same
  have truth := not_contains_of_isDigit truthWords rfl digit rest
  have null := not_contains_of_isDigit nullWords rfl digit rest
  have merge := not_contains_of_isDigit ["<<"] rfl digit rest
  have value := not_contains_of_isDigit ["="] rfl digit rest
  have sign := not_contains_of_isDigit ["!", "&", "*"] rfl digit rest
  have dates := read?_eq_none (other (d := '-') (by decide) (by decide))
  simp only [List.contains_cons, List.contains_nil, Bool.or_false] at merge value
  unfold ofPlain
  rw [Text.chars_ofString, String.toList_ofList]
  split
  next front same =>
    refine absurd ?_ (other (d := '\n') (by decide) (by decide))
    rw [← List.mem_reverse, same]
    exact List.mem_cons_self
  next =>
    simp only [truth, null, merge, value, sign, dates]
    rfl

section Shapes

variable {first tail : List Char}

theorem takeWhile_isGrouped (digits : first.all Char.isDigit = true) (tail : List Char)
    (ends : ∀ c ∈ tail.head?, isGrouped c = false) :
    (first ++ tail).takeWhile isGrouped = first ∧ (first ++ tail).dropWhile isGrouped = tail := by
  have grouped : ∀ c ∈ first, isGrouped c = true := fun c member => by
    simp [isGrouped, List.all_eq_true.mp digits c member]
  rw [List.takeWhile_append_of_pos grouped, List.dropWhile_append_of_pos grouped]
  cases tail with
  | nil => simp
  | cons c tail =>
    have other := ends c rfl
    simp [other]

theorem isGroupedRun_of_isDigits (digits : IsDigits first) : isGroupedRun first = true := by
  obtain ⟨c, rest, rfl⟩ := List.exists_cons_of_ne_nil digits.1
  have all : ∀ d ∈ c :: rest, isGrouped d = true := fun d member => by
    simp [isGrouped, digits.of_mem member]
  simp only [isGroupedRun, List.all_eq_true.mpr all, List.head?_cons, Option.map_some,
    Option.getD_some, digits.of_mem List.mem_cons_self, Bool.and_self]

theorem isNumber_append (group : IsDigits first) (tail : List Char)
    (ends : ∀ c ∈ tail.head?, c = '.') :
    isNumber (first ++ tail) =
      (!tail.isEmpty && isExponent (tail.tail.dropWhile isGrouped)) := by
  obtain ⟨c, rest, rfl⟩ := List.exists_cons_of_ne_nil group.1
  have digit := List.all_eq_true.mp group.2 c List.mem_cons_self
  have special := not_contains_of_isDigit [".inf", ".Inf", ".INF"] rfl digit (rest ++ tail)
  have word := not_contains_of_isDigit [".nan", ".NaN", ".NAN"] rfl digit (rest ++ tail)
  obtain ⟨run, rest'⟩ := takeWhile_isGrouped group.2 tail fun d member => by
    rw [ends d member]
    rfl
  have grouped := isGroupedRun_of_isDigits group
  unfold isNumber
  simp only [List.cons_append] at run rest' ⊢
  simp only [unsigned_of_isDigit digit, special, word, run, rest', grouped]
  cases tail with
  | nil => rfl
  | cons d tail =>
    obtain rfl := ends d rfl
    rfl

theorem isSixtieths_point (tail : List Char) : isSixtieths ('.' :: tail) = false := by
  unfold isSixtieths
  generalize parts : ('.' :: tail).splitBy (fun _ d => d != ':') = groups
  have whole : groups.flatten = '.' :: tail := parts ▸ List.flatten_splitBy _ _
  have given : [] ∉ groups := parts ▸ List.nil_notMem_splitBy _ _
  cases groups with
  | nil => cases whole
  | cons group groups =>
    cases group with
    | nil => exact absurd List.mem_cons_self given
    | cons c group =>
      obtain rfl := (List.cons.inj whole).1
      rfl

theorem isInteger_of_ne_zero {c : Char} (digit : c.isDigit = true) (other : c ≠ '0')
    (rest : List Char) :
    isInteger (c :: rest) = (isGroupedRun ((c :: rest).takeWhile isGrouped) &&
      (((c :: rest).dropWhile isGrouped).isEmpty ||
        isSixtieths ((c :: rest).dropWhile isGrouped))) := by
  unfold isInteger
  rw [unsigned_of_isDigit digit]
  split
  next same => exact absurd (List.cons.inj same).1 other
  next same => exact absurd (List.cons.inj same).1 other
  next same => exact absurd (List.cons.inj same).1 other
  next same => exact absurd (List.cons.inj same).1 other
  next => rfl

theorem isInteger_zero {rest : List Char} (plain : ∀ c ∈ rest.head?, c.isDigit = true ∨ c = '.') :
    isInteger ('0' :: rest) =
      rest.all fun c => c == '_' || decide ('0' ≤ c) && decide (c ≤ '7') := by
  unfold isInteger
  rw [unsigned_of_isDigit rfl]
  split
  next same =>
    cases same
    rfl
  next same =>
    cases same
    exact absurd (plain 'b' rfl) (by decide)
  next same =>
    cases same
    exact absurd (plain 'x' rfl) (by decide)
  next same =>
    cases same
    rfl
  next other => exact absurd rfl (other rest)

theorem isOctal_iff {c : Char} (digit : c.isDigit = true) :
    (c == '_' || decide ('0' ≤ c) && decide (c ≤ '7')) = true ↔ c ≠ '8' ∧ c ≠ '9' := by
  obtain ⟨n, rfl⟩ := exists_ofNat_of_isDigit digit
  revert n
  decide

theorem not_isWhole {c : Char} {rest : List Char} : ¬ IsWhole ('0' :: c :: rest) := by
  rintro (short | ⟨d, _, same, other, _⟩)
  · cases short
  · exact other (List.cons.inj same).1.symm

/-- Digits are an integer, unless a zero in front makes one in base eight of them that has a greater
digit. -/
theorem isInteger_iff (digits : IsDigits first) :
    isInteger first = true ↔ IsWhole first ∨ '8' ∉ first ∧ '9' ∉ first := by
  obtain ⟨c, rest, rfl⟩ := List.exists_cons_of_ne_nil digits.1
  have digit := digits.of_mem List.mem_cons_self
  have later : ∀ d ∈ rest, d.isDigit = true := fun d member =>
    digits.of_mem (List.mem_cons_of_mem c member)
  by_cases zero : c = '0'
  · -- with a zero in front the rest is in base eight
    subst zero
    have octal : isInteger ('0' :: rest) = true ↔ '8' ∉ rest ∧ '9' ∉ rest := by
      rw [isInteger_zero fun d member => .inl (later d (List.mem_of_head? member)),
        List.all_eq_true]
      constructor
      · intro all
        exact ⟨fun member => ((isOctal_iff (later _ member)).mp (all _ member)).1 rfl,
          fun member => ((isOctal_iff (later _ member)).mp (all _ member)).2 rfl⟩
      · rintro ⟨eight, nine⟩ d member
        exact (isOctal_iff (later d member)).mpr ⟨fun same => eight (same ▸ member),
          fun same => nine (same ▸ member)⟩
    rw [octal]
    cases rest with
    | nil => simp [IsWhole]
    | cons d rest => simp [not_isWhole]
  · obtain ⟨run, left⟩ := takeWhile_isGrouped digits.2 [] (by simp)
    rw [List.append_nil] at run left
    have whole : IsWhole (c :: rest) := .inr ⟨c, rest, rfl, zero, digits⟩
    simp [isInteger_of_ne_zero digit zero, run, left, whole, isGroupedRun_of_isDigits digits]

/-- Digits with a point behind them are no integer. -/
theorem isInteger_pointed (digits : IsDigits first) : isInteger (first ++ '.' :: tail) = false := by
  obtain ⟨c, rest, rfl⟩ := List.exists_cons_of_ne_nil digits.1
  have digit := digits.of_mem List.mem_cons_self
  by_cases zero : c = '0'
  · subst zero
    rw [List.cons_append, isInteger_zero]
    · simp
    · intro d member
      cases rest with
      | nil => exact .inr (Option.some.inj member).symm
      | cons e rest =>
        obtain rfl := Option.some.inj member
        exact .inl (digits.of_mem (by simp))
  · obtain ⟨_, left⟩ := takeWhile_isGrouped digits.2 ('.' :: tail) (by simp [isGrouped])
    rw [List.cons_append, isInteger_of_ne_zero digit zero, ← List.cons_append, left]
    simp [isSixtieths_point]

end Shapes

/-- One group of digits is an integer or a text, two groups are a number, more are a text. -/
theorem ofPlain_dotted {groups : List (List Char)} (given : groups ≠ [])
    (digits : ∀ group ∈ groups, IsDigits group) :
    ofPlain (String.ofList (dotted groups)) = match groups with
      | [digits] => if isInteger digits then .int else .str
      | [_, _] => .float
      | _ => .str := by
  have plain : ofPlain (String.ofList (dotted groups)) = if isNumber (dotted groups) then .float
      else if isInteger (dotted groups) then .int else .str := by
    obtain ⟨c, rest, same, digit⟩ := exists_digit given digits
    rw [same]
    exact ofPlain_of_isDigit digit fun d member => isDigit_or_of_mem digits (same ▸ member)
  rw [plain]
  clear plain
  -- a number has one point, so that only a third group matters behind the first two
  cases groups with
  | nil => exact absurd rfl given
  | cons first groups =>
    rw [List.forall_mem_cons] at digits
    obtain ⟨isFirst, digits⟩ := digits
    cases groups with
    | nil =>
      have number := isNumber_append isFirst [] (by simp)
      rw [List.append_nil] at number
      rw [dotted_singleton, number]
      rfl
    | cons second groups =>
      rw [List.forall_mem_cons] at digits
      obtain ⟨isSecond, digits⟩ := digits
      have number := isNumber_append isFirst ('.' :: dotted (second :: groups)) (by simp)
      rw [dotted_cons_cons, number, isInteger_pointed isFirst, List.tail_cons]
      cases groups with
      | nil =>
        obtain ⟨_, left⟩ := takeWhile_isGrouped isSecond.2 [] (by simp)
        rw [List.append_nil] at left
        rw [dotted_singleton, left]
        rfl
      | cons third groups =>
        obtain ⟨_, left⟩ := takeWhile_isGrouped isSecond.2
          ('.' :: dotted (third :: groups)) (by simp [isGrouped])
        obtain ⟨c, rest, same, _⟩ := exists_digit (List.cons_ne_nil third groups) digits
        rw [dotted_cons_cons, left, same]
        rfl

end Tag

/-! ### Values -/

namespace Scalar

theorem eq_of_isDigit_or {c : Char} (plain : c.isDigit = true ∨ c = '.') :
    c ≠ '_' ∧ c ≠ ':' ∧ c.toLower = c ∧ Text.isSpace c = false ∧ Text.asciiDigit c = c := by
  rcases plain with digit | rfl
  · obtain ⟨n, rfl⟩ := exists_ofNat_of_isDigit digit
    revert n
    decide
  · decide

theorem trimBy_eq_self {p : Char → Bool} {cs : List Char} (others : ∀ c ∈ cs, p c = false) :
    Text.trimBy p cs = cs := by
  have kept : ∀ ds : List Char, (∀ c ∈ ds, p c = false) → ds.dropWhile p = ds := by
    intro ds others
    cases ds with
    | nil => rfl
    | cons c ds => simp [others c List.mem_cons_self]
  rw [Text.trimBy, kept cs others, kept cs.reverse (by simpa using others), List.reverse_reverse]

section Plain

variable {c : Char} {rest : List Char} (digit : c.isDigit = true)
  (plain : ∀ d ∈ c :: rest, d.isDigit = true ∨ d = '.')

include plain

theorem filter_plain : (c :: rest).filter (· != '_') = c :: rest :=
  List.filter_eq_self.mpr fun d member => by simpa using (eq_of_isDigit_or (plain d member)).1

theorem not_contains_plain : (c :: rest).contains ':' = false := by
  rw [Bool.eq_false_iff, ne_eq, List.contains_iff_mem]
  exact fun member => (eq_of_isDigit_or (plain _ member)).2.1 rfl

theorem trim_plain : (Text.trimBy Text.isSpace (c :: rest)).map Text.asciiDigit = c :: rest := by
  rw [trimBy_eq_self fun d member => (eq_of_isDigit_or (plain d member)).2.2.2.1,
    List.map_congr_left fun d member => (eq_of_isDigit_or (plain d member)).2.2.2.2, List.map_id']

include digit

theorem number_plain :
    number (c :: rest) = match number? (c :: rest) with
      | some x => .ok x
      | none => .error (.numberText (String.ofList (c :: rest))) := by
  have lower : (c :: rest).map Char.toLower = c :: rest := by
    rw [List.map_congr_left fun d member => (eq_of_isDigit_or (plain d member)).2.2.1, List.map_id']
  have word : ∀ other : List Char, other.head? = some '.' → (c :: rest == other) = false := by
    intro other point
    refine beq_eq_false_iff_ne.mpr ?_
    rintro rfl
    obtain rfl := Option.some.inj point
    cases digit
  unfold number
  simp only [filter_plain plain, lower, splitSign_of_isDigit digit, word ".inf".toList rfl,
    word ".nan".toList rfl, not_contains_plain plain, numberIn, trim_plain plain]
  cases number? (c :: rest) <;> rfl

end Plain

/-- Digits without a needless zero in front are the integer they write, if there are not too
many. -/
theorem integer_of_isWhole {cs : List Char} (whole : IsWhole cs) :
    integer cs =
      if maxDigits < cs.length then .error (.tooManyDigits cs.length)
      else .ok (digitsValue cs : Nat) := by
  obtain rfl | ⟨c, rest, rfl, other, digits⟩ := whole
  · rfl
  · have digit := digits.of_mem List.mem_cons_self
    have plain : ∀ d ∈ c :: rest, d.isDigit = true ∨ d = '.' := fun d member =>
      .inl (digits.of_mem member)
    have based : withoutBase 10 (c :: rest) = c :: rest := by
      unfold withoutBase
      split
      next same => exact absurd (List.cons.inj same).1 other
      next => rfl
    have value : ∀ d ∈ c :: rest, digit? 10 d = some (d.toNat - 48) := by
      intro d member
      obtain ⟨n, rfl⟩ := exists_ofNat_of_isDigit (digits.of_mem member)
      clear member
      revert n
      decide
    have all : (c :: rest).takeWhile (fun d => (digit? 10 d).isSome) = c :: rest :=
      List.takeWhile_eq_self_iff.mpr fun d member => by simp [value d member]
    have values : (c :: rest).filterMap (digit? 10) = (c :: rest).map (fun d => d.toNat - 48) := by
      rw [List.filterMap_congr value, List.filterMap_eq_map']
    have base : integerIn 10 (c :: rest) =
        if maxDigits < (c :: rest).length then .error (.tooManyDigits (c :: rest).length)
        else .ok (digitsValue (c :: rest) : Nat) := by
      unfold integerIn
      simp only [trim_plain plain, splitSign_of_isDigit digit, based, all, values, List.length_map]
      simp [digitsValue]
    unfold integer
    simp only [filter_plain plain, splitSign_of_isDigit digit, List.isEmpty_cons]
    split
    next same => cases same
    split
    next same => cases same
    next same => exact absurd (List.cons.inj same).1 other
    next same => exact absurd (List.cons.inj same).1 other
    next same => exact absurd (List.cons.inj same).1 other
    next same => exact absurd (List.cons.inj same).1 other
    next =>
      rw [not_contains_plain plain, base, if_neg Bool.false_ne_true]
      split <;> rfl

end Scalar

theorem versionText_float (x : Binary64) :
    versionText (.float x) = .ok (NumberFormat.display.write x) := rfl

theorem versionText_int {n : Int} {s : String} :
    versionText (.int n) = .ok s ↔ integer? n = some s := by
  simp only [versionText, Value.display, Value.shown, Value.shownAtom]
  cases integer? n <;> simp [Checked.refused, Except.map]

/-- No integer is written with a needless zero in front. -/
theorem isWhole_of_integer? {n : Int} {c : Char} {rest : List Char} (digit : c.isDigit = true)
    (written : integer? n = some (String.ofList (c :: rest))) : IsWhole (c :: rest) := by
  unfold integer? at written
  split at written
  next =>
    have same := congrArg String.toList (Option.some.inj written)
    rw [String.toList_ofList, String.toList_ofList] at same
    unfold Decimal.integer at same
    split at same
    next => exact absurd (List.cons.inj same).1 (ne_of_isDigit digit (by decide)).symm
    next => exact same ▸ isWhole_natural _
  next => cases written

section Kept

variable {groups : List (List Char)}

/-- The version is kept as it is written when it is taken for a value of the type. -/
def KeptAs (tag : Tag) (t : Text) : Prop :=
  ∃ x, Scalar.value tag t = .ok x ∧ versionText x = .ok t

theorem keptAs_int {digits : List Char} (isDigits : IsDigits digits) :
    KeptAs .int (String.ofList digits) ↔ IsWhole digits ∧ digits.length ≤ maxDigits := by
  obtain ⟨c, rest, rfl⟩ := List.exists_cons_of_ne_nil isDigits.1
  have digit := isDigits.of_mem List.mem_cons_self
  constructor
  · rintro ⟨x, read, written⟩
    obtain ⟨n, found, rfl⟩ := map_eq_ok_iff.mp read
    have whole := isWhole_of_integer? digit (versionText_int.mp written)
    refine ⟨whole, Nat.le_of_not_lt fun long => ?_⟩
    rw [Text.chars_ofString, String.toList_ofList, Scalar.integer_of_isWhole whole,
      if_pos long] at found
    cases found
  · rintro ⟨whole, short⟩
    refine ⟨.int (digitsValue (c :: rest) : Nat), ?_, versionText_int.mpr ?_⟩
    · rw [Scalar.value, Text.chars_ofString, String.toList_ofList,
        Scalar.integer_of_isWhole whole, if_neg (Nat.not_lt.mpr short)]
      rfl
    · rw [integer?, Decimal.integer, Int.natAbs_natCast, natural_digitsValue whole, if_pos short,
        if_neg (by omega)]

theorem isFinite_of_write {x : Binary64} {c : Char} {rest : List Char} (digit : c.isDigit = true)
    (written : NumberFormat.display.write x = String.ofList (c :: rest)) : x.isFinite = true := by
  have first : (NumberFormat.display.write x).toList.head? = some c := by
    rw [written, String.toList_ofList]
    rfl
  cases x with
  | finite => rfl
  | nan =>
    cases first
    cases digit
  | infinity negative =>
    cases negative <;>
      · cases first
        cases digit

/-- Groups of digits that are taken for a number are the number they write. -/
theorem value_float (given : groups ≠ []) (digits : ∀ group ∈ groups, IsDigits group)
    {x : Binary64} (read : number? (dotted groups) = some x) :
    Scalar.value .float (String.ofList (dotted groups)) = .ok (.float x) := by
  obtain ⟨c, rest, same, digit⟩ := exists_digit given digits
  rw [same] at read
  rw [same, Scalar.value, Text.chars_ofString, String.toList_ofList,
    Scalar.number_plain digit fun d member => isDigit_or_of_mem digits (same ▸ member), read]
  rfl

theorem keptAs_float (given : groups ≠ []) (digits : ∀ group ∈ groups, IsDigits group) :
    KeptAs .float (String.ofList (dotted groups)) ↔
      ∃ x : Binary64, x.Canonical ∧
        NumberFormat.display.write x = String.ofList (dotted groups) := by
  constructor
  · rintro ⟨v, read, written⟩
    obtain ⟨x, found, rfl⟩ := map_eq_ok_iff.mp read
    rw [versionText_float, Checked.ok.injEq] at written
    exact ⟨x, Scalar.canonical_number found, Text.ofString_inj.mp written⟩
  · rintro ⟨x, canonical, written⟩
    obtain ⟨c, rest, same, digit⟩ := exists_digit given digits
    have finite := isFinite_of_write digit (written.trans (congrArg String.ofList same))
    have found := NumberFormat.display.number?_write canonical finite
    rw [written, String.toList_ofList] at found
    exact ⟨.float x, value_float given digits found,
      (versionText_float x).trans (congrArg (fun s : String => Checked.ok (s : Text)) written)⟩

theorem keptAs_str (t : Text) : KeptAs .str t := ⟨.text t, rfl, rfl⟩

/-- Whether a version without quotation marks is kept as it is written. -/
theorem keptAs_ofPlain (given : groups ≠ []) (digits : ∀ group ∈ groups, IsDigits group) :
    KeptAs (.ofPlain (String.ofList (dotted groups))) (String.ofList (dotted groups)) ↔
      Kept groups := by
  rw [Tag.ofPlain_dotted given digits]
  match groups with
  | [] => exact absurd rfl given
  | [group] =>
    have isDigits := digits group List.mem_cons_self
    have integer := Tag.isInteger_iff isDigits
    dsimp only
    rw [dotted_singleton]
    split
    next isInteger =>
      have octal := integer.mp isInteger
      rw [keptAs_int isDigits, Kept]
      tauto
    next text =>
      have octal := integer.not.mp text
      refine iff_of_true (keptAs_str _) (.inr ?_)
      tauto
  | [whole, fraction] => exact keptAs_float given digits
  | first :: second :: third :: more => exact iff_of_true (keptAs_str _) trivial

end Kept

end Yaml

end Deployments
