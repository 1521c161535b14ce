import Deployments.Proofs.Decimal.Written
import Deployments.Proofs.Json.Scanned

/-!
What tokens are put together to: words to the numbers they write, and rows of tokens between
brackets to lists and objects.
-/

namespace Deployments.Json.Decoder

open Decimal Grammar

/-! ### Words -/

theorem noDigitFirst_of_isExponent {cs : List Char} (isExponent : IsExponent cs) :
    NoDigitFirst cs := by
  rcases isExponent with rfl | ⟨letter, sign, digits, rfl, isLetter, _, _⟩
  · nofun
  · rintro c same
    cases same
    have letters : ∀ c ∈ ['e', 'E'], c.isDigit = false := by simp
    exact letters letter isLetter

theorem exponent?_of_isExponent {cs : List Char} (isExponent : IsExponent cs) :
    (exponent? cs).isSome = true := by
  rcases isExponent with rfl | ⟨letter, sign, digits, rfl, isLetter, isSign, given, all⟩
  · rfl
  · have unsigned : (splitSign (sign ++ digits)).2 = digits := by
      simp only [List.mem_cons, List.not_mem_nil, or_false] at isSign
      rcases isSign with rfl | rfl | rfl
      · obtain ⟨c, rest, rfl⟩ := List.exists_cons_of_ne_nil given
        rw [List.all_cons, Bool.and_eq_true] at all
        rw [List.nil_append, splitSign_of_isDigit all.1]
      · rfl
      · rfl
    have letters : letter = 'e' ∨ letter = 'E' := by simpa using isLetter
    simp [exponent?, letters, unsigned, given, all]

theorem isRest_of_parts {fraction exponent : List Char} (isFraction : IsFraction fraction)
    (isExponent : IsExponent exponent) : isRest (fraction ++ exponent) = true := by
  have behind := exponent?_of_isExponent isExponent
  have ends := noDigitFirst_of_isExponent isExponent
  rcases isFraction with rfl | ⟨digits, rfl, given, all⟩
  · rw [List.nil_append]
    unfold isRest
    split
    next =>
      rcases isExponent with same | ⟨letter, _, _, same, isLetter, _⟩
      · cases same
      · cases same
        simp at isLetter
    next => exact behind
  · rw [List.cons_append, isRest, takeWhile_digits all ends,
      dropWhile_digits all ends, behind]
    simpa using given

theorem decodeNumber?_parts {whole rest : List Char} (negative : Bool) (isWhole : IsWhole whole)
    (ends : NoDigitFirst rest) (follows : isRest rest = true) :
    decodeNumber? (if negative then '-' :: (whole ++ rest) else whole ++ rest) =
      some (if rest = [] then
        .integer (if negative then -(digitsValue whole : Int) else digitsValue whole)
      else
        .decimal (.ofList (if negative then '-' :: (whole ++ rest) else whole ++ rest))) := by
  have digits := isWhole.isDigits
  obtain ⟨c, more, rfl⟩ := List.exists_cons_of_ne_nil digits.1
  have digit : c.isDigit = true := digits.of_mem List.mem_cons_self
  have split : splitMinus (if negative then '-' :: (c :: more ++ rest) else c :: more ++ rest) =
      (negative, c :: more ++ rest) := by
    cases negative with
    | true => rfl
    | false =>
      rw [if_neg Bool.false_ne_true]
      unfold splitMinus
      split
      next same => exact absurd (List.cons.inj same).1 (ne_of_isDigit digit (by decide))
      next => rfl
  have front : ((c :: more).isEmpty ||
      ((c :: more).head? == some '0' && c :: more != ['0'])) = false := by
    rcases isWhole with zero | ⟨_, _, same, notZero, _⟩
    · rw [zero]
      rfl
    · cases same
      simp [notZero]
  unfold decodeNumber?
  simp only [split, takeWhile_digits digits.2 ends, dropWhile_digits digits.2 ends, front, follows]
  cases rest <;> rfl

theorem digitsValue_integer (n : Int) :
    (if n < 0 then -(digitsValue (natural n.natAbs) : Int) else digitsValue (natural n.natAbs)) =
      n := by
  rw [digitsValue_natural]
  split <;> omega

theorem decodeNumber?_integer (n : Int) : decodeNumber? (integer n) = some (.integer n) := by
  have ends : NoDigitFirst [] := nofun
  have parts := decodeNumber?_parts (decide (n < 0)) (isWhole_natural n.natAbs) ends rfl
  rw [List.append_nil, if_pos rfl] at parts
  simp only [decide_eq_true_eq] at parts
  rw [digitsValue_integer] at parts
  exact parts

theorem decodeNumber?_decimal {cs : List Char} (number : IsNumber cs)
    (marked : ∃ c ∈ cs, c = '.' ∨ c = 'e') : decodeNumber? cs = some (.decimal (.ofList cs)) := by
  obtain ⟨sign, unsigned, rfl, signed, whole, fraction, exponent, rfl, isWhole, isFraction,
    isExponent⟩ := number
  have ends : NoDigitFirst (fraction ++ exponent) := by
    rcases isFraction with rfl | ⟨digits, rfl, _⟩
    · exact noDigitFirst_of_isExponent isExponent
    · simp [NoDigitFirst]
  -- Signs and digits alone would have neither a point nor a letter.
  have some_ : fraction ++ exponent ≠ [] := by
    intro none_
    rw [none_, List.append_nil] at marked
    obtain ⟨c, member, mark⟩ := marked
    rcases List.mem_append.mp member with inside | inside
    · have minus : c = '-' := by
        rcases List.mem_cons.mp signed with rfl | signed
        · cases inside
        · rw [List.mem_singleton.mp signed] at inside
          exact List.mem_singleton.mp inside
      rcases mark with rfl | rfl <;> cases minus
    · have digit := isWhole.isDigits.of_mem inside
      rcases mark with rfl | rfl <;> cases digit
  have parts (negative : Bool) := decodeNumber?_parts negative isWhole ends
    (isRest_of_parts isFraction isExponent)
  simp only [if_neg some_] at parts
  simp only [List.mem_cons, List.not_mem_nil, or_false] at signed
  rcases signed with rfl | rfl
  · exact parts false
  · exact parts true

theorem exists_mark_write (format : NumberFormat) {x : Binary64} (finite : x.isFinite = true) :
    ∃ c ∈ (format.write x).toList, c = '.' ∨ c = 'e' := by
  cases x with
  | nan | infinity => cases finite
  | finite negative m e =>
    have magnitude : ∃ c ∈ (if m = 0 then ['0', '.', '0'] else format.scientific (shortest m e)),
        c = '.' ∨ c = 'e' := by
      split
      next => exact ⟨'.', by simp, .inl rfl⟩
      next =>
        unfold NumberFormat.scientific
        dsimp only
        split
        · refine ⟨'.', ?_, .inl rfl⟩
          unfold NumberFormat.positional
          split_ifs <;> simp
        · exact ⟨'e', by simp [NumberFormat.exponential], .inr rfl⟩
    obtain ⟨c, member, mark⟩ := magnitude
    refine ⟨c, ?_, mark⟩
    rw [NumberFormat.write, String.toList_ofList]
    split
    · exact List.mem_cons_of_mem _ member
    · exact member

theorem word?_of_isNumber {cs : List Char} (number : IsNumber cs) :
    word? cs = decodeNumber? cs := by
  have noWord : ∀ {word : List Char} {c : Char}, c ∈ word → c.isDigit = false →
      c ∉ ['+', '-', '.', 'e', 'E'] → cs ≠ word := by
    rintro word c member notDigit other rfl
    rcases number.isDigit_or_mem member with digit | listed
    · exact absurd digit (by simp [notDigit])
    · exact other listed
  rw [word?, if_neg (noWord (c := 'n') (by simp) rfl (by decide)),
    if_neg (noWord (c := 't') (by simp) rfl (by decide)),
    if_neg (noWord (c := 'f') (by simp) rfl (by decide))]

/-! ### Documents -/

/-- The tokens are those of a document, wherever a value is due. -/
def Parses (ts : List Token) (x : Decoded) : Prop :=
  ∀ stack, ts.foldlM State.step (.value stack) = some (.after stack x)

theorem Parses.append {ts us : List Token} {x : Decoded} (parses : Parses ts x)
    (stack : List Frame) :
    (ts ++ us).foldlM State.step (.value stack) = us.foldlM State.step (.after stack x) := by
  rw [List.foldlM_append, parses stack]
  rfl

theorem parses_text (s : Text) : Parses [.text s] (.text s) := fun _ => rfl

theorem parses_word {cs : List Char} {x : Decoded} (found : word? cs = some x) :
    Parses [.word cs] x := by
  intro stack
  rw [List.foldlM_cons, State.step, found]
  rfl

/-- If the tokens of a row are read one after the other, with a comma between them, then all of
them are read up to the end of the row. -/
theorem row_goes_on {α : Type} (due : List α → State) (behind : List α → α → State)
    (closed : List α → State) {close : Token}
    (comma : ∀ read a, (behind read a).step .comma = some (due (read ++ [a])))
    (closes : ∀ read a, (behind read a).step close = some (closed (read ++ [a])))
    {ts : List Token} {a : α} {tss : List (List Token)} {more : List α}
    (first : ∀ read, ts.foldlM State.step (due read) = some (behind read a))
    (all : List.Forall₂ (fun ts a => ∀ read, ts.foldlM State.step (due read) =
      some (behind read a)) tss more) (read : List α) :
    ([Token.comma].intercalate (ts :: tss) ++ [close]).foldlM State.step (due read) =
      some (closed (read ++ a :: more)) := by
  -- The parts behind the first one are read with the first one among those that have been read.
  induction all generalizing ts a read with
  | nil =>
    rw [List.intercalate_singleton, List.foldlM_append, first]
    exact (congrArg (· >>= pure) (closes read a)).trans rfl
  | @cons us b tss more second _ ih =>
    have later := ih second (read ++ [a])
    rw [List.append_assoc, List.singleton_append] at later
    rw [List.intercalate_cons_cons, List.append_assoc, List.append_assoc, List.foldlM_append,
      first, ← later, List.singleton_append]
    exact congrArg (· >>= _) (comma read a)

theorem parses_list {tss : List (List Token)} {xs : List Decoded}
    (all : List.Forall₂ Parses tss xs) :
    Parses (.openList :: ([Token.comma].intercalate tss ++ [.closeList])) (.list xs) := by
  intro stack
  cases all with
  | nil => rfl
  | cons first more =>
    exact row_goes_on (fun items => .value (.list items :: stack))
      (fun items => .after (.list items :: stack)) (fun items => .after stack (.list items))
      (fun _ _ => rfl) (fun _ _ => rfl) (fun _ => first _)
      (more.imp fun _ _ parses _ => parses _) []

/-- The tokens are a key, a colon and those of a document. -/
def ParsesMember (ts : List Token) (member : Text × Decoded) : Prop :=
  ∃ us, ts = .text member.1 :: .colon :: us ∧ Parses us member.2

theorem parses_object {tss : List (List Token)} {members : List (Text × Decoded)}
    (all : List.Forall₂ ParsesMember tss members) :
    Parses (.openObject :: ([Token.comma].intercalate tss ++ [.closeObject]))
      (.object members) := by
  intro stack
  have read : ∀ {ts member}, ParsesMember ts member → ∀ members,
      ts.foldlM State.step (.key stack members) =
        some (.after (.member members member.1 :: stack) member.2) := by
    rintro _ member ⟨us, rfl, parses⟩ members
    have key : State.step (.key stack members) (.text member.1) =
        some (.colon stack members member.1) := by
      cases members <;> rfl
    rw [List.foldlM_cons, key]
    exact parses _
  cases all with
  | nil => rfl
  | cons first more =>
    exact row_goes_on (fun members => .key stack members)
      (fun members member => .after (.member members member.1 :: stack) member.2)
      (fun members => .after stack (.object members)) (fun _ _ => rfl) (fun _ _ => rfl)
      (read first) (more.imp fun _ _ parses => read parses) []

end Deployments.Json.Decoder
