import Mathlib.Data.List.Forall2
import Deployments.Proofs.Json.Decoder
import Deployments.Proofs.Json.Valid

/-!
The tokens of written text. Space and marks end by themselves, and so do strings, in which every
character comes back from its escape; a word ends in front of a delimiter.
-/

namespace Deployments.Json.Decoder

open Decimal Grammar

/-! ### Texts and their tokens -/

/-- The characters are those of the tokens, whatever follows. -/
def Closes (cs : List Char) (ts : List Token) : Prop :=
  ∀ before rest, tokensBehind? before (cs ++ rest) = tokensBehind? (before ++ ts) rest

/-- A delimiter follows, or nothing. -/
def EndsWord (rest : List Char) : Prop := ∀ c ∈ rest.head?, isDelimiter c = true

/-- The characters are those of the tokens, unless a word goes on. -/
def Spells (cs : List Char) (ts : List Token) : Prop :=
  ∀ before rest, EndsWord rest →
    tokensBehind? before (cs ++ rest) = tokensBehind? (before ++ ts) rest

theorem endsWord_cons {c : Char} {rest : List Char} (delimiter : isDelimiter c = true) :
    EndsWord (c :: rest) := by
  rintro d same
  cases same
  exact delimiter

theorem Closes.spells {cs : List Char} {ts : List Token} (closes : Closes cs ts) : Spells cs ts :=
  fun before rest _ => closes before rest

theorem Closes.append {a b : List Char} {ts us : List Token} (left : Closes a ts)
    (right : Closes b us) : Closes (a ++ b) (ts ++ us) := by
  intro before rest
  rw [List.append_assoc, left, right, List.append_assoc]

theorem Closes.append_spells {a b : List Char} {ts us : List Token} (left : Closes a ts)
    (right : Spells b us) : Spells (a ++ b) (ts ++ us) := by
  intro before rest ends
  rw [List.append_assoc, left, right _ _ ends, List.append_assoc]

theorem Spells.append_closes {a b : List Char} {c : Char} {ts us : List Token} (left : Spells a ts)
    (delimiter : isDelimiter c = true) (right : Closes (c :: b) us) :
    Closes (a ++ c :: b) (ts ++ us) := by
  intro before rest
  rw [List.append_assoc, left before (c :: b ++ rest) (endsWord_cons delimiter), right,
    List.append_assoc]

theorem Spells.tokens?_eq {cs : List Char} {ts : List Token} (spells : Spells cs ts) :
    tokens? cs = some ts := by
  have all := spells [] [] nofun
  rwa [List.append_nil] at all

/-! ### Space, marks and words -/

theorem tokensBehind?_cons {before : List Token} {c : Char} {rest : List Char}
    {s : Scan} (step : Scan.step ⟨before, .between⟩ c = some s) :
    tokensBehind? before (c :: rest) = (rest.foldlM Scan.step s).bind Scan.finish? := by
  rw [tokensBehind?, List.foldlM_cons, step]
  rfl

theorem closes_space {cs : List Char} (space : cs.all isSpace = true) : Closes cs [] := by
  intro before rest
  rw [List.append_nil]
  induction cs with
  | nil => rfl
  | cons c cs ih =>
    rw [List.all_cons, Bool.and_eq_true] at space
    have step : Scan.step ⟨before, .between⟩ c = some ⟨before, .between⟩ := by
      simp [Scan.step, Scan.begin, space.1]
    rw [List.cons_append, tokensBehind?_cons step]
    exact ih space.2

theorem closes_mark {c : Char} {mark : Token} (marks : mark? c = some mark) :
    Closes [c] [mark] := by
  have other : isSpace c = false ∧ c ≠ '\x22' := by
    refine ⟨?_, ?_⟩
    · by_contra space
      simp only [isSpace, Bool.not_eq_false, Bool.or_eq_true, beq_iff_eq] at space
      rcases space with ((rfl | rfl) | rfl) | rfl <;> cases marks
    · rintro rfl
      cases marks
  intro before rest
  have step : Scan.step ⟨before, .between⟩ c = some ⟨before ++ [mark], .between⟩ := by
    simp [Scan.step, Scan.begin, other, marks]
  rw [List.singleton_append, tokensBehind?_cons step, tokensBehind?]

/-- The word goes on up to the first delimiter. -/
theorem word_goes_on {before : List Token} (letters : List Char) {more rest : List Char}
    (all : ∀ c ∈ more, isDelimiter c = false) (ends : EndsWord rest) :
    ((more ++ rest).foldlM Scan.step ⟨before, .word letters⟩).bind Scan.finish? =
      tokensBehind? (before ++ [.word (letters ++ more)]) rest := by
  induction more generalizing letters with
  | nil =>
    rw [List.nil_append, List.append_nil]
    cases rest with
    | nil => rfl
    | cons c rest =>
      -- The delimiter ends the word, and is then read as what it begins between the tokens.
      have step : Scan.step ⟨before, .word letters⟩ c =
          Scan.step ⟨before ++ [.word letters], .between⟩ c := by
        simp [Scan.step, ends c rfl]
      rw [tokensBehind?, List.foldlM_cons, List.foldlM_cons, step]
  | cons c more ih =>
    rw [List.forall_mem_cons] at all
    have step : Scan.step ⟨before, .word letters⟩ c = some ⟨before, .word (letters ++ [c])⟩ := by
      simp [Scan.step, all.1]
    rw [List.cons_append, List.foldlM_cons, step]
    have later := ih (letters ++ [c]) all.2
    rwa [List.append_assoc] at later

theorem spells_word {letters : List Char} (given : letters ≠ [])
    (all : ∀ c ∈ letters, isDelimiter c = false) : Spells letters [.word letters] := by
  intro before rest ends
  obtain ⟨c, more, rfl⟩ := List.exists_cons_of_ne_nil given
  rw [List.forall_mem_cons] at all
  have first := all.1
  simp only [isDelimiter, Bool.or_eq_false_iff, beq_eq_false_iff_ne, Option.isSome_eq_false_iff,
    Option.isNone_iff_eq_none] at first
  have step : Scan.step ⟨before, .between⟩ c = some ⟨before, .word [c]⟩ := by
    simp [Scan.step, Scan.begin, first]
  rw [List.cons_append, tokensBehind?_cons step, word_goes_on [c] all.2 ends]
  rfl

theorem mark?_eq_none_of_isDigit {c : Char} (digit : c.isDigit = true) : mark? c = none := by
  unfold mark?
  split
  all_goals first | rfl | exact absurd digit (by decide)

theorem isDelimiter_of_isDigit {c : Char} (digit : c.isDigit = true) : isDelimiter c = false := by
  have other : ∀ d : Char, d.isDigit = false → c ≠ d := fun d => ne_of_isDigit digit
  simp [isDelimiter, isSpace, mark?_eq_none_of_isDigit digit, other ' ' (by decide),
    other '\t' (by decide), other '\n' (by decide), other '\r' (by decide),
    other '\x22' (by decide)]

theorem spells_number {cs : List Char} (number : IsNumber cs) : Spells cs [.word cs] := by
  have others : ∀ c ∈ ['+', '-', '.', 'e', 'E'], isDelimiter c = false := by
    simp [isDelimiter, isSpace, mark?]
  refine spells_word number.ne_nil fun c member => ?_
  rcases number.isDigit_or_mem member with digit | other
  · exact isDelimiter_of_isDigit digit
  · exact others c other

/-! ### Strings -/

/-- Characters in a string add units to those that have been read. -/
def Adds (cs : List Char) (us : List Nat) : Prop :=
  ∀ before read rest, (cs ++ rest).foldlM Scan.step ⟨before, .string read⟩ =
    rest.foldlM Scan.step ⟨before, .string (read ++ us)⟩

theorem Adds.append {a b : List Char} {us vs : List Nat} (left : Adds a us) (right : Adds b vs) :
    Adds (a ++ b) (us ++ vs) := by
  intro before read rest
  rw [List.append_assoc, left, right, List.append_assoc]

theorem Adds.flatMap {α : Type} {f : α → List Char} {g : α → List Nat} {items : List α}
    (all : ∀ a ∈ items, Adds (f a) (g a)) : Adds (items.flatMap f) (items.flatMap g) := by
  induction items with
  | nil =>
    intro before read rest
    rw [List.flatMap_nil, List.flatMap_nil, List.append_nil, List.nil_append]
  | cons a items ih =>
    rw [List.forall_mem_cons] at all
    rw [List.flatMap_cons, List.flatMap_cons]
    exact all.1.append (ih all.2)

theorem adds_letter {c : Char} {unit : Nat} (escapes : escape? c = some unit) :
    Adds ['\\', c] [unit] := by
  have other : c ≠ 'u' := by
    rintro rfl
    cases escapes
  intro before read rest
  have backslash : Scan.step ⟨before, .string read⟩ '\\' = some ⟨before, .escape read⟩ := rfl
  have letter : Scan.step ⟨before, .escape read⟩ c = some ⟨before, .string (read ++ [unit])⟩ := by
    simp [Scan.step, other, escapes]
  rw [List.cons_append, List.foldlM_cons, backslash]
  exact (congrArg (· >>= _) letter).trans rfl

theorem adds_self {c : Char} (printable : 0x20 ≤ c.toNat) (notQuote : c ≠ '\x22')
    (notBackslash : c ≠ '\\') : Adds [c] (units (.char c)) := by
  intro before read rest
  have step : Scan.step ⟨before, .string read⟩ c =
      some ⟨before, .string (read ++ units (.char c))⟩ := by
    simp [Scan.step, notQuote, notBackslash, Nat.not_lt.mpr printable]
  rw [List.singleton_append, List.foldlM_cons, step]
  rfl

theorem step_code (before : List Token) (read : List Nat) (left value n : Nat) :
    Scan.step ⟨before, .code read left value⟩ (Text.hexDigit (n % 16)) =
      some (if left ≤ 1 then ⟨before, .string (read ++ [16 * value + n % 16])⟩
        else ⟨before, .code read (left - 1) (16 * value + n % 16)⟩) := by
  have digit := Text.hexValue?_hexDigit (n % 16) (Nat.mod_lt n (by decide))
  simp [Scan.step, digit]

theorem adds_code {unit : Nat} (small : unit < 0x10000) :
    Adds ('\\' :: 'u' :: Text.hexDigits 4 unit) [unit] := by
  intro before read rest
  have backslash : Scan.step ⟨before, .string read⟩ '\\' = some ⟨before, .escape read⟩ := rfl
  have letter : Scan.step ⟨before, .escape read⟩ 'u' = some ⟨before, .code read 4 0⟩ := rfl
  -- The digits are taken from the left, while the number of a unit is split from the right.
  have value : 16 * (16 * (16 * (16 * 0 + unit / 16 / 16 / 16 % 16) + unit / 16 / 16 % 16) +
      unit / 16 % 16) + unit % 16 = unit := by
    omega
  rw [List.cons_append, List.cons_append, List.foldlM_cons, backslash]
  simp only [Text.hexDigits, List.nil_append, List.cons_append, List.foldlM_cons, letter, step_code,
    Option.bind_eq_bind, Option.bind_some, Nat.reduceLeDiff, if_false, if_true, Nat.reduceSub,
    value, Nat.le_refl]

theorem adds_escapedUnits (p : Point) : Adds (escapedUnits p) (units p) := by
  have all := Adds.flatMap (g := fun unit => [unit]) fun unit member =>
    adds_code (Point.lt_of_mem_units (p := p) member)
  rw [escapedUnits]
  simpa using all

/-- The escape of a code point adds the units of the code point. -/
theorem adds_escapedPoint (p : Point) : Adds (escapedPoint p) (units p) := by
  cases p with
  | surrogate n => exact adds_escapedUnits (.surrogate n)
  | char c =>
    rw [escapedPoint]
    rcases escaped_cases c with
      ⟨letter, member, same⟩ | ⟨printable, _, notQuote, notBackslash, same⟩ | same
    · have letters : ∀ pair ∈ lettered, escape? pair.2 = some pair.1.toNat ∧
          units (.char pair.1) = [pair.1.toNat] := by
        simp [lettered, escape?, units]
      obtain ⟨escapes, single⟩ := letters _ member
      rw [same, single]
      exact adds_letter escapes
    · rw [same]
      exact adds_self printable notQuote notBackslash
    · rw [same]
      exact adds_escapedUnits (.char c)

/-- The text comes back, but that surrogates which make up a character are put together. -/
theorem closes_quoted (s : Text) : Closes (quoted s) [.text s.joined] := by
  intro before rest
  have open_ : Scan.step ⟨before, .between⟩ '\x22' = some ⟨before, .string []⟩ := rfl
  have whole : ofUnits (s.toList.flatMap units) = s.joined :=
    congrArg Text.ofList (Point.joined_units s.toList)
  have close : Scan.step ⟨before, .string (s.toList.flatMap units)⟩ '\x22' =
      some ⟨before ++ [.text s.joined], .between⟩ := by
    simp [Scan.step, whole]
  have inner : Adds (s.toList.flatMap escapedPoint) (s.toList.flatMap units) :=
    .flatMap fun p _ => adds_escapedPoint p
  rw [quoted, List.cons_append, tokensBehind?_cons open_, List.append_assoc, inner,
    List.nil_append, List.singleton_append, List.foldlM_cons, close]
  rfl

/-! ### Rows between brackets -/

theorem spells_intercalate {space : List Char} (blank : space.all isSpace = true)
    {lines : List (List Char)} {tss : List (List Token)} (all : List.Forall₂ Spells lines tss) :
    Spells ((',' :: space).intercalate lines) ([.comma].intercalate tss) := by
  induction all with
  | nil => exact (closes_space rfl).spells
  | cons first more ih =>
    cases more with
    | nil => simpa using first
    | cons second more =>
      have comma : Closes (',' :: space) [.comma] :=
        (closes_mark rfl).append (closes_space blank)
      rw [List.intercalate_cons_cons, List.intercalate_cons_cons]
      exact (first.append_closes rfl comma).append_spells ih

theorem closes_bracketed {opening closing : Char} {first last : Token}
    (opens : mark? opening = some first) (closes : mark? closing = some last) (depth : Nat)
    {lines : List (List Char)} {tss : List (List Token)} (all : List.Forall₂ Spells lines tss) :
    Closes (bracketed opening closing depth lines)
      (first :: ([.comma].intercalate tss ++ [last])) := by
  by_cases empty : lines = []
  · subst empty
    cases all
    exact (closes_mark opens).append (closes_mark closes)
  · have row := spells_intercalate (isSpace_line (depth + 1)) all
    have space : Closes ('\n' :: (margin depth ++ [closing])) [last] :=
      (closes_space (isSpace_line depth)).append (closes_mark closes)
    have line := (closes_space (isSpace_line (depth + 1))).append_spells row
    have closed := (closes_mark opens).append (line.append_closes (by decide) space)
    rw [bracketed_eq _ _ _ empty]
    simpa using closed

end Deployments.Json.Decoder
