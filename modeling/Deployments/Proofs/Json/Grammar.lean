/-!
The grammar of JSON texts, as RFC 8259 gives it, over characters.
-/

namespace Deployments.Json.Grammar

/-- The characters that may stand between the parts of a text. -/
def isSpace (c : Char) : Bool := c == ' ' || c == '\t' || c == '\n' || c == '\r'

def isHexDigit (c : Char) : Bool :=
  c.isDigit || (decide ('a' ≤ c) && decide (c ≤ 'f')) || (decide ('A' ≤ c) && decide (c ≤ 'F'))

/-! ### Numbers -/

def IsDigits (cs : List Char) : Prop := cs ≠ [] ∧ cs.all Char.isDigit = true

/-- A number without a fraction has no zero in front, unless it is zero. -/
def IsWhole (cs : List Char) : Prop :=
  cs = ['0'] ∨ ∃ c rest, cs = c :: rest ∧ c ≠ '0' ∧ IsDigits cs

def IsFraction (cs : List Char) : Prop := cs = [] ∨ ∃ digits, cs = '.' :: digits ∧ IsDigits digits

def IsExponent (cs : List Char) : Prop :=
  cs = [] ∨ ∃ letter sign digits, cs = letter :: (sign ++ digits) ∧ letter ∈ ['e', 'E'] ∧
    sign ∈ [[], ['+'], ['-']] ∧ IsDigits digits

def IsUnsigned (cs : List Char) : Prop :=
  ∃ whole fraction exponent, cs = whole ++ (fraction ++ exponent) ∧
    IsWhole whole ∧ IsFraction fraction ∧ IsExponent exponent

def IsNumber (cs : List Char) : Prop :=
  ∃ sign unsigned, cs = sign ++ unsigned ∧ sign ∈ [[], ['-']] ∧ IsUnsigned unsigned

theorem IsUnsigned.isNumber {cs : List Char} (isUnsigned : IsUnsigned cs) (negative : Bool) :
    IsNumber (if negative then '-' :: cs else cs) := by
  cases negative with
  | true => exact ⟨['-'], cs, rfl, by simp, isUnsigned⟩
  | false => exact ⟨[], cs, rfl, by simp, isUnsigned⟩

theorem ne_of_isDigit {c d : Char} (digit : c.isDigit = true) (other : d.isDigit = false) :
    c ≠ d := by
  rintro rfl
  exact absurd digit (by simp [other])

theorem IsDigits.of_mem {cs : List Char} (digits : IsDigits cs) {c : Char} (member : c ∈ cs) :
    c.isDigit = true := List.all_eq_true.mp digits.2 c member

theorem IsWhole.isDigits {cs : List Char} (isWhole : IsWhole cs) : IsDigits cs := by
  rcases isWhole with rfl | ⟨_, _, _, _, digits⟩
  · exact ⟨by decide, by decide⟩
  · exact digits

theorem IsUnsigned.exists_digit {cs : List Char} (isUnsigned : IsUnsigned cs) :
    ∃ c rest, cs = c :: rest ∧ c.isDigit = true := by
  obtain ⟨whole, fraction, exponent, rfl, isWhole, _, _⟩ := isUnsigned
  obtain ⟨c, rest, rfl⟩ := List.exists_cons_of_ne_nil isWhole.isDigits.1
  exact ⟨c, _, rfl, isWhole.isDigits.of_mem List.mem_cons_self⟩

theorem IsNumber.ne_nil {cs : List Char} (number : IsNumber cs) : cs ≠ [] := by
  obtain ⟨sign, unsigned, rfl, _, isUnsigned⟩ := number
  obtain ⟨c, rest, rfl, _⟩ := isUnsigned.exists_digit
  simp

/-- A number has no other characters than digits, signs, a point and a letter. -/
theorem IsNumber.isDigit_or_mem {cs : List Char} (number : IsNumber cs) {c : Char}
    (member : c ∈ cs) : c.isDigit = true ∨ c ∈ ['+', '-', '.', 'e', 'E'] := by
  obtain ⟨sign, unsigned, rfl, signed, whole, fraction, exponent, rfl, isWhole, isFraction,
    isExponent⟩ := number
  have inSign : ∀ sign ∈ [[], ['+'], ['-']], c ∈ sign → c ∈ ['+', '-', '.', 'e', 'E'] := by
    simp +contextual
  have letters : ∀ letter ∈ ['e', 'E'], letter ∈ ['+', '-', '.', 'e', 'E'] := by simp
  simp only [List.mem_append] at member
  rcases member with inside | inside | inside | inside
  · refine .inr (inSign sign ?_ inside)
    simp only [List.mem_cons, List.not_mem_nil, or_false] at signed ⊢
    exact signed.imp_right .inr
  · exact .inl (isWhole.isDigits.of_mem inside)
  · rcases isFraction with rfl | ⟨digits, rfl, isDigits⟩
    · cases inside
    · rcases List.mem_cons.mp inside with rfl | inside
      · simp
      · exact .inl (isDigits.of_mem inside)
  · rcases isExponent with rfl | ⟨letter, sign, digits, rfl, isLetter, isSign, isDigits⟩
    · cases inside
    · simp only [List.mem_cons, List.mem_append] at inside
      rcases inside with rfl | inside | inside
      · exact .inr (letters c isLetter)
      · exact .inr (inSign sign isSign inside)
      · exact .inl (isDigits.of_mem inside)

/-! ### Strings -/

/-- What stands between the quotation marks of a string. -/
inductive IsInner : List Char → Prop where
  | nil : IsInner []
  | unescaped {c : Char} {cs : List Char} : 0x20 ≤ c.toNat → c ≠ '\x22' → c ≠ '\\' → IsInner cs →
    IsInner (c :: cs)
  | escaped {c : Char} {cs : List Char} :
    c ∈ ['\x22', '\\', '/', 'b', 'f', 'n', 'r', 't'] → IsInner cs → IsInner ('\\' :: c :: cs)
  | unit {digits cs : List Char} : digits.length = 4 → digits.all isHexDigit = true → IsInner cs →
    IsInner ('\\' :: 'u' :: (digits ++ cs))

def IsString (cs : List Char) : Prop := ∃ inner, IsInner inner ∧ cs = '\x22' :: (inner ++ ['\x22'])

/-! ### Values -/

/-- A part of a text, with what stands around it. -/
structure Padded where
  before : List Char
  part : List Char
  after : List Char

namespace Padded

def text (s : Padded) : List Char := s.before ++ (s.part ++ s.after)

def IsBlank (s : Padded) : Prop := s.before.all isSpace = true ∧ s.after.all isSpace = true

end Padded

/-- The texts of parts with commas between them. -/
def row (parts : List (List Char)) : List Char := [','].intercalate parts

def memberText (member : Padded × Padded) : List Char := member.1.text ++ ':' :: member.2.text

inductive IsValue : List Char → Prop where
  | word {cs : List Char} : cs ∈ ["null".toList, "true".toList, "false".toList] → IsValue cs
  | number {cs : List Char} : IsNumber cs → IsValue cs
  | string {cs : List Char} : IsString cs → IsValue cs
  | emptyArray {space : List Char} : space.all isSpace = true → IsValue ('[' :: (space ++ [']']))
  | array {items : List Padded} : items ≠ [] → (∀ item ∈ items, item.IsBlank) →
    (∀ item ∈ items, IsValue item.part) → IsValue ('[' :: (row (items.map (·.text)) ++ [']']))
  | emptyObject {space : List Char} : space.all isSpace = true →
    IsValue ('\x7b' :: (space ++ ['\x7d']))
  | object {members : List (Padded × Padded)} : members ≠ [] →
    (∀ member ∈ members, member.1.IsBlank ∧ IsString member.1.part) →
    (∀ member ∈ members, member.2.IsBlank) → (∀ member ∈ members, IsValue member.2.part) →
    IsValue ('\x7b' :: (row (members.map memberText) ++ ['\x7d']))

/-- A text is a value with space around it. -/
def IsText (cs : List Char) : Prop := ∃ s : Padded, s.IsBlank ∧ IsValue s.part ∧ cs = s.text

end Deployments.Json.Grammar
