import Deployments.Decimal.Numeral
import Deployments.Reading.Checked
import Deployments.Text.Blank
import Deployments.Text.Bytes
import Deployments.Value.Shown

/-!
Lenient readings of single values. Text stands for a number where it writes one, numbers and
truth values stand for each other, and bytes stand for the text they encode.
-/

namespace Deployments.Reading

open Decimal Text

/-- A text, or bytes that encode one. -/
def text : Value → Checked Text
  | .text s => .ok s
  | .bytes bs => match decode? bs with
    | some s => .ok s
    | none => .refused .textEncoding
  | _ => .refused .textType

/-- What is read of a text of characters; one with a surrogate is refused. -/
def ofCharacters {α : Type} (read : String → Checked α) (t : Text) : Checked α :=
  match t.string? with
  | some s => read s
  | none => .refused .textEncoding

@[simp] theorem ofCharacters_ofString {α : Type} (read : String → Checked α) (s : String) :
    ofCharacters read s = read s := by
  rw [ofCharacters, string?_ofString]

theorem ofCharacters_eq_ok_iff {α : Type} {read : String → Checked α} {t : Text} {a : α} :
    ofCharacters read t = .ok a ↔ ∃ s : String, t = s ∧ read s = .ok a := by
  constructor
  · intro done
    unfold ofCharacters at done
    split at done
    next s found => exact ⟨s, string?_eq_some_iff.mp found, done⟩
    next => cases done
  · rintro ⟨s, rfl, done⟩
    rw [ofCharacters_ofString, done]

/-- The number that a text writes, with blanks around it and digits in groups. -/
def numberText (s : String) : Checked Binary64 :=
  match (ungrouped? (trimBy isBlank s.toList)).bind number? with
  | some x => .ok x
  | none => .refused .numberText

def number : Value → Checked Binary64
  | .float x => .ok x
  | .int n =>
    let x := Binary64.ofInt n
    if x.isFinite then .ok x else .refused .numberType
  | .bool b => .ok (.ofInt (if b then 1 else 0))
  | .text s => ofCharacters numberText s
  | .bytes bs => match decode? bs with
    | some s => numberText s
    | none => .refused .numberText
  | _ => .refused .numberType

/-- The sign and the digits of a text that writes an integer; a point and zeros may follow. -/
def integerDigits? (cs : List Char) : Option (Bool × List Char) :=
  let (negative, unsigned) := splitSign cs
  let whole := unsigned.takeWhile (· != '.')
  let plain := match unsigned.dropWhile (· != '.') with
    | [] => true
    | _ :: zeros => !zeros.isEmpty && zeros.all (· == '0')
  match ungrouped? whole with
  | some digits =>
    if plain && !digits.isEmpty && digits.all Char.isDigit then
      some (negative, digits.dropWhile (· == '0'))
    else none
  | none => none

/-- The integer that a text writes, with blanks around it and digits in groups. -/
def integerText (s : String) : Checked Int :=
  match integerDigits? (trimBy isBlank s.toList) with
  | some (negative, digits) =>
    if maxDigits < digits.length then .refused .integerSize
    else
      let n : Int := digitsValue digits
      .ok (if negative then -n else n)
  | none => .refused .integerText

/-- No signed word of 64 bits is as great. -/
def wordBound : Int := Nat.pow 2 63

/-- The integer lies strictly between the bounds of a word of 64 bits. -/
def isWord (n : Int) : Bool := decide (-wordBound < n) && decide (n < wordBound)

def integerOfNumber (x : Binary64) : Checked Int :=
  if !x.isFinite then .refused .notFinite
  else match x.toInt? with
    | none => .refused .integerFraction
    | some n => if isWord n then .ok n else .refused .integerSize

def integer : Value → Checked Int
  | .int n => .ok n
  | .bool b => .ok (if b then 1 else 0)
  | .float x => integerOfNumber x
  | .text s => ofCharacters integerText s
  | .bytes bs => match decode? bs with
    | some s => integerText s
    | none => .refused .integerText
  | _ => .refused .integerType

/-- The truth value that a word writes, in any case of its letters. -/
def truthText (s : String) : Checked Bool :=
  let word := String.ofList (s.toList.map Char.toLower)
  if ["0", "off", "f", "false", "n", "no"].contains word then .ok false
  else if ["1", "on", "t", "true", "y", "yes"].contains word then .ok true
  else .refused .booleanText

def truthOfInteger (n : Int) : Checked Bool :=
  if n = 0 then .ok false
  else if n = 1 then .ok true
  else if -wordBound ≤ n ∧ n < wordBound then .refused .booleanText
  else .refused .booleanType

def boolean : Value → Checked Bool
  | .bool b => .ok b
  | .int n => truthOfInteger n
  | .float x => match integerOfNumber x with
    | .ok n => truthOfInteger n
    | _ => .refused .booleanType
  | .text s => ofCharacters truthText s
  | .bytes bs => match decode? bs with
    | some s => truthText s
    | none => .refused .booleanText
  | _ => .refused .booleanType

/-- The text that a version stands for: a text is kept, another value gives its own text. -/
def versionText : Value → Checked Text
  | .text s => .ok s
  | v => match v.display with
    | .ok s => .ok s
    | .error _ => .refused .tooManyDigits

/-- Null, or what another reading gives. -/
def optional {α : Type} (read : Value → Checked α) : Value → Checked (Option α)
  | .null => .ok none
  | v => (read v).map some

def blankAsZero : Value → Value
  | .null => .int 0
  | .text s => if s.isEmpty then .int 0 else .text s
  | v => v

def nullAs (stand : Value) : Value → Value
  | .null => stand
  | v => v

/-- A vital: a number, where null and the empty text stand for zero. -/
def vital (v : Value) : Checked Binary64 := number (blankAsZero v)

/-- A list, a tuple or a set whose items are read one by one. -/
def list {α : Type} (read : Value → Checked α) : Value → Checked (List α)
  | .list items | .tuple items | .set items => Checked.items read 0 items
  | _ => .refused .listType

end Deployments.Reading
