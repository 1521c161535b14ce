import Deployments.Text.Base64
import Deployments.Text.Blank
import Deployments.Text.Hex
import Deployments.Text.Split
import Deployments.Value
import Deployments.Yaml.Tag
import Deployments.Yaml.Fault

/-!
The values of scalars by their types. Integers are written in base two, eight, ten or sixteen, or
in sixtieths; underscores in numbers are passed over.
-/

namespace Deployments.Yaml.Scalar

open Calendar Decimal Text

/-- The letter behind a zero that tells a base. -/
def baseLetter? : Nat → Option Char
  | 2 => some 'b'
  | 8 => some 'o'
  | 16 => some 'x'
  | _ => none

/-- The digits without the sign of their base in front. -/
def withoutBase (base : Nat) : List Char → List Char
  | '0' :: c :: cs => if baseLetter? base == some c.toLower then cs else '0' :: c :: cs
  | cs => cs

def digit? (base : Nat) (c : Char) : Option Nat := (hexValue? c).filter (· < base)

/-- The integer that a text writes in a base, with spaces around it and a sign in front. -/
def integerIn (base : Nat) (cs : List Char) : Except Fault Int :=
  let (negative, unsigned) := splitSign ((trimBy isSpace cs).map asciiDigit)
  let digits := withoutBase base unsigned
  let values := (digits.takeWhile fun c => (digit? base c).isSome).filterMap (digit? base)
  if base = 10 ∧ maxDigits < values.length then .error (.tooManyDigits values.length)
  else if values.isEmpty || values.length != digits.length then
    .error (.integerText base (String.ofList cs))
  else
    let n : Int := ofDigits base values
    .ok (if negative then -n else n)

/-- The number of a text, with spaces around it. -/
def numberIn (cs : List Char) : Except Fault Binary64 :=
  match number? ((trimBy isSpace cs).map asciiDigit) with
  | some x => .ok x
  | none => .error (.numberText (String.ofList cs))

def integer (cs : List Char) : Except Fault Int :=
  let cs := cs.filter (· != '_')
  if cs.isEmpty then .error .emptyNumber
  else
    let (negative, unsigned) := splitSign cs
    let magnitude : Except Fault Int :=
      match unsigned with
      | [] => .error .emptyNumber
      | ['0'] => .ok 0
      | '0' :: 'b' :: ds => integerIn 2 ds
      | '0' :: 'x' :: ds => integerIn 16 ds
      | '0' :: _ => integerIn 8 unsigned
      | _ =>
        if unsigned.contains ':' then
          ((split ':' unsigned).mapM (integerIn 10)).map (·.foldl (fun n d => 60 * n + d) 0)
        else integerIn 10 unsigned
    magnitude.map fun n => if negative then -n else n

/-- The sum of parts, the last one counted once and each other one sixty times the next. -/
def sixtieths (parts : List Binary64) : Binary64 :=
  (parts.reverse.foldl (fun (sum, weight) x =>
    (Binary64.add sum (Binary64.mul x (Binary64.ofInt weight)), weight * 60))
    (Binary64.zero false, (1 : Int))).1

def number (cs : List Char) : Except Fault Binary64 :=
  let cs := (cs.filter (· != '_')).map Char.toLower
  if cs.isEmpty then .error .emptyNumber
  else
    let (negative, unsigned) := splitSign cs
    let magnitude : Except Fault Binary64 :=
      if unsigned == ".inf".toList then .ok (.infinity false)
      else if unsigned == ".nan".toList then .ok .nan
      else if unsigned.contains ':' then ((split ':' unsigned).mapM numberIn).map sixtieths
      else numberIn unsigned
    magnitude.map fun x => if negative then x.negate else x

def truth (cs : List Char) : Except Fault Bool :=
  let word := String.ofList (cs.map Char.toLower)
  if ["yes", "true", "on"].contains word then .ok true
  else if ["no", "false", "off"].contains word then .ok false
  else .error (.truthWord word)

def timestamp (cs : List Char) : Except Fault Value :=
  let written := match cs.reverse with
    | '\n' :: front => front.reverse
    | _ => cs
  match Timestamp.read? written with
  | none => .error .timestampText
  | some t => match t.resolve with
    | .ok (.inl date) => .ok (.date date)
    | .ok (.inr moment) => .ok (.moment moment)
    | .error fault => .error (.calendar fault)

def binary (cs : List Char) : Except Fault Value :=
  if cs.all fun c => decide (c.toNat < 128) then
    match decodeBase64? cs with
    | some bs => .ok (.bytes bs)
    | none => .error .malformed
  else .error .malformed

/-- The value of a scalar. Only texts have surrogates; a fault of another type shows a replacement
for each of them. -/
def value (tag : Tag) (text : Text) : Except Fault Value :=
  match tag with
  | .null => .ok .null
  | .bool => (truth text.chars).map .bool
  | .int => (integer text.chars).map .int
  | .float => (number text.chars).map .float
  | .timestamp => timestamp text.chars
  | .binary => binary text.chars
  | .str => .ok (.text text)
  | _ => .error .malformed

end Deployments.Yaml.Scalar
