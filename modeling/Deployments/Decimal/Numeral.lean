import Deployments.Decimal.Binary64
import Deployments.Text.Digit

/-!
Reading number text: digits and their value, digits in groups, signs, and decimals with a point
and an exponent.
-/

namespace Deployments.Decimal

def ofDigits (base : Nat) (digits : List Nat) : Nat :=
  digits.foldl (fun n d => base * n + d) 0

def digitsValue (cs : List Char) : Nat :=
  ofDigits 10 (cs.map fun c => c.toNat - 48)

/-- Every underscore stands between two digits; `afterDigit` says what stands in front. -/
def wellGrouped (afterDigit : Bool) : List Char → Bool
  | [] => true
  | '_' :: cs => afterDigit && (cs.head?.map Char.isDigit).getD false && wellGrouped false cs
  | c :: cs => wellGrouped c.isDigit cs

/-- The text without the underscores that stand singly between two digits; nothing if an
underscore stands elsewhere. -/
def ungrouped? (cs : List Char) : Option (List Char) :=
  if wellGrouped false cs then some (cs.filter (· != '_')) else none

/-- The sign in front, `true` for a minus, and what follows it. -/
def splitSign : List Char → Bool × List Char
  | '-' :: cs => (true, cs)
  | '+' :: cs => (false, cs)
  | cs => (false, cs)

/-- The power of ten behind the digits of a decimal: none, or the letter, a sign and digits. -/
def exponent? : List Char → Option Int
  | [] => some 0
  | c :: cs =>
    if c = 'e' ∨ c = 'E' then
      let (negative, ds) := splitSign cs
      if !ds.isEmpty && ds.all Char.isDigit then
        let n : Int := digitsValue ds
        some (if negative then -n else n)
      else none
    else none

/-- The digits and the power of ten of an unsigned decimal, which has a digit before or behind
its point. -/
def magnitude? (cs : List Char) : Option (Nat × Int) :=
  let whole := cs.takeWhile Char.isDigit
  let rest := cs.dropWhile Char.isDigit
  let (fraction, tail) := match rest with
    | '.' :: more => (more.takeWhile Char.isDigit, more.dropWhile Char.isDigit)
    | _ => ([], rest)
  if whole.isEmpty && fraction.isEmpty then none
  else (exponent? tail).map fun e => (digitsValue (whole ++ fraction), e - fraction.length)

/-- The number that a decimal or one of the words for the special numbers writes. -/
def number? (cs : List Char) : Option Binary64 :=
  let (negative, unsigned) := splitSign cs
  let word := String.ofList (unsigned.map Char.toLower)
  if word == "inf" || word == "infinity" then some (.infinity negative)
  else if word == "nan" then some .nan
  else (magnitude? unsigned).map fun (digits, e) => Binary64.ofDecimal negative digits e

theorem ofDigits_append (base : Nat) (ds : List Nat) (d : Nat) :
    ofDigits base (ds ++ [d]) = base * ofDigits base ds + d := by
  simp [ofDigits]

example : ungrouped? "1_000".toList = some "1000".toList := by decide +kernel
example : ungrouped? "1__0".toList = none := by decide +kernel
example : number? "-2.50e1".toList = some (.ofInt (-25)) := by decide +kernel
example : number? ".".toList = none := by decide +kernel

end Deployments.Decimal
