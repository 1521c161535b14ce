import Deployments.Decimal.Shortest

/-!
Number text. A number is written with its shortest digits, positionally between `10 ^ -4` and
`10 ^ 16` and with an exponent elsewhere.
-/

namespace Deployments.Decimal

def natural (n : Nat) : List Char := Nat.toDigits 10 n

def integer (n : Int) : List Char :=
  if n < 0 then '-' :: natural n.natAbs else natural n.natAbs

/-- The longest integer that is converted to or from text, in digits. -/
def maxDigits : Nat := 4300

/-- The text of an integer, unless it has too many digits. -/
def integer? (n : Int) : Option String :=
  if (natural n.natAbs).length ≤ maxDigits then some (String.ofList (integer n)) else none

structure NumberFormat where
  /-- Positional notation is used while the point falls in front of this place or earlier … -/
  lastPoint : Int
  firstPoint : Int
  /-- The least number of digits of an exponent. -/
  exponentDigits : Nat
  nan : String
  infinity : String

/-- How values show a number: `0.0001`, `1e-05`, `1e+16`, `nan`, `inf`. -/
def NumberFormat.display : NumberFormat := ⟨16, -4, 2, "nan", "inf"⟩

/-- How a JSON document shows a number; the words are those of its common extension. -/
def NumberFormat.json : NumberFormat := ⟨16, -4, 2, "NaN", "Infinity"⟩

namespace NumberFormat

/-- The digits with the point at a place counted from their left end. -/
def positional (digits : List Char) (point : Int) : List Char :=
  if point ≤ 0 then '0' :: '.' :: (List.replicate (-point).toNat '0' ++ digits)
  else if digits.length ≤ point.toNat then
    digits ++ List.replicate (point.toNat - digits.length) '0' ++ ['.', '0']
  else digits.take point.toNat ++ '.' :: digits.drop point.toNat

/-- The digits with a point behind the first one, and the exponent. -/
def exponential (format : NumberFormat) (digits : List Char) (exponent : Int) : List Char :=
  let lead := match digits with
    | [] => []
    | [d] => [d]
    | d :: ds => d :: '.' :: ds
  let power := natural exponent.natAbs
  lead ++ ['e', if exponent < 0 then '-' else '+'] ++
    List.replicate (format.exponentDigits - power.length) '0' ++ power

def scientific (format : NumberFormat) (s : Scientific) : List Char :=
  let full := natural s.digits
  let digits := (full.reverse.dropWhile (· == '0')).reverse
  let point := s.exponent + full.length
  if format.firstPoint < point ∧ point ≤ format.lastPoint then positional digits point
  else format.exponential digits (point - 1)

def write (format : NumberFormat) : Binary64 → String
  | .nan => format.nan
  | .infinity negative => if negative then "-" ++ format.infinity else format.infinity
  | .finite negative m e =>
    let magnitude := if m = 0 then ['0', '.', '0'] else format.scientific (shortest m e)
    String.ofList (if negative then '-' :: magnitude else magnitude)

end NumberFormat

example : NumberFormat.display.write (.ofDecimal true 25 (-1)) = "-2.5" := by decide +kernel
example : NumberFormat.display.write (.ofDecimal false 1 16) = "1e+16" := by decide +kernel
example : NumberFormat.display.write (.ofDecimal false 1 (-5)) = "1e-05" := by decide +kernel
example : NumberFormat.display.write (.ofDecimal false 1 (-4)) = "0.0001" := by decide +kernel

end Deployments.Decimal
