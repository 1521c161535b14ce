/-!
Double-precision numbers, as far as the library needs them: they are read, compared and written,
and the few sums and products of sexagesimal numerals are taken. A number is kept as its mantissa
and exponent, so that every operation is exact arithmetic on naturals followed by one rounding.
-/

namespace Deployments.Decimal

/-- A double-precision number. A finite one is `± mantissa · 2 ^ exponent`. -/
inductive Binary64 where
  | nan
  | infinity (negative : Bool)
  | finite (negative : Bool) (mantissa : Nat) (exponent : Int)
  deriving DecidableEq, Repr, Inhabited

namespace Binary64

/-- The least exponent of a finite number. -/
def minExponent : Int := -1074

def maxExponent : Int := 971

/-- Each number has one form: the mantissa has 53 bits unless the exponent is the least one. -/
def Canonical : Binary64 → Prop
  | nan | infinity _ => True
  | finite _ m e => m < Nat.pow 2 53 ∧ minExponent ≤ e ∧ e ≤ maxExponent ∧
    (m < Nat.pow 2 52 → e = minExponent)

/-- Zero, with its sign. -/
def zero (negative : Bool) : Binary64 := finite negative 0 minExponent

/-- `num / den` to the nearest natural, a half to the even neighbour. -/
def divideToEven (num den : Nat) : Nat :=
  let quotient := num / den
  let rest := num % den
  if 2 * rest < den then quotient
  else if den < 2 * rest then quotient + 1
  else if quotient % 2 = 0 then quotient else quotient + 1

/-- The exponent at which `num / den` has a mantissa of 53 bits, or the least exponent. -/
def exponentOf (num den : Nat) : Int :=
  let e : Int := (num.log2 : Int) - den.log2 - 52
  let reaches : Bool :=
    if 0 ≤ e then decide (Nat.pow 2 52 * den * Nat.pow 2 e.toNat ≤ num)
    else decide (Nat.pow 2 52 * den ≤ num * Nat.pow 2 (-e).toNat)
  max (if reaches then e else e - 1) minExponent

/-- The number nearest to `± num / den`, a half going to the even mantissa. -/
def ofRatio (negative : Bool) (num den : Nat) : Binary64 :=
  if num = 0 then zero negative
  else
    let e := exponentOf num den
    let m :=
      if 0 ≤ e then divideToEven num (den * Nat.pow 2 e.toNat)
      else divideToEven (num * Nat.pow 2 (-e).toNat) den
    let carried : Nat × Int := if m = Nat.pow 2 53 then (Nat.pow 2 52, e + 1) else (m, e)
    if maxExponent < carried.2 then infinity negative else finite negative carried.1 carried.2

/-- The number nearest to an integer; infinite when it is out of range. -/
def ofInt (n : Int) : Binary64 := ofRatio (decide (n < 0)) n.natAbs 1

/-- The number nearest to `± digits · 10 ^ exponent`. -/
def ofDecimal (negative : Bool) (digits : Nat) (exponent : Int) : Binary64 :=
  if digits = 0 then zero negative
  else if 400 < exponent then infinity negative
  else if exponent < -(400 + (digits.log2 : Int)) then zero negative
  else if 0 ≤ exponent then ofRatio negative (digits * Nat.pow 10 exponent.toNat) 1
  else ofRatio negative digits (Nat.pow 10 (-exponent).toNat)

/-- The number nearest to `± m · 2 ^ e`. -/
def ofScaled (negative : Bool) (m : Nat) (e : Int) : Binary64 :=
  if 0 ≤ e then ofRatio negative (m * Nat.pow 2 e.toNat) 1
  else ofRatio negative m (Nat.pow 2 (-e).toNat)

def toInt? : Binary64 → Option Int
  | finite negative m e =>
    let magnitude? : Option Nat :=
      if 0 ≤ e then some (m * Nat.pow 2 e.toNat)
      else if m % Nat.pow 2 (-e).toNat = 0 then some (m / Nat.pow 2 (-e).toNat) else none
    magnitude?.map fun n => if negative then -(n : Int) else n
  | _ => none

def isFinite : Binary64 → Bool
  | finite .. => true
  | _ => false

def negate : Binary64 → Binary64
  | nan => nan
  | infinity negative => infinity !negative
  | finite negative m e => finite (!negative) m e

/-- The product, rounded once. -/
def mul : Binary64 → Binary64 → Binary64
  | finite a m e, finite b n f => ofScaled (a != b) (m * n) (e + f)
  | infinity a, infinity b => infinity (a != b)
  | infinity a, finite b n _ => if n = 0 then nan else infinity (a != b)
  | finite a m _, infinity b => if m = 0 then nan else infinity (a != b)
  | _, _ => nan

/-- The sum, rounded once; two opposite numbers add up to the positive zero. -/
def add : Binary64 → Binary64 → Binary64
  | finite a m e, finite b n f =>
    let low := min e f
    let scaled (negative : Bool) (m : Nat) (e : Int) : Int :=
      let magnitude : Int := (m * Nat.pow 2 (e - low).toNat : Nat)
      if negative then -magnitude else magnitude
    let total := scaled a m e + scaled b n f
    if total = 0 then zero (a && b) else ofScaled (decide (total < 0)) total.natAbs low
  | infinity a, infinity b => if a = b then infinity a else nan
  | infinity a, finite .. => infinity a
  | finite .., infinity b => infinity b
  | _, _ => nan

/-- Equality of numbers: the two zeros are equal, and nothing equals the undefined number. -/
def equal : Binary64 → Binary64 → Bool
  | finite a m e, finite b n f => (m == 0 && n == 0) || (a == b && m == n && e == f)
  | infinity a, infinity b => a == b
  | _, _ => false

example : ofDecimal false 1 (-1) = finite false 7205759403792794 (-56) := by decide +kernel
example : ofRatio false 9007199254740993 1 = finite false 4503599627370496 1 := by decide +kernel

end Binary64

end Deployments.Decimal
