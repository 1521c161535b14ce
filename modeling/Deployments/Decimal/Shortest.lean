import Deployments.Decimal.Binary64

/-!
The shortest decimal that reads back as a given number. For one digit, two digits and so on, the
two neighbours of the number on that decimal grid are tried in exact arithmetic; the first grid
with a hit wins, of two hits the nearer, and of two equally near the even one.
-/

namespace Deployments.Decimal

/-- The decimal `digits · 10 ^ exponent`. -/
structure Scientific where
  digits : Nat
  exponent : Int
  deriving DecidableEq, Repr, Inhabited

/-- `num / den` is the number scaled by four, and the decimals between `low / den` and `high / den`
read back as it. -/
structure Span where
  low : Nat
  num : Nat
  high : Nat
  den : Nat
  closed : Bool

namespace Span

/-- The span of `m · 2 ^ e`: half a unit to each side, or a quarter below a power of two. -/
def ofBinary (m : Nat) (e : Int) : Span :=
  let below := if m = Nat.pow 2 52 ∧ Binary64.minExponent < e then 1 else 2
  let up := Nat.pow 2 (e - 2).toNat
  ⟨(4 * m - below) * up, 4 * m * up, (4 * m + 2) * up, Nat.pow 2 (2 - e).toNat, m % 2 == 0⟩

/-- The decimal `d · 10 ^ k` lies in the span. -/
def admits (s : Span) (d : Nat) (k : Int) : Bool :=
  let left := d * Nat.pow 10 k.toNat * s.den
  let scale := Nat.pow 10 (-k).toNat
  if s.closed then decide (s.low * scale ≤ left) && decide (left ≤ s.high * scale)
  else decide (s.low * scale < left) && decide (left < s.high * scale)

/-- The greatest multiple of `10 ^ k` not above the number. -/
def floorAt (s : Span) (k : Int) : Nat :=
  s.num * Nat.pow 10 (-k).toNat / (s.den * Nat.pow 10 k.toNat)

/-- The neighbour on the grid of `10 ^ k` that is in the span, the nearer one if both are. -/
def nearest? (s : Span) (k : Int) : Option Nat :=
  let d := s.floorAt k
  match s.admits d k, s.admits (d + 1) k with
  | true, false => some d
  | false, true => some (d + 1)
  | false, false => none
  | true, true =>
    let twice := 2 * s.num * Nat.pow 10 (-k).toNat
    let middle := (2 * d + 1) * (s.den * Nat.pow 10 k.toNat)
    if twice < middle then some d
    else if middle < twice then some (d + 1)
    else if d % 2 = 0 then some d else some (d + 1)

/-- The number is below `10 ^ p`. -/
def isBelow (s : Span) (p : Int) : Bool :=
  decide (s.num * Nat.pow 10 (-p).toNat < s.den * Nat.pow 10 p.toNat)

/-- The least `p` such that the number is below `10 ^ p`, searched from an estimate. -/
def magnitude (s : Span) (m : Nat) (e : Int) : Int :=
  let start := ((m.log2 : Int) + e) * 30103 / 100000 - 1
  match [start, start + 1, start + 2, start + 3].find? s.isBelow with
  | some p => p
  | none => start + 4

end Span

/-- The shortest decimal that reads back as `m · 2 ^ e`, for a positive `m`. -/
def shortest (m : Nat) (e : Int) : Scientific :=
  let s := Span.ofBinary m e
  let p := s.magnitude m e
  let found := (List.range 17).findSome? fun (n : Nat) =>
    let k := p - ((n : Int) + 1)
    (s.nearest? k).map fun d => (⟨d, k⟩ : Scientific)
  found.getD ⟨s.floorAt (p - 17), p - 17⟩

example : shortest 7205759403792794 (-56) = ⟨1, -1⟩ := by decide +kernel
example : shortest 1 (-1074) = ⟨5, -324⟩ := by decide +kernel
example : shortest 4503599627370496 1 = ⟨9007199254740992, 0⟩ := by decide +kernel

end Deployments.Decimal
