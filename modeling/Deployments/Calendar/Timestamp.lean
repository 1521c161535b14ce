import Deployments.Calendar

/-!
Timestamps: `2001-12-14`, or a date with a time of day and perhaps an offset, as in
`2001-12-14t21:59:43.10-05:00` or `2001-12-14 21:59:43.10 -5`.
-/

namespace Deployments.Calendar

open Decimal

/-- The parts of a timestamp as they are written. -/
structure Timestamp where
  year : List Char
  month : List Char
  day : List Char
  time : Option (Nat × Nat × Nat × List Char)
  offset : Option Int
  deriving DecidableEq, Repr

/-- Between `least` and `most` digits, as many as there are, and the rest. -/
def digitRun (least most : Nat) (cs : List Char) : Option (List Char × List Char) :=
  let run := (cs.take most).takeWhile Char.isDigit
  if least ≤ run.length then some (run, cs.drop run.length) else none

def after (c : Char) : List Char → Option (List Char)
  | d :: ds => if c = d then some ds else none
  | [] => none

def isGap (c : Char) : Bool := c == ' ' || c == '\t'

namespace Timestamp

/-- The offset at the end: none, `Z`, or a sign with hours and perhaps minutes. -/
def offset? (cs : List Char) : Option (Option Int) :=
  if cs.isEmpty then some none
  else match cs.dropWhile isGap with
    | ['Z'] => some (some 0)
    | sign :: rest =>
      if sign = '+' ∨ sign = '-' then do
        let (hours, tail) ← digitRun 1 2 rest
        let minutes ← match tail with
          | [] => some 0
          | ':' :: ds => match digitRun 2 2 ds with
            | some (run, []) => some (digitsValue run)
            | _ => none
          | _ => none
        let total : Int := (digitsValue hours * 60 + minutes : Nat)
        some (some (if sign = '-' then -total else total))
      else none
    | [] => none

/-- The time of day and the offset, behind the gap that follows the date. -/
def time? (cs : List Char) : Option ((Nat × Nat × Nat × List Char) × Option Int) := do
  let (hour, cs) ← digitRun 1 2 cs
  let cs ← after ':' cs
  let (minute, cs) ← digitRun 2 2 cs
  let cs ← after ':' cs
  let (second, cs) ← digitRun 2 2 cs
  let (fraction, cs) := match cs with
    | '.' :: ds => (ds.takeWhile Char.isDigit, ds.dropWhile Char.isDigit)
    | _ => ([], cs)
  let offset ← offset? cs
  some ((digitsValue hour, digitsValue minute, digitsValue second, fraction), offset)

/-- The rest behind the gap between date and time: a letter, or blanks. -/
def afterGap : List Char → Option (List Char)
  | c :: cs =>
    if c = 'T' ∨ c = 't' then some cs
    else if isGap c then some (cs.dropWhile isGap)
    else none
  | [] => none

def read? (cs : List Char) : Option Timestamp := do
  let (year, cs) ← digitRun 4 4 cs
  let cs ← after '-' cs
  let (month, cs) ← digitRun 1 2 cs
  let cs ← after '-' cs
  let (day, cs) ← digitRun 1 2 cs
  if cs.isEmpty then some ⟨year, month, day, none, none⟩
  else do
    let cs ← afterGap cs
    let (time, offset) ← time? cs
    some ⟨year, month, day, some time, offset⟩

/-- The timestamp is recognised without being marked as one: a bare date needs all its digits. -/
def isEvident (t : Timestamp) : Bool :=
  t.time.isSome || t.month.length == 2 && t.day.length == 2

def microseconds (fraction : List Char) : Nat :=
  let digits := fraction.take 6
  digitsValue digits * Nat.pow 10 (6 - digits.length)

/-- The date or moment that a timestamp writes. An offset of a day or more is refused first. -/
def resolve (t : Timestamp) : Except CalendarFault (Date ⊕ Moment) := do
  let date := Date.of (digitsValue t.year) (digitsValue t.month) (digitsValue t.day)
  match t.time with
  | none => .inl <$> date
  | some (hour, minute, second, fraction) =>
    match t.offset with
    | some minutes => if 24 * 60 ≤ minutes.natAbs then throw (.offset minutes)
    | none => pure ()
    .inr <$> Moment.of (← date) hour minute second (microseconds fraction) t.offset

end Timestamp

end Deployments.Calendar
