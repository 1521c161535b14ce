import Deployments.Yaml.Fault

/-!
A place in a text: what is left of it, and how far it is from the beginning of the text and of
its line. The readers of tokens move it forward.
-/

namespace Deployments.Yaml

def isBreak (c : Char) : Bool := c == '\n' || c == '\x85' || c == '\u2028' || c == '\u2029'

def isGap (c : Char) : Bool := c == ' ' || c == '\t'

/-- The line ends here, or the text. -/
def endsLine : Option Char → Bool
  | none => true
  | some c => isBreak c

/-- A space, the end of a line or the end of the text follows. -/
def endsName : Option Char → Bool
  | none => true
  | some c => c == ' ' || isBreak c

/-- A space, a tab, the end of a line or the end of the text follows. -/
def endsWord : Option Char → Bool
  | none => true
  | some c => isGap c || isBreak c

structure Cursor where
  rest : List Char
  index : Nat
  line : Nat
  column : Nat
  deriving Repr, Inhabited

/-- A reader: it moves a cursor, or finds a fault. -/
abbrev Scan := StateT Cursor (Except Fault)

namespace Cursor

def start (cs : List Char) : Cursor := ⟨cs, 0, 0, 0⟩

/-- One character further. A byte order mark takes no room on its line. -/
def next (c : Cursor) : Cursor :=
  match c.rest with
  | [] => c
  | ch :: cs =>
    if isBreak ch then ⟨cs, c.index + 1, c.line + 1, 0⟩
    else ⟨cs, c.index + 1, c.line, if ch == '\uFEFF' then c.column else c.column + 1⟩

def forward : Nat → Cursor → Cursor
  | 0, c => c
  | n + 1, c => forward n c.next

def peek (c : Cursor) : Option Char := c.rest.head?

/-- Three given characters stand here, with the end of a word behind them. -/
def isAtMark (c : Cursor) (mark : List Char) : Bool :=
  c.rest.take 3 == mark && endsWord (c.rest.drop 3).head?

def startMark : List Char := ['-', '-', '-']

def endMark : List Char := ['.', '.', '.']

def isAtSeparator (c : Cursor) : Bool := c.isAtMark startMark || c.isAtMark endMark

end Cursor

namespace Scan

/-- The text is not as it should be. -/
def fail {α : Type} : Scan α := throw .malformed

/-- Nothing is read, but a condition has to hold. -/
def require (condition : Bool) : Scan Unit := if condition then pure () else fail

def peek : Scan (Option Char) := return (← get).peek

def skip (n : Nat) : Scan Unit := modify (Cursor.forward n)

/-- All characters up to the first that is not of a class. -/
def runOf (p : Char → Bool) : Scan (List Char) := do
  let run := (← get).rest.takeWhile p
  skip run.length
  return run

/-- The break at the end of a line, as it counts in a scalar; nothing elsewhere. -/
def lineBreak : Scan (List Char) := do
  match ← peek with
  | some c =>
    if isBreak c then
      skip 1
      return if c == '\u2028' || c == '\u2029' then [c] else ['\n']
    else return []
  | none => return []

/-- The rest of a line that may hold spaces and a comment only. -/
def restOfLine : Scan Unit := do
  let _ ← runOf (· == ' ')
  if (← peek) == some '#' then
    let _ ← runOf (!isBreak ·)
  require (endsLine (← peek))
  let _ ← lineBreak

end Scan

end Deployments.Yaml
