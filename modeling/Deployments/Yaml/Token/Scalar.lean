import Deployments.Text.Hex
import Deployments.Yaml.Token

/-!
Reading scalars. A single line break inside a scalar counts as a space and further ones as
themselves, but in a literal block, where all count as themselves.
-/

namespace Deployments.Yaml

open Scan Text

/-! ### Quoted scalars -/

/-- The character that an escape of one letter stands for. -/
def escapeOf? : Char → Option Char
  | '0' => some '\x00'
  | 'a' => some '\x07'
  | 'b' => some '\x08'
  | 't' => some '\t'
  | '\t' => some '\t'
  | 'n' => some '\n'
  | 'v' => some '\x0b'
  | 'f' => some '\x0c'
  | 'r' => some '\r'
  | 'e' => some '\x1b'
  | ' ' => some ' '
  | '\x22' => some '\x22'
  | '\\' => some '\\'
  | '/' => some '/'
  | 'N' => some '\x85'
  | '_' => some '\xa0'
  | 'L' => some '\u2028'
  | 'P' => some '\u2029'
  | _ => none

def escapeWidth? : Char → Option Nat
  | 'x' => some 2
  | 'u' => some 4
  | 'U' => some 8
  | _ => none

/-- The number that hexadecimal digits write; nothing if there are fewer than a given number. -/
def code? (width : Nat) (cs : List Char) : Option Nat :=
  let digits := (cs.take width).filterMap hexValue?
  if digits.length == width then some (digits.foldl (fun n d => 16 * n + d) 0) else none

/-- The code point of a number, which may be a surrogate. -/
def numbered (n : Nat) : Scan (List Point) := do
  if 0x80000000 ≤ n then throw .codeSize
  if 0x110000 ≤ n then throw .codePoint
  return [.ofCode n]

/-- The empty lines behind a line break inside quotes, without their blanks. -/
def quotedBreaks : Nat → Scan (List Char)
  | 0 => fail
  | fuel + 1 => do
    require !(← get).isAtSeparator
    let _ ← runOf isGap
    let ended ← lineBreak
    if ended.isEmpty then return []
    else return ended ++ (← quotedBreaks fuel)

def quotedGap : Scan (List Char) := do
  let blanks ← runOf isGap
  match ← peek with
  | none => fail
  | some c =>
    if isBreak c then
      let ended ← lineBreak
      let more ← quotedBreaks ((← get).rest.length + 1)
      return if ended != ['\n'] then ended ++ more else if more.isEmpty then [' '] else more
    else return blanks

/-- What an escape counts as, behind its sign. -/
def escape : Scan (List Point) := do
  match ← peek with
  | none => fail
  | some c =>
    match escapeOf? c, escapeWidth? c with
    | some e, _ =>
      skip 1
      return [.char e]
    | none, some width =>
      match code? width ((← get).rest.drop 1) with
      | some n =>
        skip (width + 1)
        numbered n
      | none => fail
    | none, none =>
      require (isBreak c)
      let _ ← lineBreak
      return (← quotedBreaks ((← get).rest.length + 1)).map .char

/-- The text inside quotes, up to the quote that ends it. -/
def quotedText (double : Bool) : Nat → Scan (List Point)
  | 0 => fail
  | fuel + 1 => do
    let run ← runOf fun c => !(c == '\x27' || c == '\x22' || c == '\\' || isGap c || isBreak c)
    let part ← match (← get).rest with
      | [] => fail
      | '\x27' :: '\x27' :: _ =>
        if double then skip 1; pure (some [.char '\x27']) else skip 2; pure (some [.char '\x27'])
      | '\x27' :: _ => skip 1; pure (if double then some [.char '\x27'] else none)
      | '\x22' :: _ => skip 1; pure (if double then none else some [.char '\x22'])
      | '\\' :: _ => do
        skip 1
        if double then pure (some (← escape)) else pure (some [.char '\\'])
      | _ => do pure (some ((← quotedGap).map .char))
    match part with
    | none => return run.map .char
    | some more => return run.map .char ++ more ++ (← quotedText double fuel)

def quotedScalar (double : Bool) : Scan Token := do
  skip 1
  return .scalar (.ofList (← quotedText double ((← get).rest.length + 1))) false

/-! ### Block scalars -/

/-- The sign that says what becomes of the line breaks at the end. -/
def chomping : Scan (Option Bool) := do
  match ← peek with
  | some '+' => skip 1; return some true
  | some '-' => skip 1; return some false
  | _ => return none

def increment : Scan (Option Nat) := do
  match ← peek with
  | some c =>
    if c.isDigit then
      require (c != '0')
      skip 1
      return some (c.toNat - 48)
    else return none
  | none => return none

/-- The sign and the digit of a block, in either order. -/
def blockHeader : Scan (Option Bool × Option Nat) := do
  let before ← chomping
  let width ← increment
  let behind ← if before.isNone && width.isSome then chomping else pure before
  require (endsName (← peek))
  restOfLine
  return (behind, width)

/-- The breaks of the empty lines in front of a block, and the widest indentation among them and
the first line. -/
def leadingLines : Nat → Scan (List Char × Nat)
  | 0 => return ([], 0)
  | fuel + 1 => do
    match ← peek with
    | some c =>
      if c == ' ' then
        skip 1
        let column := (← get).column
        let (breaks, widest) ← leadingLines fuel
        return (breaks, max column widest)
      else if isBreak c then
        let ended ← lineBreak
        let (breaks, widest) ← leadingLines fuel
        return (ended ++ breaks, widest)
      else return ([], 0)
    | none => return ([], 0)

/-- The breaks of empty lines, up to the indentation of the next line. -/
def emptyLines (indent : Nat) : Nat → Scan (List Char)
  | 0 => return []
  | fuel + 1 => do
    let cursor ← get
    skip ((cursor.rest.take (indent - cursor.column)).takeWhile (· == ' ')).length
    let ended ← lineBreak
    if ended.isEmpty then return []
    else return ended ++ (← emptyLines indent fuel)

/-- The cursor is at the beginning of a line of the block. -/
def isInBlock (indent : Nat) (cursor : Cursor) : Bool :=
  cursor.column == indent && !cursor.rest.isEmpty

/-- The lines of a block from the cursor on; of the last one, the break at its end and the breaks
of the empty lines behind it are kept apart. -/
def blockLines (folded : Bool) (indent : Nat) : Nat → Scan (List Char × List Char × List Char)
  | 0 => fail
  | fuel + 1 => do
    let isIndented (c : Option Char) : Bool := (c.map isGap).getD false
    let indented := isIndented (← peek)
    let line ← runOf (!isBreak ·)
    let ended ← lineBreak
    let breaks ← emptyLines indent ((← get).rest.length + 1)
    let cursor ← get
    if isInBlock indent cursor then
      let join :=
        if folded && ended == ['\n'] && !indented && !isIndented cursor.peek then
          (if breaks.isEmpty then [' '] else [])
        else ended
      let (text, last, tail) ← blockLines folded indent fuel
      return (line ++ join ++ breaks ++ text, last, tail)
    else return (line, ended, breaks)

def blockScalar (folded : Bool) (outer : Int) : Scan Token := do
  skip 1
  let (chomp, width) ← blockHeader
  let least := max (outer + 1).toNat 1
  let fuel := (← get).rest.length + 1
  let (breaks, indent) ← match width with
    | none => do
      let (breaks, widest) ← leadingLines fuel
      pure (breaks, max least widest)
    | some n => do
      let indent := least + n - 1
      pure (← emptyLines indent fuel, indent)
  let (text, last, tail) ←
    if isInBlock indent (← get) then do
      let (text, last, tail) ← blockLines folded indent fuel
      pure (breaks ++ text, last, tail)
    else pure ([], [], breaks)
  let ending := if chomp == some false then [] else last
  let kept := if chomp == some true then tail else []
  return .scalar (String.ofList (text ++ ending ++ kept)) false

/-! ### Plain scalars -/

/-- The characters of a plain scalar up to a gap or a sign that ends it. -/
def plainRun (flow : Bool) : List Char → List Char
  | [] => []
  | c :: cs =>
    let signs := [',', '[', ']', '\x7b', '\x7d']
    let endsHere : Bool := flow && (cs.head?.map signs.contains).getD false
    if isGap c || isBreak c || c == ':' && (endsWord cs.head? || endsHere)
        || flow && (c == '?' || signs.contains c) then []
    else c :: plainRun flow cs

/-- The breaks of the empty lines in a gap; nothing if a document ends there. -/
def plainBreaks : Nat → Scan (Option (List Char))
  | 0 => fail
  | fuel + 1 => do
    let _ ← runOf (· == ' ')
    let ended ← lineBreak
    if ended.isEmpty then return some []
    else if (← get).isAtSeparator then return none
    else return (← plainBreaks fuel).map (ended ++ ·)

/-- What a gap in a plain scalar counts as, and whether a line ended in it. -/
def plainGap : Scan (List Char × Bool) := do
  let blanks ← runOf (· == ' ')
  let ended ← lineBreak
  if ended.isEmpty then return (blanks, false)
  else if (← get).isAtSeparator then return ([], true)
  else match ← plainBreaks ((← get).rest.length + 1) with
    | none => return ([], true)
    | some breaks =>
      let gap := if ended != ['\n'] then ended ++ breaks
        else if breaks.isEmpty then [' '] else breaks
      return (gap, true)

/-- The text of a plain scalar, and whether a line ended in the gap behind it. -/
def plainText (flow : Bool) (indent : Nat) : Nat → Scan (List Char × Bool)
  | 0 => fail
  | fuel + 1 => do
    let run := plainRun flow (← get).rest
    if run.isEmpty then return ([], false)
    skip run.length
    let (gap, ended) ← plainGap
    let cursor ← get
    if gap.isEmpty || cursor.peek == some '#' || !flow && decide (cursor.column < indent) then
      return (run, ended)
    else
      let (more, endedLater) ← plainText flow indent fuel
      return if more.isEmpty then (run, ended) else (run ++ gap ++ more, endedLater)

/-- The plain scalar inside a collection of a given indentation, and whether a line ended behind
it. -/
def plainScalar (flow : Bool) (outer : Int) : Scan (Token × Bool) := do
  let (text, ended) ← plainText flow (outer + 1).toNat ((← get).rest.length + 1)
  return (.scalar (String.ofList text) true, ended)

end Deployments.Yaml
