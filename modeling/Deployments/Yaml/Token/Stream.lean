import Deployments.Yaml.Token.Property
import Deployments.Yaml.Token.Scalar

/-!
The tokens of a whole text. Whether a scalar, alias or collection is a key shows only at the colon
behind it, so that its place is kept, and the token for the key is put in front of it later. Such
a key stands on one line and is not longer than 1024 characters.
-/

namespace Deployments.Yaml

/-- A place where a key without a sign of its own may have begun. -/
structure PossibleKey where
  place : Nat
  /-- Nothing but a key can stand there. -/
  required : Bool
  index : Nat
  line : Nat
  column : Nat
  deriving Repr, Inhabited

structure Lexer where
  cursor : Cursor
  /-- The tokens read so far, the last one first. -/
  made : List Token
  count : Nat
  flow : Nat
  /-- The indentation of the innermost block collection, or -1. -/
  indent : Int
  /-- The indentations of the outer ones. -/
  outer : List Int
  /-- A key without a sign of its own may begin here. -/
  keyAllowed : Bool
  /-- The possible keys, at most one for each number of open flow collections. -/
  keys : List (Nat × PossibleKey)
  deriving Inhabited

namespace Lexer

def start (cs : List Char) : Lexer := ⟨.start cs, [], 0, 0, -1, [], true, []⟩

def emit (l : Lexer) (t : Token) : Lexer := { l with made := t :: l.made, count := l.count + 1 }

def emitAt (l : Lexer) (place : Nat) (t : Token) : Lexer :=
  let behind := l.count - place
  { l with made := l.made.take behind ++ t :: l.made.drop behind, count := l.count + 1 }

def read {α : Type} (l : Lexer) (scan : Scan α) : Except Fault (α × Lexer) :=
  (scan.run l.cursor).map fun (a, cursor) => (a, { l with cursor })

def emitRead (l : Lexer) (scan : Scan Token) : Except Fault Lexer :=
  (l.read scan).map fun (t, l) => l.emit t

/-- A token that is a number of characters long. -/
def emitSigns (l : Lexer) (n : Nat) (t : Token) : Lexer :=
  { l with cursor := l.cursor.forward n }.emit t

/-- Keys are allowed from here on, or are not. -/
def allowKey (l : Lexer) (allowed : Bool) : Lexer := { l with keyAllowed := allowed }

def column (l : Lexer) : Int := l.cursor.column

/-- The possible keys that can still become keys here. -/
def dropStaleKeys (l : Lexer) : Except Fault Lexer :=
  let isStale (k : PossibleKey) : Bool :=
    k.line != l.cursor.line || decide (1024 < l.cursor.index - k.index)
  if l.keys.any fun k => isStale k.2 && k.2.required then .error .malformed
  else .ok { l with keys := l.keys.filter fun k => !isStale k.2 }

/-- The possible key of the innermost collection is given up. -/
def dropKey (l : Lexer) : Except Fault Lexer :=
  if l.keys.any fun k => k.1 == l.flow && k.2.required then .error .malformed
  else .ok { l with keys := l.keys.filter fun k => k.1 != l.flow }

/-- A key may begin here. -/
def noteKey (l : Lexer) : Except Fault Lexer := do
  if l.keyAllowed then
    let l ← l.dropKey
    let required := l.flow == 0 && l.indent == l.column
    let key : PossibleKey :=
      ⟨l.count, required, l.cursor.index, l.cursor.line, l.cursor.column⟩
    return { l with keys := (l.flow, key) :: l.keys }
  else return l

/-- Block collections that are indented further than a column end. -/
def closeBlocks (column : Int) : Nat → Lexer → Lexer
  | 0, l => l
  | fuel + 1, l =>
    match l.outer with
    | [] => l
    | indent :: outer =>
      if column < l.indent then closeBlocks column fuel ({ l with indent, outer }.emit .blockEnd)
      else l

/-- Block collections that are indented further than a column end; none does inside a flow
collection. -/
def unwind (l : Lexer) (column : Int) : Lexer :=
  if l.flow = 0 then closeBlocks column l.outer.length l else l

/-- A block collection begins at a column that is further in, at a place among the tokens. -/
def openBlock (l : Lexer) (column : Int) (place : Nat) (t : Token) : Lexer :=
  if l.indent < column then
    { l with indent := column, outer := l.indent :: l.outer }.emitAt place t
  else l

/-- Spaces, comments and line breaks up to the next token; tells whether a line ended. -/
def gap : Nat → Scan Bool
  | 0 => return false
  | fuel + 1 => do
    let _ ← Scan.runOf (· == ' ')
    if (← Scan.peek) == some '#' then
      let _ ← Scan.runOf (!isBreak ·)
    let ended ← Scan.lineBreak
    if ended.isEmpty then return false
    else
      let _ ← gap fuel
      return true

/-- The cursor is moved to the next token. A line that ends outside flow collections allows a
key. -/
def toNextToken (l : Lexer) : Except Fault Lexer := do
  let l := if l.cursor.index == 0 && l.cursor.peek == some '\uFEFF' then
    { l with cursor := l.cursor.next } else l
  let (ended, l) ← l.read (gap (l.cursor.rest.length + 1))
  return if ended && l.flow == 0 then l.allowKey true else l

def betweenDocuments (l : Lexer) : Except Fault Lexer := do
  return (← (l.unwind (-1)).dropKey).allowKey false

def beginFlow (l : Lexer) (t : Token) : Except Fault Lexer := do
  let l ← l.noteKey
  return ({ l with flow := l.flow + 1 }.allowKey true).emitSigns 1 t

/-- The sign that ends a flow collection, of which one is open. -/
def endFlow (l : Lexer) (t : Token) : Except Fault Lexer := do
  if l.flow = 0 then throw .malformed
  let l ← l.dropKey
  return ({ l with flow := l.flow - 1 }.allowKey false).emitSigns 1 t

def flowEntry (l : Lexer) : Except Fault Lexer := do
  return (← (l.allowKey true).dropKey).emitSigns 1 .flowEntry

def blockEntry (l : Lexer) : Except Fault Lexer := do
  if l.flow == 0 && !l.keyAllowed then throw .malformed
  let l := if l.flow = 0 then l.openBlock l.column l.count .blockSequence else l
  return (← (l.allowKey true).dropKey).emitSigns 1 .blockEntry

def keySign (l : Lexer) : Except Fault Lexer := do
  if l.flow == 0 && !l.keyAllowed then throw .malformed
  let l := if l.flow = 0 then l.openBlock l.column l.count .blockMapping else l
  return (← (l.allowKey (l.flow == 0)).dropKey).emitSigns 1 .key

/-- The colon in front of a value; what stood at the possible key of the collection was a key. -/
def valueSign (l : Lexer) : Except Fault Lexer := do
  match l.keys.find? fun k => k.1 == l.flow with
  | some (_, key) =>
    let l := { l with keys := l.keys.filter fun k => k.1 != l.flow }.emitAt key.place .key
    let l := if l.flow = 0 then l.openBlock key.column key.place .blockMapping else l
    return (l.allowKey false).emitSigns 1 .value
  | none =>
    if l.flow == 0 && !l.keyAllowed then throw .malformed
    let l := if l.flow = 0 then l.openBlock l.column l.count .blockMapping else l
    return (← (l.allowKey (l.flow == 0)).dropKey).emitSigns 1 .value

/-- An alias, an anchor, a tag or a quoted scalar, each of which may begin a key. -/
def keyStart (l : Lexer) (scan : Scan Token) : Except Fault Lexer := do
  ((← l.noteKey).allowKey false).emitRead scan

def block (l : Lexer) (folded : Bool) : Except Fault Lexer := do
  (← (l.allowKey true).dropKey).emitRead (blockScalar folded l.indent)

/-- A plain scalar, which may begin a key. -/
def plain (l : Lexer) : Except Fault Lexer := do
  let l ← l.noteKey
  let ((t, ended), l) ← l.read (plainScalar (l.flow != 0) l.indent)
  return (l.allowKey ended).emit t

/-- A plain scalar can begin with a character in front of another one. -/
def startsPlain (flow : Bool) (c : Char) (next : Option Char) : Bool :=
  let signs := "-?:,[]\x7b\x7d#&*!|>\x27\x22%@\x60".toList
  !(isGap c || isBreak c || signs.contains c) ||
    !endsWord next && (c == '-' || !flow && (c == '?' || c == ':'))

def dispatch (l : Lexer) (c : Char) (next : Option Char) : Except Fault Lexer :=
  let isFlow := l.flow != 0
  if c == '%' && l.cursor.column == 0 then
    l.betweenDocuments.bind fun l => l.emitRead directive
  else if c == '-' && l.cursor.column == 0 && l.cursor.isAtMark Cursor.startMark then
    l.betweenDocuments.map fun l => l.emitSigns 3 .documentStart
  else if c == '.' && l.cursor.column == 0 && l.cursor.isAtMark Cursor.endMark then
    l.betweenDocuments.map fun l => l.emitSigns 3 .documentEnd
  else if c == '[' then l.beginFlow .flowSequence
  else if c == '\x7b' then l.beginFlow .flowMapping
  else if c == ']' then l.endFlow .flowSequenceEnd
  else if c == '\x7d' then l.endFlow .flowMappingEnd
  else if c == ',' then l.flowEntry
  else if c == '-' && endsWord next then l.blockEntry
  else if c == '?' && (isFlow || endsWord next) then l.keySign
  else if c == ':' && (isFlow || endsWord next) then l.valueSign
  else if c == '*' then l.keyStart (return .alias (← reference))
  else if c == '&' then l.keyStart (return .anchor (← reference))
  else if c == '!' then l.keyStart tag
  else if c == '|' && !isFlow then l.block false
  else if c == '>' && !isFlow then l.block true
  else if c == '\x27' then l.keyStart (quotedScalar false)
  else if c == '\x22' then l.keyStart (quotedScalar true)
  else if startsPlain isFlow c next then l.plain
  else .error .malformed

/-- The next token, or several that belong together; tells whether the text goes on. -/
def step (l : Lexer) : Except Fault (Lexer × Bool) := do
  let l ← (← l.toNextToken).dropStaleKeys
  let l := l.unwind l.column
  match l.cursor.rest with
  | [] => return ((← (l.unwind (-1)).dropKey), false)
  | c :: rest => return ((← l.dispatch c rest.head?), true)

/-- The tokens, the last one first, in front of the first place where a key may have begun. Those
from there on are not given out before it is known whether there is a key. -/
def settled (l : Lexer) : List Token :=
  let isOpen (k : PossibleKey) : Bool :=
    k.line == l.cursor.line && decide (l.cursor.index - k.index ≤ 1024)
  match ((l.keys.filter fun k => isOpen k.2).map fun k => k.2.place).min? with
  | some place => l.made.drop (l.count - place)
  | none => l.made

/-- All tokens that are given out, the last one first; a fault ends them. -/
def run : Nat → Lexer → List Token
  | 0, l => l.made
  | fuel + 1, l =>
    match l.step with
    | .ok (l, true) => run fuel l
    | .ok (l, false) => l.made
    | .error fault => .broken fault :: l.settled

end Lexer

def Token.ofChars (cs : List Char) : List Token :=
  (Lexer.run (cs.length + 1) (Lexer.start cs)).reverse

end Deployments.Yaml
