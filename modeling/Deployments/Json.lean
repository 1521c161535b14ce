import Deployments.Decimal.Notation
import Deployments.Fault
import Deployments.Text.Hex
import Deployments.Value

/-!
Documents in JSON and their indented text. The text is ASCII: other characters are escaped by the
numbers of their units of 16 bits.
-/

namespace Deployments

open Decimal Text

/-- A document. The members of an object are kept in order. -/
inductive Json where
  | null
  | bool (b : Bool)
  | int (n : Int)
  | float (x : Binary64)
  | text (s : Text)
  | list (items : List Json)
  | object (members : List (Text × Json))
  deriving Repr, Inhabited

namespace Json

/-- The units of 16 bits of a code point: two of a character beyond them, which are surrogates. -/
def units (p : Point) : List Nat :=
  let n := p.code
  if n < 0x10000 then [n]
  else [0xd800 + (n - 0x10000) / 0x400, 0xdc00 + (n - 0x10000) % 0x400]

def escapedUnits (p : Point) : List Char :=
  (units p).flatMap fun unit => '\\' :: 'u' :: hexDigits 4 unit

def escaped (c : Char) : List Char :=
  if c == '\x22' then ['\\', '\x22']
  else if c == '\\' then ['\\', '\\']
  else if c == '\n' then ['\\', 'n']
  else if c == '\r' then ['\\', 'r']
  else if c == '\t' then ['\\', 't']
  else if c == '\x0c' then ['\\', 'f']
  else if c == '\x08' then ['\\', 'b']
  else if 0x20 ≤ c.toNat ∧ c.toNat ≤ 0x7e then [c]
  else escapedUnits (.char c)

def escapedPoint : Point → List Char
  | .char c => escaped c
  | p => escapedUnits p

def quoted (s : Text) : List Char :=
  '\x22' :: (s.toList.flatMap escapedPoint ++ ['\x22'])

def margin (depth : Nat) : List Char := List.replicate (2 * depth) ' '

/-- Lines between brackets, each one deeper than the brackets; nothing between them if there are
no lines. -/
def bracketed (opening closing : Char) (depth : Nat) (lines : List (List Char)) : List Char :=
  if lines.isEmpty then [opening, closing]
  else
    let separator := ',' :: '\n' :: margin (depth + 1)
    opening :: '\n' :: (margin (depth + 1) ++ separator.intercalate lines ++
      '\n' :: margin depth ++ [closing])

mutual

/-- The text of a document that stands at a depth. An integer with too many digits has none. -/
def write (depth : Nat) : Json → Except Fault (List Char)
  | null => .ok "null".toList
  | bool b => .ok (if b then "true".toList else "false".toList)
  | int n => match integer? n with
    | some s => .ok s.toList
    | none => .error .tooManyDigits
  | float x => .ok (NumberFormat.json.write x).toList
  | text s => .ok (quoted s)
  | list items => (writeItems (depth + 1) items).map (bracketed '[' ']' depth)
  | object members => (writeMembers (depth + 1) members).map (bracketed '\x7b' '\x7d' depth)
termination_by structural x => x

def writeItems (depth : Nat) : List Json → Except Fault (List (List Char))
  | [] => .ok []
  | x :: xs => do
    let head ← write depth x
    let tail ← writeItems depth xs
    .ok (head :: tail)
termination_by structural x => x

/-- The texts of members, with a colon between key and value. -/
def writeMembers (depth : Nat) : List (Text × Json) → Except Fault (List (List Char))
  | [] => .ok []
  | (key, x) :: rest => do
    let head ← write depth x
    let tail ← writeMembers depth rest
    .ok ((quoted key ++ ':' :: ' ' :: head) :: tail)
termination_by structural x => x

end

def render (x : Json) : Except Fault String := (x.write 0).map String.ofList

mutual

def toValue : Json → Value
  | null => .null
  | bool b => .bool b
  | int n => .int n
  | float x => .float x
  | text s => .text s
  | list items => .list (itemValues items)
  | object members => .dict (memberValues members)
termination_by structural x => x

def itemValues : List Json → List Value
  | [] => []
  | x :: xs => x.toValue :: itemValues xs
termination_by structural x => x

def memberValues : List (Text × Json) → List (Value × Value)
  | [] => []
  | (key, x) :: rest => (.text key, x.toValue) :: memberValues rest
termination_by structural x => x

end

end Json

end Deployments
