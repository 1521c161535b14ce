import Deployments.Decimal.Numeral
import Deployments.Proofs.Json.Grammar
import Deployments.Proofs.Json.Joined

/-!
A decoder of JSON texts, independent of how they are written. The characters are put together to
tokens, one by one, and the tokens to a document. It is strict: it knows no other words, no other
forms of numbers and no other space than RFC 8259 does.
-/

namespace Deployments.Json

open Decimal Grammar

/-- What a text says. A number with a fraction or an exponent is kept as it is written, and the
members of an object are kept in order. -/
inductive Decoded where
  | null
  | bool (b : Bool)
  | integer (n : Int)
  | decimal (text : String)
  | text (s : Text)
  | list (items : List Decoded)
  | object (members : List (Text × Decoded))
  deriving Repr, Inhabited

namespace Decoder

/-! ### Tokens -/

inductive Token where
  | openList
  | closeList
  | openObject
  | closeObject
  | comma
  | colon
  | text (s : Text)
  | word (letters : List Char)
  deriving DecidableEq, Repr

def mark? : Char → Option Token
  | '[' => some .openList
  | ']' => some .closeList
  | '\x7b' => some .openObject
  | '\x7d' => some .closeObject
  | ',' => some .comma
  | ':' => some .colon
  | _ => none

/-- The character does not belong to a word that stands in front of it. -/
def isDelimiter (c : Char) : Bool := isSpace c || c == '\x22' || (mark? c).isSome

/-- The unit that a letter behind a backslash stands for. -/
def escape? : Char → Option Nat
  | '\x22' => some 0x22
  | '\\' => some 0x5c
  | '/' => some 0x2f
  | 'b' => some 0x08
  | 'f' => some 0x0c
  | 'n' => some 0x0a
  | 'r' => some 0x0d
  | 't' => some 0x09
  | _ => none

/-- The text that units of 16 bits stand for. Two halves side by side make up one character, and a
half that stands alone is kept. -/
def ofUnits (us : List Nat) : Text := .ofList (Point.joined (us.map .ofCode))

inductive Mode where
  | between
  | word (letters : List Char)
  | string (units : List Nat)
  /-- Behind a backslash in a string. -/
  | escape (units : List Nat)
  /-- In the number of a unit, of which some digits are still to come. -/
  | code (units : List Nat) (left value : Nat)
  deriving DecidableEq, Repr

/-- The tokens that are complete, and where the next character stands. -/
structure Scan where
  tokens : List Token
  mode : Mode
  deriving DecidableEq, Repr

namespace Scan

/-- What a character begins between the tokens. -/
def begin (tokens : List Token) (c : Char) : Scan :=
  if isSpace c then ⟨tokens, .between⟩
  else if c == '\x22' then ⟨tokens, .string []⟩
  else match mark? c with
    | some mark => ⟨tokens ++ [mark], .between⟩
    | none => ⟨tokens, .word [c]⟩

def step (s : Scan) (c : Char) : Option Scan :=
  match s.mode with
  | .between => some (begin s.tokens c)
  | .word letters =>
    if isDelimiter c then some (begin (s.tokens ++ [.word letters]) c)
    else some ⟨s.tokens, .word (letters ++ [c])⟩
  | .string read =>
    if c == '\x22' then
      some ⟨s.tokens ++ [.text (ofUnits read)], .between⟩
    else if c == '\\' then some ⟨s.tokens, .escape read⟩
    else if c.toNat < 0x20 then none
    else some ⟨s.tokens, .string (read ++ units (.char c))⟩
  | .escape read =>
    if c == 'u' then some ⟨s.tokens, .code read 4 0⟩
    else (escape? c).map fun unit => ⟨s.tokens, .string (read ++ [unit])⟩
  | .code read left value =>
    (Text.hexValue? c).map fun digit =>
      let unit := 16 * value + digit
      if left ≤ 1 then ⟨s.tokens, .string (read ++ [unit])⟩
      else ⟨s.tokens, .code read (left - 1) unit⟩

def finish? (s : Scan) : Option (List Token) :=
  match s.mode with
  | .between => some s.tokens
  | .word letters => some (s.tokens ++ [.word letters])
  | .string _ | .escape _ | .code _ _ _ => none

end Scan

/-- The tokens of characters, behind those that are complete. -/
def tokensBehind? (tokens : List Token) (cs : List Char) : Option (List Token) :=
  (cs.foldlM Scan.step ⟨tokens, .between⟩).bind Scan.finish?

def tokens? (cs : List Char) : Option (List Token) := tokensBehind? [] cs

/-! ### Words -/

/-- What follows the whole part of a number: a fraction, an exponent, or both. -/
def isRest : List Char → Bool
  | '.' :: more =>
    !(more.takeWhile Char.isDigit).isEmpty && (exponent? (more.dropWhile Char.isDigit)).isSome
  | cs => (exponent? cs).isSome

/-- Whether a minus stands in front, and what follows it. -/
def splitMinus : List Char → Bool × List Char
  | '-' :: cs => (true, cs)
  | cs => (false, cs)

/-- The number that a word is. A zero in front is the only digit of its whole part. -/
def decodeNumber? (cs : List Char) : Option Decoded :=
  let (negative, unsigned) := splitMinus cs
  let whole := unsigned.takeWhile Char.isDigit
  let rest := unsigned.dropWhile Char.isDigit
  if whole.isEmpty || (whole.head? == some '0' && whole != ['0']) then none
  else if rest.isEmpty then
    let n : Int := digitsValue whole
    some (.integer (if negative then -n else n))
  else if isRest rest then some (.decimal (String.ofList cs))
  else none

def word? (cs : List Char) : Option Decoded :=
  if cs = "null".toList then some .null
  else if cs = "true".toList then some (.bool true)
  else if cs = "false".toList then some (.bool false)
  else decodeNumber? cs

/-! ### Documents -/

/-- A list or an object that is still open, with what stands in it. -/
inductive Frame where
  | list (items : List Decoded)
  | member (members : List (Text × Decoded)) (name : Text)

/-- What may come next inside the open lists and objects, of which the innermost is the first. -/
inductive State where
  | value (stack : List Frame)
  | key (stack : List Frame) (members : List (Text × Decoded))
  | colon (stack : List Frame) (members : List (Text × Decoded)) (name : Text)
  /-- A document is complete. -/
  | after (stack : List Frame) (x : Decoded)

namespace State

/-- A list or an object may be closed behind its bracket and behind a value, not behind a comma. -/
def step : State → Token → Option State
  | .value stack, .openList => some (.value (.list [] :: stack))
  | .value stack, .openObject => some (.key stack [])
  | .value stack, .text s => some (.after stack (.text s))
  | .value stack, .word cs => (word? cs).map (.after stack)
  | .value (.list [] :: stack), .closeList => some (.after stack (.list []))
  | .key stack [], .closeObject => some (.after stack (.object []))
  | .key stack members, .text s => some (.colon stack members s)
  | .colon stack members name, .colon => some (.value (.member members name :: stack))
  | .after (.list items :: stack) x, .comma => some (.value (.list (items ++ [x]) :: stack))
  | .after (.list items :: stack) x, .closeList => some (.after stack (.list (items ++ [x])))
  | .after (.member members name :: stack) x, .comma => some (.key stack (members ++ [(name, x)]))
  | .after (.member members name :: stack) x, .closeObject =>
    some (.after stack (.object (members ++ [(name, x)])))
  | _, _ => none

def result? : State → Option Decoded
  | .after [] x => some x
  | _ => none

end State

def document? (tokens : List Token) : Option Decoded :=
  (tokens.foldlM State.step (.value [])).bind State.result?

end Decoder

/-- The document that a text decodes to. -/
def decode? (text : String) : Option Decoded :=
  (Decoder.tokens? text.toList).bind Decoder.document?

example : decode? "[1, \x7b\"a\\ud83d\\ude00\": -2.50e3\x7d, []]" =
    some (.list [.integer 1, .object [("a😀", .decimal "-2.50e3")], .list []]) := by cbv
example : decode? "[1,]" = none := by rfl
example : decode? "\"\\ud83d\"" = some (.text (.ofList [.surrogate 0x3d])) := by cbv

end Deployments.Json
