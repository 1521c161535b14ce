import Deployments.Text
import Deployments.Text.Hex
import Deployments.Text.Printable

/-!
How a text or a row of bytes is shown inside a larger value: between quotation marks, with
escapes for what would not be legible. Single marks are used unless the content holds a single
mark and no double one.
-/

namespace Deployments.Text

def singleMark : Char := '\x27'

def doubleMark : Char := '\x22'

/-- The mark that needs the fewest escapes, the single one if both do. -/
def quotationMark (s : List Char) : Char :=
  if s.contains singleMark && !s.contains doubleMark then doubleMark else singleMark

/-- The escapes that have a letter of their own. -/
def letterEscape? (c : Char) : Option Char :=
  if c == '\t' then some 't' else if c == '\n' then some 'n' else if c == '\r' then some 'r'
  else none

/-- A code point in the shortest of the three numbered escapes. -/
def numberedEscape (n : Nat) : List Char :=
  if n < 0x100 then '\\' :: 'x' :: hexDigits 2 n
  else if n < 0x10000 then '\\' :: 'u' :: hexDigits 4 n
  else '\\' :: 'U' :: hexDigits 8 n

def escaped (mark c : Char) : List Char :=
  if c == mark || c == '\\' then ['\\', c]
  else match letterEscape? c with
    | some letter => ['\\', letter]
    | none => if isPrintable c then [c] else numberedEscape c.toNat

/-- The quoted form of a text; a surrogate is shown by its number. -/
def quoted (s : Text) : String :=
  let mark := quotationMark s.chars
  let body := s.toList.flatMap fun
    | .char c => escaped mark c
    | p => numberedEscape p.code
  String.ofList (mark :: (body ++ [mark]))

/-- The quoted form of bytes: bytes beyond ASCII are escaped, and a `b` stands in front. -/
def quotedBytes (bytes : List UInt8) : String :=
  let cs := bytes.map fun byte => Char.ofNat byte.toNat
  let mark := quotationMark cs
  let body := cs.flatMap fun c => if c.toNat < 128 then escaped mark c else numberedEscape c.toNat
  String.ofList ('b' :: mark :: (body ++ [mark]))

end Deployments.Text
