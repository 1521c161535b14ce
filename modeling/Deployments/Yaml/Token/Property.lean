import Deployments.Text.Bytes
import Deployments.Text.Hex
import Deployments.Yaml.Token

/-!
Reading directives, anchors, aliases and tags.
-/

namespace Deployments.Yaml

open Scan Text

/-- A letter or digit of ASCII, a hyphen or an underscore. -/
def isNameChar (c : Char) : Bool := c.isAlphanum || c == '-' || c == '_'

/-- A character that may stand in the address of a tag, but for the escape sign. -/
def isUriChar (c : Char) : Bool :=
  c.isAlphanum || "-;/?:@&=+$,_.!~*\x27()[]".toList.contains c

/-- The name at a place, which may not be empty. -/
def name : Scan (List Char) := do
  let run ← runOf isNameChar
  require !run.isEmpty
  return run

def escapedBytes : Nat → Scan (List UInt8)
  | 0 => return []
  | fuel + 1 => do
    match (← get).rest with
    | '%' :: a :: b :: _ =>
      match hexValue? a, hexValue? b with
      | some high, some low =>
        skip 3
        return UInt8.ofNat (16 * high + low) :: (← escapedBytes fuel)
      | _, _ => fail
    | '%' :: _ => fail
    | _ => return []

def uriChars : Nat → Scan (List Char)
  | 0 => fail
  | fuel + 1 => do
    let run ← runOf isUriChar
    if (← peek) == some '%' then
      match decode? (← escapedBytes (← get).rest.length) with
      | some decoded => return run ++ decoded.toList ++ (← uriChars fuel)
      | none => fail
    else return run

/-- The address of a tag, which may not be empty. -/
def uri : Scan String := do
  let cursor ← get
  require ((cursor.peek.map fun c => c == '%' || isUriChar c).getD false)
  return String.ofList (← uriChars (cursor.rest.length + 1))

/-- The handle of a tag: `!`, `!!` or `!name!`. -/
def tagHandle : Scan String := do
  require ((← peek) == some '!')
  skip 1
  if (← peek) == some ' ' then return "!"
  let run ← runOf isNameChar
  require ((← peek) == some '!')
  skip 1
  return String.ofList ('!' :: (run ++ ['!']))

def tag : Scan Token := do
  let behind := (← get).rest.drop 1
  let token ←
    if behind.head? == some '<' then do
      skip 2
      let suffix ← uri
      require ((← peek) == some '>')
      skip 1
      pure (Token.tag none suffix)
    else if endsWord behind.head? then do
      skip 1
      pure (Token.tag none "!")
    else do
      let word := behind.takeWhile fun c => !(c == ' ' || isBreak c)
      let handle ← if word.contains '!' then tagHandle else do
        skip 1
        pure "!"
      pure (Token.tag (some handle) (← uri))
  require (endsName (← peek))
  return token

/-- The name of an anchor or alias, behind its sign. -/
def reference : Scan String := do
  skip 1
  let run ← name
  let next ← peek
  require (endsWord next || (next.map "?:,]\x7d%@\x60".toList.contains).getD false)
  return String.ofList run

def versionNumber : Scan Nat := do
  let run ← runOf Char.isDigit
  require !run.isEmpty
  return run.foldl (fun n c => 10 * n + (c.toNat - 48)) 0

def directive : Scan Token := do
  skip 1
  let word := String.ofList (← name)
  require (endsName (← peek))
  let token ←
    if word == "YAML" then do
      let _ ← runOf (· == ' ')
      let major ← versionNumber
      require ((← peek) == some '.')
      skip 1
      let _ ← versionNumber
      require (endsName (← peek))
      pure (Token.version major)
    else if word == "TAG" then do
      let _ ← runOf (· == ' ')
      let handle ← tagHandle
      require ((← peek) == some ' ')
      let _ ← runOf (· == ' ')
      let address ← uri
      require (endsName (← peek))
      pure (Token.handle handle address)
    else do
      let _ ← runOf (!isBreak ·)
      pure Token.remark
  restOfLine
  return token

end Deployments.Yaml
