import Deployments.Calendar.Timestamp
import Deployments.Text

/-!
Tags: the types of nodes, and how the type of a scalar without a mark of its own is recognised
from its text.
-/

namespace Deployments.Yaml

open Calendar

inductive Tag where
  | null | bool | int | float | timestamp | str | binary
  | seq | map | set | omap | pairs
  | merge
  | value
  /-- A type that is not known. -/
  | unknown
  deriving DecidableEq, Repr, Inhabited

namespace Tag

def commonUri : String := "tag:yaml.org,2002:"

def byName : List (String × Tag) :=
  [("null", null), ("bool", bool), ("int", int), ("float", float), ("timestamp", timestamp),
   ("str", str), ("binary", binary), ("seq", seq), ("map", map), ("set", set), ("omap", omap),
   ("pairs", pairs), ("merge", merge), ("value", value)]

def ofUri (uri : String) : Tag :=
  ((byName.find? fun entry => commonUri ++ entry.1 == uri).map Prod.snd).getD unknown

/-- A value of the type is no key. -/
def isCollection : Tag → Bool
  | seq | map | set | omap | pairs => true
  | _ => false

def truthWords : List String :=
  ["yes", "Yes", "YES", "no", "No", "NO", "true", "True", "TRUE", "false", "False", "FALSE",
   "on", "On", "ON", "off", "Off", "OFF"]

/-- The words for nothing. -/
def nullWords : List String := ["~", "null", "Null", "NULL", ""]

def unsigned : List Char → List Char
  | '-' :: cs => cs
  | '+' :: cs => cs
  | cs => cs

def isGrouped (c : Char) : Bool := c.isDigit || c == '_'

/-- The text begins with a digit and goes on with digits and underscores. -/
def isGroupedRun (cs : List Char) : Bool :=
  (cs.head?.map Char.isDigit).getD false && cs.all isGrouped

/-- One or more groups of one or two digits below sixty, each behind a colon. -/
def isSixtieths (cs : List Char) : Bool :=
  match cs.splitBy fun _ d => d != ':' with
  | [] => false
  | groups => groups.all fun
    | [':', a] => a.isDigit
    | [':', a, b] => a.isDigit && decide (a ≤ '5') && b.isDigit
    | _ => false

/-- An integer in one of the bases, or in sixtieths. -/
def isInteger (cs : List Char) : Bool :=
  match unsigned cs with
  | ['0'] => true
  | '0' :: 'b' :: ds => !ds.isEmpty && ds.all fun c => c == '0' || c == '1' || c == '_'
  | '0' :: 'x' :: ds =>
    !ds.isEmpty && ds.all fun c =>
      c.isDigit || c == '_' || decide ('a' ≤ c) && decide (c ≤ 'f') ||
        decide ('A' ≤ c) && decide (c ≤ 'F')
  | '0' :: ds => ds.all fun c => c == '_' || decide ('0' ≤ c) && decide (c ≤ '7')
  | ds =>
    let rest := ds.dropWhile isGrouped
    isGroupedRun (ds.takeWhile isGrouped) && (rest.isEmpty || isSixtieths rest)

/-- The end of a number: nothing, or an exponent with its sign. -/
def isExponent : List Char → Bool
  | [] => true
  | e :: sign :: ds =>
    (e == 'e' || e == 'E') && (sign == '+' || sign == '-') && !ds.isEmpty && ds.all Char.isDigit
  | _ => false

def isNumber (cs : List Char) : Bool :=
  let whole := (unsigned cs).takeWhile isGrouped
  let rest := (unsigned cs).dropWhile isGrouped
  let word := String.ofList cs
  let special := String.ofList (unsigned cs)
  if [".inf", ".Inf", ".INF"].contains special || [".nan", ".NaN", ".NAN"].contains word then true
  else if isGroupedRun whole then
    match rest with
    | '.' :: ds => isExponent (ds.dropWhile isGrouped)
    | ':' :: _ =>
      isSixtieths (rest.takeWhile (· != '.')) &&
        match rest.dropWhile (· != '.') with
        | '.' :: ds => ds.all isGrouped
        | _ => false
    | _ => false
  else match cs with
    | '.' :: ds => isGroupedRun (ds.takeWhile isGrouped) && isExponent (ds.dropWhile isGrouped)
    | _ => false

/-- The type recognised from a text. A line break at its very end is passed over. -/
def ofPlain (text : Text) : Tag :=
  let cs := match text.chars.reverse with
    | '\n' :: c :: front => (c :: front).reverse
    | _ => text.chars
  let word := String.ofList cs
  if truthWords.contains word then bool
  else if isNumber cs then float
  else if isInteger cs then int
  else if word == "<<" then merge
  else if nullWords.contains word then null
  else if ((Timestamp.read? cs).map Timestamp.isEvident).getD false then timestamp
  else if word == "=" then value
  else if ["!", "&", "*"].contains word then unknown
  else str

example : ofPlain "3468.21" = float := by decide +kernel
example : ofPlain "1.2.3" = str := by decide +kernel
example : ofPlain "190:20:30" = int := by decide +kernel
example : ofPlain "0o14" = str := by decide +kernel

end Tag

end Deployments.Yaml
