import Deployments.Fault
import Deployments.Text.Quoted
import Deployments.Value

/-!
The text of a value. Inside a larger value a text stands in quotation marks and dates show how
they are built; on its own a text is itself and a date has its standard text. An integer with too
many digits has no text.
-/

namespace Deployments.Value

open Decimal Text

/-- The text of a value that has no parts. -/
def shownAtom : Value → Except Fault String
  | null => .ok "None"
  | bool b => .ok (if b then "True" else "False")
  | int n => match integer? n with
    | some s => .ok s
    | none => .error .tooManyDigits
  | float x => .ok (NumberFormat.display.write x)
  | text s => .ok (quoted s)
  | bytes bs => .ok (quotedBytes bs)
  | date d => .ok d.shown
  | moment m => .ok m.shown
  | again isList => .ok (if isList then "[...]" else "\x7b...\x7d")
  | list _ | tuple _ | set _ | dict _ => .ok ""

/-- The items of a tuple between parentheses; a single one has a comma behind it. -/
def tupleText : List String → String
  | [item] => "(" ++ item ++ ",)"
  | items => "(" ++ ", ".intercalate items ++ ")"

/-- The items of a set between braces; the empty set has a name, for empty braces are a mapping. -/
def setText (items : List String) : String :=
  if items.isEmpty then "set()" else "\x7b" ++ ", ".intercalate items ++ "\x7d"

mutual

/-- The text of a value inside a larger one. -/
def shown : Value → Except Fault String
  | list items => (shownItems items).map fun texts => "[" ++ ", ".intercalate texts ++ "]"
  | tuple items => (shownItems items).map tupleText
  | set items => (shownItems items).map setText
  | dict entries =>
    (shownEntries entries).map fun texts => "\x7b" ++ ", ".intercalate texts ++ "\x7d"
  | v => v.shownAtom
termination_by structural x => x

def shownItems : List Value → Except Fault (List String)
  | [] => .ok []
  | v :: vs => do
    let head ← shown v
    let tail ← shownItems vs
    .ok (head :: tail)
termination_by structural x => x

/-- The texts of entries, with a colon between key and value. -/
def shownEntries : List (Value × Value) → Except Fault (List String)
  | [] => .ok []
  | (k, v) :: es => do
    let key ← shown k
    let value ← shown v
    let tail ← shownEntries es
    .ok ((key ++ ": " ++ value) :: tail)
termination_by structural x => x

end

mutual

/-- How many collections stand in one another, at most. -/
def depth : Value → Nat
  | list items | tuple items | set items => depthOfItems items + 1
  | dict entries => depthOfEntries entries + 1
  | _ => 0
termination_by structural x => x

def depthOfItems : List Value → Nat
  | [] => 0
  | v :: vs => max (depth v) (depthOfItems vs)
termination_by structural x => x

def depthOfEntries : List (Value × Value) → Nat
  | [] => 0
  | (k, v) :: es => max (max (depth k) (depth v)) (depthOfEntries es)
termination_by structural x => x

end

def display : Value → Except Fault Text
  | text s => .ok s
  | date d => .ok d.text
  | moment m => .ok (m.textWith " ")
  | v => v.shown.map Text.ofString

@[simp] theorem display_text (s : Text) : display (text s) = .ok s := rfl

end Deployments.Value
