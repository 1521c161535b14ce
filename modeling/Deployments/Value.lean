import Deployments.Calendar
import Deployments.Text

/-!
Values: what documents and payloads are made of before they are read as records. Mappings keep
the order of their keys, and a key is any value; two keys are the same when they are equal as
numbers, texts, dates or tuples of such.
-/

namespace Deployments

open Decimal

inductive Value where
  | null
  | bool (b : Bool)
  | int (n : Int)
  | float (x : Binary64)
  | text (s : Text)
  | bytes (bs : List UInt8)
  | date (d : Date)
  | moment (m : Moment)
  | list (items : List Value)
  | tuple (items : List Value)
  | set (items : List Value)
  | dict (entries : List (Value × Value))
  /-- A list or a mapping inside itself, where it is not unfolded any more. -/
  | again (isList : Bool)
  deriving Repr, Inhabited, BEq

/-- The entries of a mapping, in order. -/
abbrev Entries := List (Value × Value)

namespace Value

def typeName : Value → String
  | null => "NoneType"
  | bool _ => "bool"
  | int _ => "int"
  | float _ => "float"
  | text _ => "str"
  | bytes _ => "bytes"
  | date _ => "datetime.date"
  | moment _ => "datetime.datetime"
  | list _ => "list"
  | tuple _ => "tuple"
  | set _ => "set"
  | dict _ => "dict"
  | again isList => if isList then "list" else "dict"

/-- A number as a key: a whole one counts as the integer it equals. -/
def numberKey? : Value → Option (Int ⊕ Binary64)
  | bool b => some (.inl (if b then 1 else 0))
  | int n => some (.inl n)
  | float x => some (match x.toInt? with
    | some n => .inl n
    | none => .inr x)
  | _ => none

/-- Two values that are no tuples are the same key. -/
def sameAtom (a b : Value) : Bool :=
  match a.numberKey?, b.numberKey? with
  | some x, some y => x == y
  | none, none =>
    match a, b with
    | null, null => true
    | text s, text t => s == t
    | bytes s, bytes t => s == t
    | date d, date e => d == e
    | moment m, moment n => m.same n
    | _, _ => false
  | _, _ => false

mutual

def sameKey : Value → Value → Bool
  | tuple xs, tuple ys => sameKeys xs ys
  | a, b => a.sameAtom b
termination_by structural x => x

/-- Two rows of values are the same keys one by one. -/
def sameKeys : List Value → List Value → Bool
  | [], [] => true
  | x :: xs, y :: ys => sameKey x y && sameKeys xs ys
  | _, _ => false
termination_by structural x => x

end

/-- The value counts as present: it is not null, false, zero or empty. -/
def isTruthy : Value → Bool
  | null => false
  | bool b => b
  | int n => n != 0
  | float x => !x.equal (Binary64.zero false)
  | text s => !s.isEmpty
  | bytes bs => !bs.isEmpty
  | date _ | moment _ | again _ => true
  | list items | tuple items | set items => !items.isEmpty
  | dict entries => !entries.isEmpty

/-- The items that a value is walked through by: code points, bytes, keys or items. -/
def items? : Value → Option (List Value)
  | text s => some (s.toList.map fun p => text (.ofList [p]))
  | bytes bs => some (bs.map fun byte => int byte.toNat)
  | list items | tuple items | set items => some items
  | dict entries => some (entries.map Prod.fst)
  | _ => none

end Value

namespace Entries

def field? (name : Text) : Entries → Option Value
  | [] => none
  | (.text key, value) :: rest => if key = name then some value else field? name rest
  | _ :: rest => field? name rest

/-- A key that is there keeps its place and gets the value; a new one comes last. -/
def insert : Entries → Value → Value → Entries
  | [], key, value => [(key, value)]
  | entry :: rest, key, value =>
    if entry.1.sameKey key then (entry.1, value) :: rest else entry :: insert rest key value

def ofList (entries : List (Value × Value)) : Entries :=
  entries.foldl (fun made entry => insert made entry.1 entry.2) []

end Entries

namespace Value

mutual

/-- The items of lists and the values of mappings lead from the value into itself, and on without
end. -/
def isEndless : Value → Bool
  | again _ => true
  | list items => anyEndless items
  | dict entries => anyEndlessEntry entries
  | _ => false
termination_by structural v => v

def anyEndless : List Value → Bool
  | [] => false
  | v :: vs => isEndless v || anyEndless vs
termination_by structural vs => vs

def anyEndlessEntry : List (Value × Value) → Bool
  | [] => false
  | (_, v) :: rest => isEndless v || anyEndlessEntry rest
termination_by structural entries => entries

end

end Value

/-- The order in which sets give their members. It does not depend on what the members stand for,
and is another one in another process. -/
structure SetOrder where
  arrange : List Value → List Value
  perm (items : List Value) : (arrange items).Perm items

/-- The members come as they are put in. -/
def SetOrder.asGiven : SetOrder := ⟨id, fun _ => .refl _⟩

namespace Value

/-- The set of the given values: of values that are the same key the first one. -/
def setOf (order : SetOrder) (items : List Value) : Value :=
  set (order.arrange
    (items.foldl (fun kept x => if kept.any (·.sameKey x) then kept else kept ++ [x]) []))

def record (fields : List (Text × Value)) : Value :=
  dict (fields.map fun field => (text field.1, field.2))

end Value

end Deployments
