/-!
Faults: what stops an operation outright. Most of them say that a value has not the shape an
operation takes for granted. A fault is kept as its cause; its wording is `Fault.message`.
-/

namespace Deployments

/-- What stops an operation outright. Types are named as messages name them. -/
inductive Fault where
  /-- The items of a value without items were asked for. -/
  | notIterable (type : String)
  /-- A field was asked of a value that has none of this name. -/
  | missingAttribute (type field : String)
  /-- A document that has to be a mapping is something else. -/
  | notMapping (reader type : String)
  /-- A mapping of named fields has a key that is no text. -/
  | keyNotText
  /-- One of the texts to be joined is no text. -/
  | itemNotText (index : Nat) (type : String)
  | tooManyDigits
  /-- The text was asked for of a value in which collections stand in one another too deep. -/
  | tooDeep
  /-- A walk through a value that contains itself does not come to an end. -/
  | endless
  deriving DecidableEq, Repr, Inhabited

namespace Fault

def digitLimitMessage : String :=
  "Exceeds the limit (4300 digits) for integer string conversion; " ++
    "use sys.set_int_max_str_digits() to increase the limit"

def message : Fault → String
  | notIterable type => "'" ++ type ++ "' object is not iterable"
  | missingAttribute type field => "'" ++ type ++ "' object has no attribute '" ++ field ++ "'"
  | notMapping reader type => reader ++ "() argument after ** must be a mapping, not " ++ type
  | keyNotText => "keywords must be strings"
  | itemNotText index type =>
    "sequence item " ++ toString index ++ ": expected str instance, " ++ type ++ " found"
  | tooManyDigits => digitLimitMessage
  | tooDeep => "maximum recursion depth exceeded while getting the repr of an object"
  | endless => "maximum recursion depth exceeded"

end Fault

end Deployments
