import Deployments.Fault
import Deployments.Text.Bytes

/-!
Defects: what is wrong at one place of a raw value. A reading collects them; each says where it
stands and why the value is refused.
-/

namespace Deployments.Reading

/-- One step of the way to a place: under a name, or at a position. -/
inductive Place where
  | name (s : Text)
  | position (i : Int)
  deriving DecidableEq, Repr, Inhabited

inductive Cause where
  | missing
  | textType
  | textEncoding
  | numberType
  | numberText
  | integerType
  | integerText
  | integerFraction
  | integerSize
  | notFinite
  | booleanType
  | booleanText
  | listType
  | dictType
  | recordType (title : String)
  | unknownLevel
  | tooManyDigits
  deriving DecidableEq, Repr, Inhabited

namespace Cause

def label : Cause → String
  | missing => "missing"
  | textType => "string_type"
  | textEncoding => "string_unicode"
  | numberType => "float_type"
  | numberText => "float_parsing"
  | integerType => "int_type"
  | integerText => "int_parsing"
  | integerFraction => "int_from_float"
  | integerSize => "int_parsing_size"
  | notFinite => "finite_number"
  | booleanType => "bool_type"
  | booleanText => "bool_parsing"
  | listType => "list_type"
  | dictType => "dict_type"
  | recordType _ => "model_type"
  | unknownLevel | tooManyDigits => "value_error"

def message : Cause → String
  | missing => "Field required"
  | textType => "Input should be a valid string"
  | textEncoding =>
    "Input should be a valid string, unable to parse raw data as a unicode string"
  | numberType => "Input should be a valid number"
  | numberText => "Input should be a valid number, unable to parse string as a number"
  | integerType => "Input should be a valid integer"
  | integerText => "Input should be a valid integer, unable to parse string as an integer"
  | integerFraction => "Input should be a valid integer, got a number with a fractional part"
  | integerSize => "Unable to parse input string as an integer, exceeded maximum size"
  | notFinite => "Input should be a finite number"
  | booleanType => "Input should be a valid boolean"
  | booleanText => "Input should be a valid boolean, unable to interpret input"
  | listType => "Input should be a valid list"
  | dictType => "Input should be a valid dictionary"
  | recordType title => "Input should be a valid dictionary or instance of " ++ title
  | unknownLevel =>
    "Value error, Log level must be one of DEBUG, INFO, WARNING, ERROR, CRITICAL"
  | tooManyDigits => "Value error, " ++ Fault.digitLimitMessage

end Cause

structure Defect where
  path : List Place
  cause : Cause
  deriving DecidableEq, Repr, Inhabited

/-- The place as a report tells it, which cannot tell surrogates. -/
def Place.reported : Place → Place
  | .name s => .name s.replaced
  | .position i => .position i

/-- Where the defect stands, as a report tells it. -/
def Defect.location (d : Defect) : List Place := d.path.map Place.reported

def Defect.under (place : Place) (d : Defect) : Defect := ⟨place :: d.path, d.cause⟩

/-- The first line of a report on the defects of a reading. -/
def report (title : String) (defects : List Defect) : String :=
  toString defects.length ++ " validation error" ++ (if defects.length = 1 then "" else "s") ++
    " for " ++ title

end Deployments.Reading
