import Deployments.Calendar
import Deployments.Text.Quoted

/-!
Why a text is no document, or a scalar not of the type it is marked or recognised as.
-/

namespace Deployments.Yaml

open Decimal Text

inductive Fault where
  /-- The text does not follow the grammar, or a node cannot stand where it stands. -/
  | malformed
  /-- An escape names a code point beyond the last one. -/
  | codePoint
  /-- An escape names a number beyond all that stand for code points in a word of 32 bits. -/
  | codeSize
  /-- A truth value is none of the words for it. -/
  | truthWord (word : String)
  /-- A number has no digits at all. -/
  | emptyNumber
  /-- An integer is not written in its base. -/
  | integerText (base : Nat) (text : String)
  /-- A number is not written as one. -/
  | numberText (text : String)
  | tooManyDigits (digits : Nat)
  /-- A timestamp is not written as one. -/
  | timestampText
  /-- A timestamp names no date or moment. -/
  | calendar (fault : CalendarFault)
  deriving DecidableEq, Repr, Inhabited

/-- The wording of a fault; one in the grammar has none of its own. -/
def Fault.message : Fault → String
  | malformed => ""
  | codePoint => "chr() arg not in range(0x110000)"
  | codeSize => "Python int too large to convert to C int"
  | truthWord word => quoted word
  | emptyNumber => "string index out of range"
  | integerText base text =>
    "invalid literal for int() with base " ++ toString base ++ ": " ++
      String.ofList ((quoted text).toList.take 200)
  | numberText text => "could not convert string to float: " ++ quoted text
  | tooManyDigits digits =>
    "Exceeds the limit (4300 digits) for integer string conversion: value has " ++
      toString digits ++ " digits; use sys.set_int_max_str_digits() to increase the limit"
  | timestampText => "'NoneType' object has no attribute 'groupdict'"
  | calendar fault => fault.message

end Deployments.Yaml
