import Deployments.Text

/-!
Log lines and their levels.
-/

namespace Deployments

inductive Level where
  | debug
  | info
  | warning
  | error
  | critical
  deriving DecidableEq, Repr, Inhabited

namespace Level

/-- All levels, the least first. -/
def all : List Level := [debug, info, warning, error, critical]

def name : Level → String
  | debug => "DEBUG"
  | info => "INFO"
  | warning => "WARNING"
  | error => "ERROR"
  | critical => "CRITICAL"

/-- The number of a level, by which levels are compared. -/
def number : Level → Nat
  | debug => 10
  | info => 20
  | warning => 30
  | error => 40
  | critical => 50

def ofName? (name : String) : Option Level := all.find? fun level => level.name == name

end Level

structure LogLine where
  logger : Text
  level : Level
  message : Text
  deriving DecidableEq, Repr, Inhabited

def childLogger (parent child : Text) : Text := parent ++ "." ++ child

end Deployments
