import Deployments.Log
import Deployments.Text.Upper
import Deployments.Value

/-!
Loggers and the hierarchy their dotted names form. The handlers of a logger write its lines and
those that loggers below it pass on; one that has been set up has a single handler and passes none
on. A line counts if its level reaches that of the nearest logger at or above its own that has a
level; the root is above all others. Whether it counts is found once for each logger and level and
then remembered until a logger is set up, also if a logger made later comes in between.
-/

namespace Deployments

/-- Why a logger could not be set up. -/
inductive SetupError where
  /-- The name is no text. -/
  | nameType
  /-- The level is no text. -/
  | levelType (type : String)
  | levelBytes
  /-- There is no such level. -/
  | unknownLevel (name : Text)
  | formatName
  | formatTable
  deriving DecidableEq, Repr, Inhabited

namespace SetupError

def plainFormat : String := "%(levelname)s:%(name)s:%(message)s"

def message : SetupError → Text
  | nameType => "A logger name must be a string"
  | levelType type => "'" ++ type ++ "' object has no attribute 'upper'"
  | levelBytes => "attribute name must be string, not 'bytes'"
  | unknownLevel name => "module 'logging' has no attribute '" ++ name ++ "'"
  | formatName => "Unknown level: '" ++ plainFormat ++ "'"
  | formatTable =>
    "Level not an integer or a valid string: \x7b'%': (<class 'logging.PercentStyle'>, '" ++
      plainFormat ++ "'), '\x7b': (<class 'logging.StrFormatStyle'>, " ++
      "'\x7blevelname\x7d:\x7bname\x7d:\x7bmessage\x7d'), " ++
      "'$': (<class 'logging.StringTemplateStyle'>, " ++
      "'$\x7blevelname\x7d:$\x7bname\x7d:$\x7bmessage\x7d')\x7d"

end SetupError

structure Logger where
  name : Text
  /-- The logger next above it; nothing stands for the root. -/
  above : Option Text
  /-- The names between it and that logger which had none when it was made. -/
  vacant : List Text
  /-- The number of its level; zero if it has none. -/
  level : Nat
  /-- The number of its handlers, each of which writes the lines that come to it. -/
  handlers : Nat
  /-- It passes lines on to the logger above it. -/
  propagates : Bool
  deriving DecidableEq, Repr, Inhabited

namespace Logger

/-- The logger with a level and a handler of its own, in place of those it had. -/
def setUp (level : Nat) (l : Logger) : Logger :=
  let l := { l with level }
  let l := { l with handlers := 0 }
  let l := { l with handlers := l.handlers + 1 }
  { l with propagates := false }

/-- The number of handlers that a line comes to on its way along the loggers. -/
def reached : List Logger → Nat
  | [] => 0
  | l :: ls => l.handlers + if l.propagates then reached ls else 0

end Logger

/-- What is written when a message is logged. -/
structure Written where
  lines : List LogLine
  /-- The message without a handler. -/
  bare : Option Text
  deriving DecidableEq, Repr, Inhabited

structure Registry where
  root : Logger
  loggers : List Logger
  /-- For loggers and levels whether such lines count, as far as it is known. -/
  found : List ((Text × Level) × Bool)
  deriving DecidableEq, Repr, Inhabited

namespace Registry

def rootName : Text := "root"

/-- The loggers when none has been set up. The root has the number of a level all the same, or zero
if lines of every level count. -/
def start (level : Nat) : Registry := ⟨⟨rootName, none, [], level, 0, true⟩, [], []⟩

/-- The loggers of a program that begins: the root lets warnings and what is worse pass. -/
def initial : Registry := start Level.warning.number

def isRootName (name : Text) : Bool := name == "" || name == rootName

/-- The names above the reversed name: what stands in front of its dots, from the last one on. No
name is empty, and none ends at the second of two dots. -/
def frontsFrom : List Point → List Text
  | .char '.' :: p :: ps => .ofList (p :: ps).reverse :: frontsFrom ps
  | _ :: ps => frontsFrom ps
  | [] => []

/-- The names above a name, the nearest first. -/
def namesAbove (name : Text) : List Text := frontsFrom name.toList.reverse

example : namesAbove "a.bc.d" = (["a.bc", "a"] : List Text) := by decide +kernel
example : namesAbove "a..b" = (["a."] : List Text) := by decide +kernel
example : namesAbove ".a" = [] := by decide +kernel

/-- The logger of a name, other than the root. -/
def find? (r : Registry) (name : Text) : Option Logger := r.loggers.find? (·.name == name)

def aboveName (l : Logger) : Text := l.above.getD rootName

/-- A logger made later comes in between, unless the name of the one above begins with its own. -/
def interpose (name : Text) (l : Logger) : Logger :=
  if l.vacant.contains name && !(aboveName l).startsWith name then { l with above := some name }
  else l

/-- The loggers with one of a given name, which is made if there is none. -/
def make (r : Registry) (name : Text) : Registry :=
  if isRootName name || (r.find? name).isSome then r
  else
    let isVacant (above : Text) : Bool := (r.find? above).isNone
    let names := namesAbove name
    let new : Logger :=
      ⟨name, (names.dropWhile isVacant).head?, names.takeWhile isVacant, 0, 0, true⟩
    { r with loggers := r.loggers.map (interpose name) ++ [new] }

/-- The logger of a name and the loggers above it, up to the root. -/
def chainFrom (r : Registry) : Nat → Option Text → List Logger
  | 0, _ => [r.root]
  | _ + 1, none => [r.root]
  | fuel + 1, some name =>
    match r.find? name with
    | some l => l :: chainFrom r fuel l.above
    | none => [r.root]

/-- The logger of a name and the loggers above it, up to the root. -/
def chain (r : Registry) (name : Text) : List Logger :=
  chainFrom r r.loggers.length (if isRootName name then none else some name)

/-- The number of the level that counts for a logger: that of the first one in the chain that has
a level. -/
def levelOf (r : Registry) (name : Text) : Nat :=
  (((r.chain name).find? (·.level != 0)).map (·.level)).getD 0

/-- The name of the logger itself; the root is known by two. -/
def ownName (name : Text) : Text := if isRootName name then rootName else name

/-- Whether a line counts: as it is remembered, or by the level that counts for its logger now. -/
def isEnabled (r : Registry) (line : LogLine) : Bool :=
  (r.found.lookup (ownName line.logger, line.level)).getD
    (decide (r.levelOf line.logger ≤ line.level.number))

/-- The lines that are written when a message is logged: one by each handler that it comes to, if
its level counts. -/
def lines (r : Registry) (line : LogLine) : List LogLine :=
  if r.isEnabled line then
    List.replicate (Logger.reached (r.chain line.logger))
      { line with logger := ownName line.logger }
  else []

/-- What is written of a message that counts and comes to no handler: its text alone, if it is a
warning or worse. -/
def bare (r : Registry) (line : LogLine) : Option Text :=
  if r.isEnabled line ∧ Logger.reached (r.chain line.logger) = 0 ∧
      Level.warning.number ≤ line.level.number then some line.message
  else none

/-- It is remembered whether such lines count. -/
def remember (r : Registry) (line : LogLine) : Registry :=
  { r with found := ((ownName line.logger, line.level), r.isEnabled line) :: r.found }

/-- The loggers after a message is logged, and what is written. -/
def log (r : Registry) (line : LogLine) : Registry × Written :=
  let r := r.make line.logger
  (r.remember line, ⟨r.lines line, r.bare line⟩)

def levelNumbers : List (Text × Nat) :=
  [("CRITICAL", 50), ("FATAL", 50), ("ERROR", 40), ("WARNING", 30), ("WARN", 30), ("INFO", 20),
   ("DEBUG", 10), ("NOTSET", 0)]

/-- The number of the level of a name, in any case of its letters. -/
def levelNumber (name : Text) : Except SetupError Nat :=
  let capitals := Text.upper name
  match levelNumbers.lookup capitals with
  | some n => .ok n
  | none =>
    if capitals == "BASIC_FORMAT" then .error .formatName
    else if capitals == "_STYLES" then .error .formatTable
    else .error (.unknownLevel capitals)

def levelOfValue : Value → Except SetupError Nat
  | .text s => levelNumber s
  | .bytes _ => .error .levelBytes
  | v => .error (.levelType v.typeName)

/-- The name that a value gives; one that counts as absent stands for the root. -/
def nameOfValue (v : Value) : Except SetupError Text :=
  match v with
  | .text s => .ok s
  | _ => if v.isTruthy then .error .nameType else .ok rootName

def update (r : Registry) (name : Text) (f : Logger → Logger) : Registry :=
  if isRootName name then { r with root := f r.root }
  else { r with loggers := r.loggers.map fun l => if l.name == name then f l else l }

/-- The loggers after one is set up with a level, or why it is not; it is made in any case. When a
level is given, all that is remembered is forgotten. -/
def setUp (r : Registry) (name : Text) (level : Value) : Registry × Except SetupError Logger :=
  let r := r.make name
  match levelOfValue level with
  | .error e => (r, .error e)
  | .ok n =>
    let r := { r.update name (Logger.setUp n) with found := [] }
    (r, .ok (if isRootName name then r.root else (r.find? name).getD r.root))

end Registry

end Deployments
