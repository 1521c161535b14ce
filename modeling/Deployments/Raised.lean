import Deployments.Value.Shown

/-!
What a director's call raises instead of an answer: the kind of the error, the values it carries,
and its text.
-/

namespace Deployments

structure Raised where
  kind : String
  args : List Value
  deriving Repr, Inhabited

namespace Raised

/-- The kinds that end a program and are never handled on the way. -/
def endings : List String := ["KeyboardInterrupt", "SystemExit", "GeneratorExit"]

def isOrdinary (e : Raised) : Bool := !endings.contains e.kind

/-- The kinds of system errors, by their numbers. -/
def systemKinds : List (Int × String) :=
  [(11, "BlockingIOError"), (114, "BlockingIOError"), (115, "BlockingIOError"),
   (32, "BrokenPipeError"), (108, "BrokenPipeError"), (10, "ChildProcessError"),
   (103, "ConnectionAbortedError"), (111, "ConnectionRefusedError"),
   (104, "ConnectionResetError"), (17, "FileExistsError"), (2, "FileNotFoundError"),
   (21, "IsADirectoryError"), (20, "NotADirectoryError"), (4, "InterruptedError"),
   (1, "PermissionError"), (13, "PermissionError"), (3, "ProcessLookupError"),
   (110, "TimeoutError")]

/-- The general kind of system errors, and another name of it. -/
def systemKind : String := "OSError"

/-- The system errors that have no number of their own among the kinds. -/
def otherSystemKinds : List String := [systemKind, "ConnectionError"]

/-- The kind is one of system errors. -/
def isSystem (kind : String) : Bool :=
  otherSystemKinds.contains kind || systemKinds.any fun entry => entry.2 == kind

def number? : Value → Option Int
  | .int n => some n
  | .bool b => some (if b then 1 else 0)
  | _ => none

/-- The kind that is reported: a general system error with a known number has a kind of its own. -/
def reportedKind (e : Raised) : String :=
  match e.args with
  | first :: _ :: rest =>
    if e.kind == systemKind && decide (rest.length ≤ 3) then
      ((number? first).bind fun n => systemKinds.lookup n).getD e.kind
    else e.kind
  | _ => e.kind

/-- The kind for a deployment that a director does not know. -/
def notFoundKind : String := "DeploymentNotFoundError"

/-- The error for a deployment that a director does not know. -/
def notFound (name : Text) : Raised := ⟨notFoundKind, [.text name]⟩

/-- The kind for a key that is missing, whose text shows the key. -/
def missingKeyKind : String := "KeyError"

/-- The text of values that an error carries: nothing, the one value, or all of them. -/
def argsText (args : List Value) : Except Fault Text :=
  match args with
  | [] => .ok ""
  | [v] => v.display
  | vs => (Value.tuple vs).display

/-- The text of a system error with a number, and perhaps with one file or two; the second one has
the last place of three. -/
def systemText (number reason : Value) (files : List Value) : Except Fault Text := do
  let front : Text := "[Errno " ++ (← number.display) ++ "] " ++ (← reason.display)
  match files with
  | [] | .null :: _ => return front
  | [file, _, .null] => return front ++ ": " ++ (← file.shown)
  | [file, _, other] => return front ++ ": " ++ (← file.shown) ++ " -> " ++ (← other.shown)
  | file :: _ => return front ++ ": " ++ (← file.shown)

/-- The greatest depth of the values that an error carries with which its text can be made. Each
collection takes one of the calls that may be under way at once. -/
def depthLimit : Nat := 1000

/-- What the error says, by its kind. -/
def kindText (e : Raised) : Except Fault Text :=
  if e.kind == notFoundKind then
    match e.args with
    | [name] => return "Deployment \x60" ++ (← name.display) ++ "\x60 not found"
    | args => argsText args
  else if e.kind == missingKeyKind then
    match e.args with
    | [key] => key.shown.map Text.ofString
    | args => argsText args
  else if isSystem e.kind then
    match e.args with
    | number :: reason :: files =>
      if files.length ≤ 3 then systemText number reason files else argsText e.args
    | args => argsText args
  else argsText e.args

/-- The text of the error, unless it carries a value that has none: one that is too deep, or that
holds a number with too many digits. -/
def text (e : Raised) : Except Fault Text :=
  if depthLimit < Value.depthOfItems e.args then .error .tooDeep else e.kindText

/-- The text of the error; empty where it has none. -/
def message (e : Raised) : Text := e.text.toOption.getD ""

example : (notFound "cf").message = "Deployment \x60cf\x60 not found" := by rfl

end Raised

end Deployments
