import Deployments.CommandLine
import Deployments.Decimal.Notation
import Deployments.Decimal.Numeral
import Deployments.Placeholder
import Deployments.Text.Blank
import Deployments.Text.Split

/-!
What the program says about its use, in lines that fit into the columns there are. A variable of
the environment may give their number in place of the terminal. Two columns stay free.
-/

namespace Deployments.CommandLine

open Text Decimal

/-- The variable of the environment that gives the number of columns. -/
def columnsVariable : String := "COLUMNS"

/-- The positive number that a text writes, in digits of any script. -/
def positive? (text : Text) : Option Nat :=
  let (negative, unsigned) := splitSign ((trimBy isBlank text.chars).map asciiDigit)
  match ungrouped? unsigned with
  | none => none
  | some digits =>
    if negative || digits.isEmpty || !digits.all Char.isDigit || maxDigits < digits.length then none
    else
      let n := digitsValue digits
      if n = 0 then none else some n

/-- The number of columns, if the terminal has so many. -/
def columns (env : Environment) (terminal : Nat) : Nat :=
  ((env columnsVariable).bind positive?).getD terminal

example : positive? " +1_20 " = some 120 := by decide +kernel
example : positive? "-40" = none := by decide +kernel

/-- The word that stands for the value of an option. -/
def Flag.metavariable : Flag → String
  | help => ""
  | config => "CONFIG"
  | logLevel => "\x7b" ++ String.ofList (Text.intercalate "," levels).chars ++ "\x7d"

/-- An option as it is called, short and long where it has both forms. -/
def Flag.invocation : Flag → String
  | help => "-h, --help"
  | flag => flag.title ++ " " ++ flag.metavariable

def Flag.usage : Flag → String
  | help => "[-h]"
  | flag => "[" ++ flag.title ++ " " ++ flag.metavariable ++ "]"

def Flag.description : Flag → String
  | help => "show this help message and exit"
  | config => "Path to configuration file (default: " ++ defaultConfig ++ ")"
  | logLevel => "Logging level (default: config value or LOG_LEVEL env var)"

def flags : List Flag := [.help, .config, .logLevel]

def spaces (n : Nat) : List Char := List.replicate n ' '

/-! ### Usage -/

/-- The parts in lines, where `line` is what stands in the one that has begun and `length` its
length with what stands in front of it. A part that is too long for a line has one of its own. -/
def usageLines (width indent : Nat) : Nat → List String → List String → List (List String)
  | _, line, [] => if line.isEmpty then [] else [line]
  | length, line, part :: parts =>
    if width < length + 1 + part.length ∧ line ≠ [] then
      line :: usageLines width indent (indent + part.length + 1) [part] parts
    else usageLines width indent (length + part.length + 1) (line ++ [part]) parts

def usagePrefix : String := "usage: "

/-- How the program is called. The options stand behind its name as far as they fit; if the name
leaves too little room, they begin on a line of their own. -/
def usage (width : Nat) : String :=
  let parts := flags.map Flag.usage
  let whole := usagePrefix ++ " ".intercalate (program :: parts)
  let behind := usagePrefix.length + program.length
  let indented (n : Nat) (lines : List (List String)) : String :=
    ("\n" ++ String.ofList (spaces n)).intercalate (lines.map " ".intercalate)
  if whole.length ≤ width then whole
  else if 4 * behind ≤ 3 * width then
    usagePrefix ++ indented (behind + 1)
      (usageLines width behind (usagePrefix.length - 1) [] (program :: parts))
  else
    usagePrefix ++ indented usagePrefix.length
      ([program] :: usageLines width (usagePrefix.length - 1) (usagePrefix.length - 1) [] parts)

/-! ### Descriptions -/

/-- The words of a text and the spaces between them. -/
def chunks (cs : List Char) : List (List Char) :=
  (split ' ' cs).intersperse [' ']

/-- Characters in blocks of a size, behind the block that has begun. -/
def blocks (size : Nat) (block : List Char) : List Char → List (List Char)
  | [] => [block]
  | c :: cs =>
    if block.length < size then blocks size (block ++ [c]) cs else block :: blocks size [c] cs

/-- A line without what is blank at its end; a blank line is none. -/
def finished (line : List (List Char)) : List (List Char) :=
  let line := if (line.getLastD [' ']).all isSpace then line.dropLast else line
  if line.isEmpty then [] else [line.flatten]

/-- Chunks in lines of a width, behind the line that has begun. A chunk that no line has room for
is cut where the line ends. -/
def wrapped (width : Nat) (line : List (List Char)) : List (List Char) → List (List Char)
  | [] => finished line
  | chunk :: rest =>
    if line.isEmpty && chunk.all isSpace then wrapped width [] rest
    else if line.flatten.length + chunk.length ≤ width then wrapped width (line ++ [chunk]) rest
    else if chunk.length ≤ width then
      finished line ++ wrapped width (if chunk.all isSpace then [] else [chunk]) rest
    else
      let room := width - line.flatten.length
      let parts := blocks width [] (chunk.drop room)
      finished (line ++ [chunk.take room]) ++ parts.dropLast ++
        wrapped width [parts.getLastD []] rest

example : wrapped 5 [] (chunks "ab cd efghijklm n".toList) =
    ["ab cd".toList, "efghi".toList, "jklm".toList, "n".toList] := by decide +kernel

/-- The columns in front of the descriptions, where the lines leave room for them. -/
def descriptionColumn (width : Nat) : Nat := min 24 (max (width - 20) 4)

/-- What is said about an option. Its description begins on the same line if the option ends far
enough in front of it. -/
def Flag.entry (width : Nat) (flag : Flag) : String :=
  let column := descriptionColumn width
  let lines := wrapped (max (width - column) 11) [] (chunks flag.description.toList)
  let called := flag.invocation.toList
  let begun :=
    if called.length + 4 ≤ column then spaces (column - called.length - 2)
    else '\n' :: spaces column
  String.ofList (spaces 2 ++ called ++ begun ++
    List.intercalate ('\n' :: spaces column) lines ++ ['\n'])

def helpText (columns : Nat) : String :=
  let width := columns - 2
  usage width ++ "\n" ++
  "\n" ++
  "Collect a BOSH deployment topology snapshot\n" ++
  "\n" ++
  "options:\n" ++
  String.join (flags.map (Flag.entry width)) ++
  "\n" ++
  "Examples:\n" ++
  "  # Collect every deployment and print the snapshot\n" ++
  "  python -m bosh_topology.main\n" ++
  "\n" ++
  "  # Use custom config file with verbose facet logging\n" ++
  "  python -m bosh_topology.main --config /path/to/config.yaml --log-level DEBUG\n" ++
  "        \n"

/-- What is said about a wrong command line: how the program is used, and the error. -/
def misuseText (columns : Nat) (e : UsageError) : Text :=
  usage (columns - 2) ++ "\n" ++ program ++ ": error: " ++ e.message ++ "\n"

end Deployments.CommandLine
