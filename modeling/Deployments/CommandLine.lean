import Deployments.Text.Digit
import Deployments.Text.Quoted

/-!
The command line. Options may be shortened as long as they stay distinct, and a long option may
have its value behind an equals sign. Arguments are sorted into options and others first, and the
options then take effect in their order.
-/

namespace Deployments.CommandLine

open Text

inductive Flag where
  | help
  | config
  | logLevel
  deriving DecidableEq, Repr, Inhabited

def program : String := "bosh-topology"

def names : List (Text × Flag) :=
  [("-h", .help), ("--help", .help), ("--config", .config), ("--log-level", .logLevel)]

/-- The values that the log level may have. -/
def levels : List Text := ["DEBUG", "INFO", "WARNING", "ERROR"]

/-- The path of the configuration when none is given. -/
def defaultConfig : String := "config/config.yaml"

/-- The variable of the environment that gives the log level when no option does. -/
def levelVariable : String := "LOG_LEVEL"

def Flag.title : Flag → String
  | help => "-h/--help"
  | config => "--config"
  | logLevel => "--log-level"

inductive UsageError where
  | ambiguous (argument : Text) (candidates : List Text)
  | valueMissing (flag : Flag)
  | valueIgnored (flag : Flag) (value : Text)
  | noChoice (value : Text)
  | unrecognized (arguments : List Text)
  deriving DecidableEq, Repr, Inhabited

def UsageError.message : UsageError → Text
  | ambiguous argument candidates =>
    "ambiguous option: " ++ argument ++ " could match " ++ Text.intercalate ", " candidates
  | valueMissing flag => "argument " ++ flag.title ++ ": expected one argument"
  | valueIgnored flag value =>
    "argument " ++ flag.title ++ ": ignored explicit argument " ++ quoted value
  | noChoice value =>
    "argument " ++ Flag.logLevel.title ++ ": invalid choice: " ++ quoted value ++
      " (choose from " ++ ", ".intercalate (levels.map quoted) ++ ")"
  | unrecognized arguments => "unrecognized arguments: " ++ Text.intercalate " " arguments

inductive Argument where
  | plain (text : Text)
  | separator
  /-- An option, with the value given together with it. -/
  | option (flag : Flag) (value : Option Text)
  /-- What stands in one argument behind the option for help. -/
  | cluster (letters : List Point)
  /-- An option that does not exist. -/
  | unknown (text : Text)
  deriving DecidableEq, Repr

def separatorText : Text := "--"

/-- What stands in front of the first equals sign, and what stands behind it. -/
def splitValue (ps : List Point) : List Point × Option Text :=
  match ps.dropWhile (· != .char '=') with
  | _ :: value => (ps.takeWhile (· != .char '='), some (.ofList value))
  | [] => (ps, none)

def isNegativeNumber (cs : List Char) : Bool :=
  let isDigit (c : Char) : Bool := (digitValue? c).isSome
  match cs with
  | '-' :: ds =>
    match ds.dropWhile isDigit with
    | [] => !ds.isEmpty
    | '.' :: fraction => !fraction.isEmpty && fraction.all isDigit
    | _ => false
  | _ => false

/-- The form of an argument that begins with a hyphen and is no name of an option. -/
def classifyOther (text : Text) : Except UsageError Argument :=
  let (front, value) := splitValue text.toList
  let isShort : Bool := (text.toList.drop 1).head? != some (.char '-')
  let candidates :=
    if isShort then [] else names.filter fun entry => front.isPrefixOf entry.1.toList
  match if value.isSome then names.lookup (.ofList front) else none with
  | some flag => .ok (.option flag value)
  | none =>
    match candidates with
    | [(_, flag)] => .ok (.option flag value)
    | _ :: _ :: _ => .error (.ambiguous text (candidates.map Prod.fst))
    | [] =>
      if text.startsWith "-h" then .ok (.cluster (text.toList.drop 2))
      else if isNegativeNumber text.chars || text.toList.contains (.char ' ') then
        .ok (.plain text)
      else .ok (.unknown text)

def classify (text : Text) : Except UsageError Argument :=
  match names.lookup text with
  | some flag => .ok (.option flag none)
  | none => match text.toList with
    | .char '-' :: _ :: _ => classifyOther text
    | _ => .ok (.plain text)

def classifyAll : List Text → Except UsageError (List Argument)
  | [] => .ok []
  | text :: rest =>
    if text = separatorText then .ok (.separator :: rest.map .plain)
    else do
      let argument ← classify text
      let arguments ← classifyAll rest
      .ok (argument :: arguments)

inductive Request where
  | help
  /-- A run with the configuration under a path, and with a log level if one is given. -/
  | run (config : Text) (level : Option Text)
  deriving DecidableEq, Repr, Inhabited

/-- Short options in one argument: the one for help counts as soon as what follows may stand
there. -/
def readCluster : List Point → Except UsageError Request
  | [] => .ok .help
  | p :: ps =>
    if p = .char '-' then .error (.valueIgnored .help (.ofList (p :: ps)))
    else if p = .char 'h' then
      match ps with
      | .char '=' :: value => .error (.valueIgnored .help (.ofList value))
      | _ => readCluster ps
    else .ok .help

/-- The configuration and the level given so far, and the arguments that have no meaning. -/
structure Given where
  config : Text
  level : Option Text
  extras : List Text

namespace Given

def start : Given := ⟨defaultConfig, none, []⟩

/-- One more argument has no meaning. -/
def extra (g : Given) (text : Text) : Given := { g with extras := g.extras ++ [text] }

def set (g : Given) (flag : Flag) (value : Text) : Except UsageError Given :=
  match flag with
  | .help => .error (.valueIgnored .help value)
  | .config => .ok { g with config := value }
  | .logLevel =>
    if levels.contains value then .ok { g with level := some value } else .error (.noChoice value)

def request (g : Given) : Except UsageError Request :=
  if g.extras.isEmpty then .ok (.run g.config g.level) else .error (.unrecognized g.extras)

end Given

/-- What the arguments ask for; options take effect one after another, and that for help at once. -/
def read (g : Given) : List Argument → Except UsageError Request
  | [] => g.request
  | .plain text :: rest => read (g.extra text) rest
  | .separator :: rest => read (g.extra separatorText) rest
  | .unknown text :: rest => read (g.extra text) rest
  | .cluster letters :: _ => readCluster letters
  | .option flag (some value) :: rest =>
    match g.set flag value with
    | .ok g => read g rest
    | .error e => .error e
  | .option .help none :: _ => .ok .help
  | .option flag none :: .plain value :: rest =>
    match g.set flag value with
    | .ok g => read g rest
    | .error e => .error e
  | .option flag none :: _ => .error (.valueMissing flag)

def parse (arguments : List Text) : Except UsageError Request :=
  (classifyAll arguments).bind (read .start)

end Deployments.CommandLine
