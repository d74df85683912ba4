import ElementBinding.Text.Blank
import ElementBinding.Text.Flag
import ElementBinding.Text.Integer
/-!
# Settings

The settings of the generator and its service, read from variables of the environment whose names
begin with a common word. Variables that name no setting are ignored, and every setting has a
default.
-/
namespace ElementBinding
open ElementBinding.Text

structure Settings where
  sourceRoot : String := "."
  /-- Where units go, if not beside their sources. -/
  outputRoot : Option String := none
  reportDirectory : Option String := none
  prune : Bool := true
  logLevel : String := "INFO"
  host : String := "0.0.0.0"
  portNumber : Int := 8080
  title : String := "viewbind API"
  version : String := "0.1.0"
  /-- The version of the installed parser, if it is known; no variable sets it. -/
  parserVersion : Option String := none
deriving DecidableEq

/-- A variable whose value cannot be read. -/
inductive SettingFault where
  | notFlag (name : String)
  | notInteger (name : String)
  | tooLong (name : String)
deriving DecidableEq

namespace SettingFault

def name : SettingFault → String
  | notFlag name => name
  | notInteger name => name
  | tooLong name => name

def kind : SettingFault → String
  | notFlag _ => "bool_parsing"
  | notInteger _ => "int_parsing"
  | tooLong _ => "int_parsing_size"

end SettingFault

/-- A decimal text without a point that only zeros follow. -/
def dropZeroPlaces (text : List Char) : List Char :=
  let whole := text.takeWhile (· ≠ '.')
  match text.drop whole.length with
  | _ :: places => if places.all (· = '0') then whole else text
  | [] => text

/-- The integer that a setting spells. -/
def readNumber? (text : String) : Option Int :=
  let isSpace (c : Char) := isBlank c && !(0x1C ≤ c.toNat && c.toNat ≤ 0x1F)
  let body := text.toList.dropWhile isSpace
  let body := (body.reverse.dropWhile isSpace).reverse
  let (negative, digits) := match body with
    | '+' :: rest => (false, rest)
    | '-' :: rest => (true, rest)
    | rest => (false, rest)
  (digits? 10 (dropZeroPlaces digits)).map fun digits =>
    let value : Int := ofDigits 10 digits
    if negative then -value else value

namespace Settings

/-- What the name of every variable begins with. -/
def variableStart : String := "VIEWBIND_"

def names : List String :=
  ["SOURCE_ROOT", "OUTPUT_ROOT", "REPORT_DIR", "PRUNE", "LOG_LEVEL", "API_HOST", "API_PORT",
    "API_TITLE", "API_VERSION"]

/-- Reads the settings from the variables of an environment, or tells which cannot be read. -/
def ofEnvironment (environment : List (String × String)) : Except (List SettingFault) Settings :=
  let value? (name : String) := (environment.find? (·.1 = variableStart ++ name)).map (·.2)
  let defaults : Settings := {}
  let prune? := (value? "PRUNE").map readFlag?
  let portNumber? := (value? "API_PORT").map fun text => (text, readNumber? text)
  let faults :=
    (match prune? with
      | some none => [.notFlag "PRUNE"]
      | _ => []) ++
    (match portNumber? with
      | some (text, none) =>
        if digitLimit < text.length then [.tooLong "API_PORT"] else [.notInteger "API_PORT"]
      | some (text, some _) => if digitLimit < text.length then [.tooLong "API_PORT"] else []
      | none => [])
  if faults.isEmpty then
    .ok {
      sourceRoot := (value? "SOURCE_ROOT").getD defaults.sourceRoot
      outputRoot := value? "OUTPUT_ROOT"
      reportDirectory := value? "REPORT_DIR"
      prune := (prune?.bind id).getD defaults.prune
      logLevel := (value? "LOG_LEVEL").getD defaults.logLevel
      host := (value? "API_HOST").getD defaults.host
      portNumber := (portNumber?.bind (·.2)).getD defaults.portNumber
      title := (value? "API_TITLE").getD defaults.title
      version := (value? "API_VERSION").getD defaults.version }
  else .error faults

end Settings

end ElementBinding
