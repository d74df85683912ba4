import ElementBinding.CommandLine
import ElementBinding.Json.Reader
/-!
# The program

Runs a command line on a tree of files. The tree is read from standard input as a JSON object of
paths and texts, in which null stands for a directory; what the command line leaves behind is
written to standard output in the same way, with the tree among it. Settings come from the
environment.
-/
namespace ElementBinding.CommandLine

/-- The tree of the files that a JSON object names. -/
def readTree : Json → FileTree
  | .object members => members.foldl (fun tree (path, content) =>
      match content with
      | .text text => tree.place (.ofText path) (some (Text.encode text))
      | _ => tree.place (.ofText path) none) {}
  | _ => {}

/-- The JSON object that names the files of a tree. -/
def writeTree (tree : FileTree) : Json :=
  .object (tree.entries.map fun (place, entry) =>
    ("/".intercalate place, match entry with
      | .directory => .null
      | .file octets => .text (String.ofList (Text.decodeTolerant octets))))

def Failure.message : Failure → String
  | unknownLevel name => "Unknown level: " ++ Text.quoted name
  | interrupted (.file fault) => fault.message
  | interrupted (.render fault) => fault.message
  | interrupted .undecodable => "a file in the way of a unit is no text"
  | interrupted (.other kind message) => kind ++ ": " ++ message

/-- The outcome of a command line: a failure says no more than its message. -/
def outcomeOf : Except Failure Outcome → Outcome
  | .ok outcome => outcome
  | .error failure => { exit := 1, remarks := failure.message ++ "\n" }

/-- The JSON form of an outcome with the tree it leaves. -/
def Outcome.toJson (outcome : Outcome) (tree : FileTree) : Json := .object [
  ("exit", .integer outcome.exit),
  ("output", .text outcome.output),
  ("remarks", .text outcome.remarks),
  ("files", writeTree tree)]

/-- The variables of the environment that may hold settings. -/
def readEnvironment : IO (List (String × String)) := do
  let found ← Settings.names.mapM fun name => do
    let full := Settings.variableStart ++ name
    return (← IO.getEnv full).map (full, ·)
  return found.filterMap id

partial def readAll (input : IO.FS.Stream) (before : String) : IO String := do
  let line ← input.getLine
  if line.isEmpty then return before else readAll input (before ++ line)

def runProgram (words : List String) : IO Nat := do
  match Settings.ofEnvironment (← readEnvironment) with
  | .error faults =>
    IO.eprintln ("settings that cannot be read: " ++ ", ".intercalate (faults.map (·.name)))
    return 1
  | .ok settings =>
    match Json.read (← readAll (← IO.getStdin) "").toList with
    | .error _ =>
      IO.eprintln "standard input holds no tree of files"
      return 1
    | .ok files =>
      let (tree, result) := run settings words (readTree files)
      let outcome := outcomeOf result
      IO.println (((outcome.toJson tree).compact?).getD "")
      return outcome.exit

end ElementBinding.CommandLine

/-- Runs a command line and exits with its status. -/
def main (words : List String) : IO UInt32 := do
  return (← ElementBinding.CommandLine.runProgram words).toUInt32
