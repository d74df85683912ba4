import ElementBinding.CommandLine.Arguments
import ElementBinding.Pass
import ElementBinding.Settings
/-!
# Command line

Runs one pass as a command line asks, and shows what became of it. What succeeds exits with zero, a
pass that rejects something or finds units out of date with one, and a misuse with two.
-/
namespace ElementBinding.CommandLine

/-- The usage that begins the help and every complaint about a misuse. -/
def usage : String :=
  "usage: viewbind [-h] [-o OUTPUT_ROOT] [--report-dir REPORT_DIR] [--check]\n" ++
  "                [--no-prune] [--exclude GLOB] [-v]\n" ++
  "                [source_root]\n"

/-- The words of a text in lines of at most `width` characters, as far as the words allow. -/
def wrap (width : Nat) (text : String) : List String :=
  (Text.splitAt ' ' text.toList |>.filter (· ≠ [])).foldl place [] |>.reverse.map String.ofList
where
  /-- Puts a word behind the last line or on a line of its own; the last line comes first. -/
  place : List (List Char) → List Char → List (List Char)
    | line :: lines, word =>
      if line.length + 1 + word.length ≤ width then (line ++ ' ' :: word) :: lines
      else word :: line :: lines
    | [], word => [word]

/-- A name and its description in two columns; a long name has a line of its own. -/
def describe (name description : String) : List String :=
  let indent (column : Nat) := String.ofList (List.replicate column ' ')
  let lines := wrap 54 description
  let first := indent 2 ++ name
  if first.length ≤ 22 then
    match lines with
    | line :: rest =>
      (first ++ indent (24 - first.length) ++ line) :: rest.map (indent 24 ++ ·)
    | [] => [first]
  else first :: lines.map (indent 24 ++ ·)

def help (settings : Settings) : String :=
  let lines :=
    ["", "viewbind — generate binder modules for bind_view() fields", "",
      "positional arguments:"] ++
    describe "source_root"
      ("Import root of the sources to scan (default: " ++ settings.sourceRoot ++ ")") ++
    ["", "options:"] ++
    describe "-h, --help" "show this help message and exit" ++
    describe "-o OUTPUT_ROOT, --output-root OUTPUT_ROOT"
      "Import root for generated binders (default: the source root)" ++
    describe "--report-dir REPORT_DIR" "Directory to write viewbind_report.json" ++
    describe "--check" "Only check that generated binders are up to date (for CI)" ++
    describe "--no-prune" "Keep generated binders whose owner no longer declares bindings" ++
    describe "--exclude GLOB" "Relative path glob to leave out of the scan (repeatable)" ++
    describe "-v, --verbose" "Enable verbose logging"
  usage ++ Text.joinLines lines

structure Outcome where
  exit : Nat
  output : String := ""
  /-- What is said beside the output: events, rejections and complaints. -/
  remarks : String := ""
deriving DecidableEq

/-- What stops a command line short of an outcome. -/
inductive Failure where
  | unknownLevel (name : String)
  | interrupted (interruption : Interruption)

def Arguments.request (arguments : Arguments) (settings : Settings) : Request where
  sourceRoot := .ofText (arguments.sourceRoot.getD settings.sourceRoot)
  outputRoot := (arguments.outputRoot <|> settings.outputRoot).map .ofText
  reportDirectory := (arguments.reportDirectory <|> settings.reportDirectory).map .ofText
  checkOnly := arguments.check
  prune := !arguments.noPrune && settings.prune
  exclude := arguments.exclude
  parserVersion := settings.parserVersion

def summary (report : Report) : List String :=
  let counts := report.counts
  ["Modules scanned: " ++ toString report.modules.length,
    "Owners: " ++ toString counts.total ++ " (accept=" ++ toString counts.accept ++ ", warn=" ++
      toString counts.warn ++ ", reject=" ++ toString counts.reject ++ ", no bindings=" ++
      toString counts.skipped ++ ")"] ++
  if report.prunedUnits.isEmpty then []
  else ["Pruned: " ++ toString report.prunedUnits.length]

def faultLine (fault : ReportedFault) : String :=
  "  ERROR " ++ fault.moduleName ++
    (match fault.line with
      | some line => ":" ++ toString (line + 1)
      | none => "") ++
    ": " ++ fault.message

/-- The lines for what was rejected, and for what a check found out of date. -/
def complaints (report : Report) : List String :=
  let rejected := report.owners.filter fun owner => owner.judgement.verdict = .reject
  rejected.map (fun owner => "  REJECT " ++ owner.owner ++ ": " ++ owner.error.getD "") ++
  (report.modules.flatMap (·.faults)).map faultLine ++
  if report.checkOnly && !report.staleUnits.isEmpty then
    "Stale binders:" :: report.staleUnits.map ("  " ++ ·) ++ ["  Run: viewbind <source root>"]
  else []

def eventLines (threshold : Nat) (events : List Event) : List String :=
  (events.filter fun event => threshold ≤ event.level.rank).map (·.line)

/-- Runs what arguments ask for, and shows the events of rank `threshold` or above. -/
def Arguments.run (arguments : Arguments) (settings : Settings) (threshold : Nat)
    (tree : FileTree) : FileTree × Except Failure Outcome :=
  let request := arguments.request settings
  if tree.isDirectory request.sourceRoot then
    let outcome := request.run tree
    (outcome.tree,
      match outcome.result with
      | .error interruption => .error (.interrupted interruption)
      | .ok report => .ok {
          exit := if report.ok then 0 else 1
          output := Text.joinLines (summary report)
          remarks := Text.joinLines (eventLines threshold outcome.events ++ complaints report) })
  else
    (tree, .ok {
      exit := 1
      remarks := Text.joinLines (eventLines threshold [.rootMissing request.sourceRoot]) })

def run (settings : Settings) (words : List String) (tree : FileTree) :
    FileTree × Except Failure Outcome :=
  match Arguments.read words with
  | .error misuse =>
    (tree, .ok { exit := 2, remarks := usage ++ "viewbind: error: " ++ misuse.message ++ "\n" })
  | .ok arguments =>
    if arguments.help then (tree, .ok { exit := 0, output := help settings })
    else
      match if arguments.verbose then some Level.debug.rank else Level.threshold? settings.logLevel
      with
      | some threshold => arguments.run settings threshold tree
      | none => (tree, .error (.unknownLevel settings.logLevel))

end ElementBinding.CommandLine
