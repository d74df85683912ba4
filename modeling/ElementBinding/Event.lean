import ElementBinding.Declaration
import ElementBinding.FileTree
/-!
# Events

What a pass reports while it runs. Every event has a level and comes from one part of the
generator; the command line shows those of a sufficient level, one line each.
-/
namespace ElementBinding

inductive Level where
  | debug
  | info
  | warning
  | error
  | critical
deriving DecidableEq

namespace Level

def text : Level → String
  | debug => "DEBUG"
  | info => "INFO"
  | warning => "WARNING"
  | error => "ERROR"
  | critical => "CRITICAL"

def rank : Level → Nat
  | debug => 10
  | info => 20
  | warning => 30
  | error => 40
  | critical => 50

/-- The least rank that is shown under a name for it. Two levels have a second name, and one name
lets everything through. -/
def threshold? (name : String) : Option Nat :=
  match [debug, info, warning, error, critical].find? fun level => level.text = name with
  | some level => some level.rank
  | none =>
    if name = "WARN" then some warning.rank
    else if name = "FATAL" then some critical.rank
    else if name = "NOTSET" then some 0
    else none

end Level

/-- Something that happened during a pass. -/
inductive Event where
  | rootMissing (root : Path)
  | excluded (path : Path)
  | scanning (moduleName : String)
  | readFailed (path : Path) (fault : FileFault)
  | moduleBroken (fault : Fault)
  /-- A marker was assigned to something that is no field. -/
  | offTarget (moduleName : String) (line : Nat) (target : String)
  | scanFailed (moduleName : String) (fault : Fault)
  | collision (fault : Fault)
  | stale (path : Path)
  | wrote (path : Path)
  | pruned (path : Path)
  | emitted (moduleName : String) (fieldCount : Nat) (changed : Bool)
  | emitFailed (owner message : String)
  | pruneSkipped
  | reportWritten (directory : Path)

namespace Event

def level : Event → Level
  | rootMissing _ => .error
  | excluded _ => .debug
  | scanning _ => .info
  | readFailed .. => .error
  | moduleBroken _ => .error
  | offTarget .. => .debug
  | scanFailed .. => .debug
  | collision _ => .warning
  | stale _ => .info
  | wrote _ => .info
  | pruned _ => .info
  | emitted .. => .debug
  | emitFailed .. => .error
  | pruneSkipped => .warning
  | reportWritten _ => .info

/-- The part of the generator an event comes from. -/
def source : Event → String
  | offTarget .. => "viewbind.core.symbol_scanner"
  | scanFailed .. => "viewbind.core.symbol_scanner"
  | collision _ => "viewbind.core.spec_builder"
  | stale _ => "viewbind.io.sink"
  | wrote _ => "viewbind.io.sink"
  | pruned _ => "viewbind.io.sink"
  | emitted .. => "viewbind.core.code_emitter"
  | _ => "viewbind.runner"

def message : Event → String
  | rootMissing root => "Source root not found: " ++ root.text
  | excluded path => "excluded " ++ path.text
  | scanning moduleName => "Scanning module: " ++ moduleName
  | readFailed path fault => "Failed to read " ++ path.text ++ ": " ++ fault.message
  | moduleBroken fault => fault.text
  | offTarget moduleName line target =>
    moduleName ++ ":" ++ toString (line + 1) ++ ": marker on a non-field target '" ++ target ++
      "', skipped"
  | scanFailed moduleName fault => "scan error in " ++ moduleName ++ ": " ++ fault.text
  | collision fault => fault.text
  | stale path => "stale: " ++ path.text
  | wrote path => "wrote " ++ path.text
  | pruned path => "pruned " ++ path.text
  | emitted moduleName fieldCount changed =>
    "emitted " ++ moduleName ++ " (" ++ toString fieldCount ++ " field(s), changed=" ++
      (if changed then "True" else "False") ++ ")"
  | emitFailed owner message => "emit failed for " ++ owner ++ ": " ++ message
  | pruneSkipped => "Skipping prune: some modules were rejected"
  | reportWritten directory => "Wrote viewbind report to " ++ directory.text

def line (event : Event) : String :=
  event.level.text ++ " " ++ event.source ++ ": " ++ event.message

end Event

end ElementBinding
