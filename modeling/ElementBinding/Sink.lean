import ElementBinding.Action
import ElementBinding.Event
import ElementBinding.Text.Lines
import ElementBinding.Unit
/-!
# Sinks

Where generated units go: into memory, or into a directory laid out like their packages. A directory
sink replaces only files that were generated, leaves a file with the same content alone, and in
check mode records what is out of date instead of writing it.
-/
namespace ElementBinding
open ElementBinding.Text

inductive EmitFault where
  /-- The file in the way was not generated. -/
  | refused (target : Path) (unitPath : String)
  | notWritten (unitPath : String) (fault : FileFault)
  /-- A refusal known by its message only. -/
  | reported (message : String) (unitPath : Option String)
deriving DecidableEq

namespace EmitFault

def message : EmitFault → String
  | refused target _ => "refusing to overwrite hand-written module " ++ target.text
  | notWritten unitPath fault => "failed to write " ++ unitPath ++ ": " ++ fault.message
  | reported message _ => message

def unitPath : EmitFault → Option String
  | refused _ unitPath => some unitPath
  | notWritten unitPath _ => some unitPath
  | reported _ unitPath => unitPath

end EmitFault

/-- Why a sink does not take a unit. -/
inductive WriteFault where
  | emit (fault : EmitFault)
  | file (fault : FileFault)
  /-- The file in the way is no text. -/
  | undecodable
  /-- A failure of another kind. -/
  | other (kind message : String)
deriving DecidableEq

/-- Units kept in memory, by their paths, in the order in which the paths were first written. -/
structure MemorySink where
  units : List (String × BinderUnit) := []
  writeCount : Nat := 0

namespace MemorySink

def find? (sink : MemorySink) (path : String) : Option BinderUnit :=
  (sink.units.find? (·.1 = path)).map (·.2)

/-- Stores a unit, and tells whether the stored text changed. -/
def write (sink : MemorySink) (unit : BinderUnit) : MemorySink × Bool :=
  let changed := (sink.find? unit.path).map (·.source) ≠ some unit.source
  let units :=
    if sink.units.any (·.1 = unit.path) then
      sink.units.map fun (path, old) => if path = unit.path then (path, unit) else (path, old)
    else sink.units ++ [(unit.path, unit)]
  (⟨units, sink.writeCount + 1⟩, changed)

def paths (sink : MemorySink) : List String := (sink.units.map (·.1)).mergeSort

end MemorySink

/-- A sink that keeps units in files below a directory, with what became of the units so far. -/
structure DirectorySink where
  root : Path
  checkOnly : Bool := false
  written : List String := []
  unchanged : List String := []
  stale : List String := []
  /-- The paths of all units handed over. -/
  seen : List String := []

/-- What a pass over files works on. -/
structure Site where
  tree : FileTree
  sink : DirectorySink
  events : List Event := []

namespace Site

def report (site : Site) (event : Event) : Site := { site with events := site.events ++ [event] }

end Site

/-- The text of a file as a reader of lines sees it, if it is text. -/
def readText (octets : Octets) : Option (List Char) := (decodeStrict octets).map unifyLineEnds

/-- The text of the generated file at a path; nothing if nothing is there. -/
def existingUnit (tree : FileTree) (target : Path) (unitPath : String) :
    Except WriteFault (Option (List Char)) :=
  if (tree.find? target).isNone then .ok none
  else match tree.read target with
    | .error fault => .error (.file fault)
    | .ok octets =>
      match readText octets with
      | none => .error .undecodable
      | some text =>
        if isGenerated text then .ok (some text)
        else .error (.emit (.refused target unitPath))

namespace DirectorySink

def target (sink : DirectorySink) (unit : BinderUnit) : Path := sink.root.extend unit.path

/-- Hands a unit to the sink, and tells whether its file is or would be changed. -/
def write (unit : BinderUnit) : Action Site WriteFault Bool := do
  modify fun site => { site with sink.seen := site.sink.seen ++ [unit.path] }
  let site ← get
  let target := site.sink.target unit
  let existing ← existingUnit site.tree target unit.path
  if existing = some unit.source.toList then
    set { site with sink.unchanged := site.sink.unchanged ++ [unit.path] }
    return false
  else if site.sink.checkOnly then
    set ({ site with sink.stale := site.sink.stale ++ [unit.path] }.report (.stale target))
    return true
  else
    let (tree, fault?) := site.tree.applyAll (site.tree.writeSteps target (encode unit.source))
    match fault? with
    | some fault =>
      set { site with tree }
      throw (.file fault)
    | none =>
      set ({ site with tree, sink.written := site.sink.written ++ [unit.path] }.report
        (.wrote target))
      return true

end DirectorySink

/-- The first line of some octets as a tolerant reader of lines sees it. -/
def readFirstLine (octets : Octets) : List Char := firstLine (unifyLineEnds (decodeTolerant octets))

def isIgnoredBySink (directory : String) : Bool :=
  directory = "__pycache__" || directory = "node_modules" || directory.toList.head? = some '.'

/-- The generated units below a directory, relative to it and sorted. -/
def generatedBelow (tree : FileTree) (root : Path) : Except FileFault (List Path) :=
  ((tree.below root ".py").filter fun path => !path.parts.dropLast.any isIgnoredBySink).filterM
    fun path => do
      let octets ← tree.read (root ++ path)
      return isGenerated (readFirstLine octets)

namespace DirectorySink

/-- Deletes a generated unit, or records it as out of date in check mode. -/
def pruneUnit (path : Path) : Action Site FileFault Unit := do
  let site ← get
  if site.sink.checkOnly then
    set { site with sink.stale := site.sink.stale ++ [path.text] }
  else
    let target := site.sink.root ++ path
    let tree ← site.tree.apply (.delete target)
    set ({ site with tree }.report (.pruned target))

/-- Deletes the generated units that were neither handed over nor are to be kept, and gives their
paths. In check mode they are recorded as out of date instead. -/
def prune (keep : List String) : Action Site FileFault (List String) := do
  let site ← get
  let generated ← generatedBelow site.tree site.sink.root
  let doomed := generated.filter fun path =>
    !site.sink.seen.contains path.text && !keep.contains path.text
  doomed.forM pruneUnit
  return doomed.map (·.text)

end DirectorySink

end ElementBinding
