import ElementBinding.Discovery
import ElementBinding.Emission
import ElementBinding.Report
/-!
# Generation passes

One pass over a source tree: every module is scanned, the classes found are turned into
specifications, every specification is judged and emitted, and units that no owner produced are
deleted. Rejected owners keep the unit they had, and nothing is deleted while a module is rejected,
since it may own units that cannot be seen.
-/
namespace ElementBinding
open ElementBinding.Naming

structure Request where
  sourceRoot : Path
  /-- Where units go, if not beside their sources. -/
  outputRoot : Option Path := none
  profile : Profile := .standard
  reportDirectory : Option Path := none
  checkOnly : Bool := false
  prune : Bool := true
  exclude : List String := []
  /-- The version of the installed parser, if it is known. -/
  parserVersion : Option String := none
  /-- Files that turn out to be unreadable once they have been found. -/
  unreadable : List (Path × FileFault) := []

def Request.target (request : Request) : Path := request.outputRoot.getD request.sourceRoot

/-- What interrupts a pass. -/
inductive Interruption where
  | file (fault : FileFault)
  | render (fault : RenderFault)
  /-- A file in the way of a unit is no text. -/
  | undecodable
  | other (kind message : String)
deriving DecidableEq

structure ModuleScan where
  report : ModuleReport
  classes : List DeclaredClass := []
  events : List Event

def Request.readSource (request : Request) (tree : FileTree) (path : Path) :
    Except FileFault Text.Octets :=
  match request.unreadable.find? (·.1 = path) with
  | some (_, fault) => .error fault
  | none => tree.read path

/-- What is reported of a class while its statements are scanned, up to the first fault. -/
def ScanContext.classEvents (context : ScanContext) (isPackage : Bool)
    (statement : ClassStatement) : List Event :=
  go (context.findings ⟨context.moduleName, statement.name, isPackage⟩ statement)
where
  go : List Finding → List Event
    | [] => []
    | .field _ :: rest => go rest
    | .offTarget line target :: rest => .offTarget context.moduleName line target :: go rest
    | .fault fault :: _ => [.scanFailed context.moduleName fault]

def Request.scanFile (request : Request) (tree : FileTree) (file : SourceFile) : ModuleScan :=
  let started : Event := .scanning file.moduleName
  match request.readSource tree file.path with
  | .error fault =>
    { report := {
        moduleName := file.moduleName
        path := file.path.text
        digest := ""
        parsed := false
        judgement := ⟨.reject, [.moduleReadError]⟩
        faults := [⟨file.moduleName, some 0, fault.message⟩] }
      events := [started, .readFailed file.path fault] }
  | .ok octets =>
    let source := Source.ofOctets octets
    let report : ModuleReport := {
      moduleName := file.moduleName
      path := file.path.text
      digest := Digest.sha256 octets
      parsed := source.tree.isSome
      judgement := source.judge }
    match source.scan file.moduleName request.profile file.isPackage, source.tree with
    | .ok classes, some tree =>
      let context := tree.scanContext file.moduleName request.profile
      { report := { report with classesScanned := classes.length }
        classes
        events := started :: tree.classes.flatMap (context.classEvents file.isPackage) }
    | .error fault, _ =>
      { report := { report with faults := [fault.report] }
        events := [started, .moduleBroken fault] }
    | .ok classes, none => { report, classes, events := [started] }

/-- The report on an owner that gets no unit. -/
def rejectedOwner (declared : DeclaredClass) (reason : Reason) (error : String)
    (spec : Option Spec) : OwnerReport where
  owner := declared.owner.qualifiedName
  binderModule := spec.map (·.binderModule)
  binder := spec.map (·.binderName)
  unitPath := spec.map (·.unitPath)
  fields := declared.fields.map (·.report)
  judgement := ⟨.reject, [reason]⟩
  error := some error

/-- The report on an owner whose unit was emitted. A check that finds the unit out of date warns. -/
def emittedOwner (checkOnly : Bool) (spec : Spec) (emission : Emission) : OwnerReport where
  owner := spec.ownerQualifiedName
  binderModule := some spec.binderModule
  binder := some spec.binderName
  unitPath := some emission.unit.path
  digest := some emission.unit.digest
  changed := emission.changed
  fields := spec.fields.map (·.report)
  judgement :=
    let judgement := spec.judge
    if checkOnly && emission.changed then ⟨.warn, judgement.reasons ++ [.staleUnit]⟩
    else judgement

/-- The class that is reported for an owner: the last one of that name. -/
def declaredFor (classes : List DeclaredClass) (spec : Spec) : Option DeclaredClass :=
  classes.reverse.find? fun declared => declared.owner.qualifiedName = spec.ownerQualifiedName

def emitOwner (request : Request) (classes : List DeclaredClass) (spec : Spec) :
    Action Site Interruption OwnerReport := do
  let (outcome, site) := (emitFile spec request.profile).run.run (← get)
  set site
  match outcome with
  | .ok emission => return emittedOwner request.checkOnly spec emission
  | .error (.fault fault) =>
    modify (·.report (.emitFailed spec.ownerQualifiedName fault.message))
    let declared := (declaredFor classes spec).getD
      { owner := ⟨spec.ownerModule, spec.ownerName, false⟩, fields := spec.fields }
    return rejectedOwner declared .emitError fault.message (some spec)
  | .error (.render fault) => throw (.render fault)
  | .error .undecodable => throw .undecodable
  | .error (.other kind message) => throw (.other kind message)

/-- The report on a class that was rejected before emission. -/
def rejectedReport (profile : Profile) (declared : DeclaredClass) (fault : Fault) : OwnerReport :=
  rejectedOwner declared fault.reason fault.text
    (if declared.fields.isEmpty then none else some (declared.spec profile))

/-- The unit paths that pruning must leave alone: those of the owners reported as emitted, and
those that rejected owners would have. -/
def retainedPaths (profile : Profile) (build : Build) (emitted : List OwnerReport) :
    List String :=
  emitted.filterMap (fun owner => if owner.error.isNone then owner.unitPath else none) ++
    build.rejected.map fun (declared, _) => modulePath (declared.owner.binderModule profile)

/-- Equal texts once, in order. -/
def sortedDistinct (texts : List String) : List String := texts.mergeSort.eraseDups

/-- The file of the report in a directory. -/
def reportFile (directory : Path) : Path := directory.extend "viewbind_report.json"

def writeReport (tree : FileTree) (report : Report) (directory : Path) :
    FileTree × Except Interruption Path :=
  let (tree, fault?) := tree.applyAll (tree.makeDirectories directory)
  match fault?, report.fileText? with
  | some fault, _ => (tree, .error (.file fault))
  | none, none => (tree, .error (.render .idTooLong))
  | none, some text =>
    let file := reportFile directory
    match tree.applyAll [.openFile file, .append file (Text.encode text)] with
    | (tree, some fault) => (tree, .error (.file fault))
    | (tree, none) => (tree, .ok file)

def reportAll (events : List Event) : Action Site Interruption Unit :=
  events.forM fun event => modify (·.report event)

/-- Deletes the units that no owner produced, unless a module was rejected. -/
def pruneStale (request : Request) (modulesClean : Bool) (keep : List String) :
    Action Site Interruption (List String) := do
  if request.prune && modulesClean then
    ExceptT.adapt Interruption.file (DirectorySink.prune keep)
  else
    if request.prune then modify (·.report .pruneSkipped)
    return []

def Request.work (request : Request) : Action Site Interruption Report := do
  let start ← get
  reportAll ((excludedFiles start.tree request.sourceRoot request.exclude).map .excluded)
  let files ← match discover start.tree request.sourceRoot request.exclude with
    | .ok files => pure files
    | .error fault => throw (.file fault)
  let scans := files.map (request.scanFile start.tree)
  reportAll (scans.flatMap (·.events))
  let classes := scans.flatMap (·.classes)
  let build := build classes request.profile (files.map (·.moduleName))
  reportAll (build.colliding.map fun (_, fault) => .collision fault)
  let rejected := build.rejected.map fun (declared, fault) =>
    rejectedReport request.profile declared fault
  let emitted ← build.specs.mapM (emitOwner request classes)
  let modules := scans.map (·.report)
  let modulesClean := modules.all fun module => module.judgement.verdict ≠ .reject
  let pruned ← pruneStale request modulesClean (retainedPaths request.profile build emitted)
  let report : Report := {
    profileId := request.profile.id
    parserVersion := parserName request.parserVersion
    sourceRoot := request.sourceRoot.text
    outputRoot := request.target.text
    checkOnly := request.checkOnly
    modules
    owners := rejected ++ emitted
    counts := .of (rejected ++ emitted) build.skipped.length
    staleUnits := sortedDistinct (← get).sink.stale
    prunedUnits := pruned }
  match request.reportDirectory with
  | none => return report
  | some directory =>
    let (tree, outcome) := writeReport (← get).tree report directory
    modify fun site => { site with tree }
    match outcome with
    | .error interruption => throw interruption
    | .ok _ =>
      modify (·.report (.reportWritten directory))
      return report

/-- What a pass leaves: its report or what interrupted it, the tree, and the events in order. -/
structure PassOutcome where
  result : Except Interruption Report
  tree : FileTree
  events : List Event

def Request.run (request : Request) (tree : FileTree) : PassOutcome :=
  let site : Site :=
    { tree, sink := { root := request.target, checkOnly := request.checkOnly } }
  let (result, site) := request.work.run.run site
  ⟨result, site.tree, site.events⟩

end ElementBinding
