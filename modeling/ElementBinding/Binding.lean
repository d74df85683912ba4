import ElementBinding.Host
import ElementBinding.Program
/-!
# Binding

Binding a host looks up the binder that is registered for exactly its class and runs it. If the
class declares markers but has no binder yet, the generated module is imported once, which registers
it. The three outcomes are kept apart: no binder is needed, the binder ran, or binding failed.
-/
namespace ElementBinding
open ElementBinding.Naming

/-- Why binding fails. -/
inductive BindError where
  | notRegistered (owner : String)
  | missingModule (owner moduleName : String) (cause : Raised)
  | brokenModule (moduleName : String) (cause : Raised)
  | registersNothing (moduleName owner : String)
  /-- The binder assigns other fields than the class declares. -/
  | outdated (binder bound declared : String)
  /-- A failure that the generated module reports itself. -/
  | reported (raised : Raised)
  | instantiation (binder : String) (cause : Raised)
deriving DecidableEq

namespace BindError

def type : BindError → ErrorClass
  | reported raised => raised.type
  | instantiation .. => .builtIn "InstantiationError"
  | _ => .builtIn "ResolutionError"

/-- The name of the error's class. -/
def kind (error : BindError) : String := error.type.name

def message : BindError → String
  | notRegistered owner => "no binder registered for " ++ owner
  | missingModule owner moduleName _ =>
    "no binder for " ++ owner ++ ": module '" ++ moduleName ++
      "' not found (generated sources missing or out of date)"
  | brokenModule moduleName cause =>
    "binder module '" ++ moduleName ++ "' failed to import: " ++ cause.message
  | registersNothing moduleName owner =>
    "module '" ++ moduleName ++ "' did not register a binder for " ++ owner
  | outdated binder bound declared =>
    "binder " ++ binder ++ " is out of date: it binds " ++ bound ++ ", class declares " ++
      declared ++ "; regenerate binders"
  | reported raised => raised.message
  | instantiation binder cause => binder ++ " raised " ++ cause.kind ++ ": " ++ cause.message

def cause : BindError → Option Raised
  | missingModule _ _ cause => some cause
  | brokenModule _ cause => some cause
  | instantiation _ cause => some cause
  | _ => none

/-- The error as it is raised; one that was reported is raised as it is. -/
def raised : BindError → Raised
  | reported raised => raised
  | error => { type := error.type, message := error.message }

end BindError

/-- What binding did for a host. -/
inductive BindResult where
  | noBinderNeeded (target : String)
  | bound (target binder : String)
  | failed (target : String) (binder : Option String) (error : BindError)
deriving DecidableEq

namespace BindResult

def target : BindResult → String
  | noBinderNeeded target => target
  | bound target _ => target
  | failed target _ _ => target

def binder : BindResult → Option String
  | noBinderNeeded _ => none
  | bound _ binder => some binder
  | failed _ binder _ => binder

def error : BindResult → Option BindError
  | failed _ _ error => some error
  | _ => none

def ok (result : BindResult) : Bool := result.error.isNone

def outcome : BindResult → String
  | noBinderNeeded _ => "NO_BINDER_NEEDED"
  | bound .. => "BOUND"
  | failed .. => "FAILED"

/-- The result itself, unless it is a failure, which is raised. -/
def raiseForFailure (result : BindResult) : Except Raised BindResult :=
  match result.error with
  | some error => .error error.raised
  | none => .ok result

end BindResult

structure BindOptions where
  /-- The registry that is asked. -/
  registry : RegistryReference := .own
  /-- A failure is raised and not returned. -/
  strict : Bool := false
  /-- A missing binder module is imported. -/
  autoload : Bool := true
  profile : Profile := .standard

def BindOptions.registryIn (options : BindOptions) (program : Program) : Registry :=
  program.registryAt options.registry

/-- Where binding stops short. -/
inductive BindStop where
  | failed (error : BindError)
  | raised (raised : Raised)

/-- What an error means that the import of a binder module raises. -/
def BindStop.ofImport (owner : Class) (moduleName : String) (raised : Raised) : BindStop :=
  if raised.isImportFailure then
    if raised.isModuleNotFound && raised.moduleName = some moduleName then
      .failed (.missingModule owner.qualifiedName moduleName raised)
    else .failed (.brokenModule moduleName raised)
  else if raised.isResolutionError then .failed (.reported raised)
  else .raised raised

/-- The name of the module that holds the binder of a class. A class of a package's own module has
its binder inside the package. -/
def binderModuleIn (program : Program) (owner : Class) (profile : Profile) : String :=
  let isPackage := program.isLoadedPackage owner.moduleName
  Owner.binderModule ⟨owner.moduleName, owner.name, isPackage⟩ profile

/-- Imports the binder module of a class and finds the entry it makes. -/
def autoload (options : BindOptions) (owner : Class) : Action Program BindStop Registration := do
  let moduleName := binderModuleIn (← get) owner options.profile
  ExceptT.adapt (.ofImport owner moduleName) (Program.importModule moduleName)
  match (options.registryIn (← get)).lookup? owner with
  | some entry => return entry
  | none => throw (.failed (.registersNothing moduleName owner.qualifiedName))

/-- The entry for a class, or nothing if the class needs none. -/
def findEntry (options : BindOptions) (owner : Class) :
    Action Program BindStop (Option Registration) := do
  match (options.registryIn (← get)).lookup? owner with
  | some entry => return some entry
  | none =>
    if owner.declared.isEmpty then return none
    else if options.autoload then return some (← autoload options owner)
    else throw (.failed (.notRegistered owner.qualifiedName))

def shownPairs (pairs : List (String × Int)) : Except RenderFault String := do
  let shown ← pairs.mapM fun (name, viewId) => do
    return Text.quoted name ++ ": " ++ (← idText viewId)
  return "\x7b" ++ ", ".intercalate shown ++ "\x7d"

def outdated (entry : Registration) (declared : List (String × Int)) : BindStop :=
  match shownPairs (Pairs.ofList entry.bindings), shownPairs declared with
  | .ok bound, .ok declared => .failed (.outdated entry.binder.qualifiedName bound declared)
  | .error fault, _ => .raised (.of "ValueError" (some fault.message))
  | _, .error fault => .raised (.of "ValueError" (some fault.message))

def Registration.isCurrent (entry : Registration) (declared : List (String × Int)) : Bool :=
  Pairs.agree (Pairs.ofList entry.bindings) declared

def Registration.bind (entry : Registration) (declared : List (String × Int)) :
    Action Host BindStop Unit := do
  if entry.isCurrent declared then
    ExceptT.adapt (fun raised =>
      if raised.endsProgram then .raised raised
      else .failed (.instantiation entry.binder.qualifiedName raised)) (Host.populate entry.binder)
  else throw (outdated entry declared)

/-- What binding leaves behind: what it returned or raised, the program and the host. -/
structure BindOutcome where
  result : Except Raised BindResult
  program : Program
  host : Host

/-- What comes of binding that stopped, once an entry was found or not. A strict call raises a
failure, which others return. -/
def BindOptions.conclude (options : BindOptions) (owner : Class) (entry : Option Registration) :
    BindStop → Except Raised BindResult
  | .failed error =>
    if options.strict then .error error.raised
    else .ok (.failed owner.qualifiedName (entry.map (·.binder.qualifiedName)) error)
  | .raised unhandled => .error unhandled

def bind (options : BindOptions) (program : Program) (host : Host) : BindOutcome :=
  let owner := host.type
  match (findEntry options owner).from program with
  | (.error stop, program) => ⟨options.conclude owner none stop, program, host⟩
  | (.ok none, program) => ⟨.ok (.noBinderNeeded owner.qualifiedName), program, host⟩
  | (.ok (some entry), program) =>
    match (entry.bind owner.declared).from host with
    | (.error stop, host) => ⟨options.conclude owner (some entry) stop, program, host⟩
    | (.ok (), host) =>
      ⟨.ok (.bound owner.qualifiedName entry.binder.qualifiedName), program, host⟩

end ElementBinding
