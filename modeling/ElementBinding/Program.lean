import ElementBinding.Action
import ElementBinding.Naming
import ElementBinding.Registry
import ElementBinding.UnitProgram
/-!
# Running programs

The state of a running program as far as binding depends on it: the registries, the modules that can
be imported, and those that have been. A registry is known by a reference, and whoever has one sees
what is entered there later. A module is run when it is first imported, its packages before it; a
module that fails while it runs is not imported.
-/
namespace ElementBinding
open ElementBinding.Naming

/-- A registry of a program. -/
inductive RegistryReference where
  /-- The one that binder modules register in. -/
  | own
  | further (name : String)
deriving DecidableEq

/-- What a module does when it is run. -/
inductive Effect where
  | register (registry : RegistryReference) (owner binder : Registrant) (bindings : Json)
  /-- Runs the source text of a binder module. The names in it have normal forms, and the class that
  it defines is told from others by the identity. -/
  | execute (normal : String → String) (identity : Identity) (moduleName source : String)
  | fail (raised : Raised)

/-- A module that can be imported. -/
structure ImportableModule where
  isPackage : Bool := false
  effects : List Effect := []

/-- The state of a running program. -/
structure Program where
  registry : Registry := {}
  /-- The further registries by their names. -/
  registries : List (String × Registry) := []
  modules : List (String × ImportableModule) := []
  /-- The classes that modules define, by module and name. -/
  classes : List ((String × String) × Class) := []
  /-- The imported modules, and which of them are packages. -/
  loaded : List (String × Bool) := []
  executed : List String := []

namespace Program

def isLoadedPackage (program : Program) (name : String) : Bool :=
  Pairs.get? program.loaded name = some true

def isLoaded (program : Program) (name : String) : Bool := (Pairs.get? program.loaded name).isSome

def forget (program : Program) (name : String) : Program :=
  { program with loaded := program.loaded.filter (·.1 ≠ name) }

def declareModule (program : Program) (name : String) (module : ImportableModule) : Program :=
  { program with modules := Pairs.put program.modules name module }

/-- Defines a class in its module, in the place of an earlier one of its name. -/
def defineClass (program : Program) (type : Class) : Program :=
  { program with classes := Pairs.put program.classes (type.moduleName, type.name) type }

/-- What a registry holds; one that nothing was entered in is empty. -/
def registryAt (program : Program) : RegistryReference → Registry
  | .own => program.registry
  | .further name => (Pairs.get? program.registries name).getD {}

def setRegistry (program : Program) (registry : Registry) : RegistryReference → Program
  | .own => { program with registry }
  | .further name => { program with registries := Pairs.put program.registries name registry }

def register (reference : RegistryReference) (owner binder : Registrant) (bindings : Json) :
    Action Program Raised Registration := do
  match ((← get).registryAt reference).register owner binder bindings with
  | .ok (registry, entry) =>
    modify fun program => program.setRegistry registry reference
    return entry
  | .error fault => throw fault.raised

def noSuchName (moduleName name : String) : Raised where
  type := .builtIn "ImportError"
  message := "cannot import name " ++ Text.quoted name ++ " from " ++ Text.quoted moduleName ++
    " (unknown location)"
  moduleName := some moduleName

/-- What a module has under a name that a binder module may import. -/
def meaning? (program : Program) (moduleName name : String) : Option Meaning :=
  match Pairs.get? program.classes (moduleName, name) with
  | some type => some (.type type)
  | none =>
    if [("typing", "cast"), ("viewbind.runtime.registry", "register_binder")].contains
      (moduleName, name) then some .function
    else none

section

variable (normal : String → String)

/-- Imports a name from a module, which hides what the name denoted. -/
def importName (names : List (String × Meaning)) (imported : List String × String) :
    Action Program Raised (List (String × Meaning)) := do
  let (parts, name) := imported
  let source := ".".intercalate (parts.map normal)
  match (← get).meaning? source (normal name) with
  | some meaning => return Pairs.put names (normal name) meaning
  | none => throw (noSuchName source (normal name))

/-- Calls `register_binder`, or what stands in its place, with the owner and the class of a unit. -/
def enter (names : List (String × Meaning)) (unit : UnitProgram) (binder : Class) :
    Action Program Raised Unit :=
  match Pairs.get? names (normal "register_binder"), Pairs.get? names (normal unit.owner) with
  | none, _ => throw (notDefined (normal "register_binder"))
  | _, none => throw (notDefined (normal unit.owner))
  | some .function, some owner =>
    let owner := match owner with
      | .type type => .type type
      | .binder => .type binder
      | .function => .value (.text (normal unit.owner))
    discard (register .own owner (.type binder) unit.bindings)
  | some (.type type), _ => throw (type.refusal 3)
  | some .binder, _ => throw (binder.refusal 3)

/-- Runs a binder module. The annotation in its constructor is evaluated with the class; what the
constructor refers to is found when it is run, behind the whole module. -/
def runUnit (identity : Identity) (moduleName : String) (unit : UnitProgram) :
    Action Program Raised Unit := do
  let names ← unit.imports.foldlM (importName normal) []
  let hint := unit.inner normal unit.owner
  if (Pairs.get? names hint).isNone then throw (notDefined hint)
  let names := Pairs.put names (normal unit.className) .binder
  let itself := unit.binderClass normal moduleName identity []
  let steps := unit.populations.flatMap (unit.steps normal names itself)
  enter normal names unit (unit.binderClass normal moduleName identity steps)

/-- Runs a source text; only texts that are no modules, or binder modules, do anything. -/
def execute (identity : Identity) (moduleName source : String) : Action Program Raised Unit :=
  match Grammar.Module.parse? source.toList with
  | none => throw (.of "SyntaxError" (some "invalid syntax"))
  | some module =>
    match UnitProgram.of? module.statements with
    | some unit => runUnit normal identity moduleName unit
    | none => return ()

end

/-- Carries out an effect of a module. -/
def carryOut : Effect → Action Program Raised Unit
  | .register reference owner binder bindings => discard (register reference owner binder bindings)
  | .execute normal identity moduleName source => execute normal identity moduleName source
  | .fail raised => throw raised

/-- Runs a module; it counts as imported if nothing fails. -/
def run (name : String) (module : ImportableModule) : Action Program Raised Unit := do
  modify fun program => { program with executed := program.executed ++ [name] }
  module.effects.forM carryOut
  modify fun program => { program with loaded := Pairs.put program.loaded name module.isPackage }

/-- The error when a module is not found; `because` is added to the message. -/
def notFound (name because : String) : Raised where
  type := .builtIn "ModuleNotFoundError"
  message := "No module named " ++ Text.quoted name ++ because
  moduleName := some name

/-- Imports the first of some modules; each stands in the package that comes next. -/
def importFrom : List String → Action Program Raised Unit
  | [] => return ()
  | name :: packages => do
    if (← get).isLoaded name then return ()
    importFrom packages
    if let some package := packages.head? then
      unless (← get).isLoadedPackage package do
        throw (notFound name ("; " ++ Text.quoted package ++ " is not a package"))
    match Pairs.get? (← get).modules name with
    | some module => run name module
    | none => throw (notFound name "")

/-- A dotted name and the packages around it, from the innermost. -/
def enclosing (name : String) : List String :=
  let parts := dottedParts name
  let beginnings := (List.range parts.length).map fun count =>
    ".".intercalate (parts.take (count + 1))
  (beginnings.filter (· ≠ "")).reverse

def importModule (name : String) : Action Program Raised Unit := importFrom (enclosing name)

end Program

end ElementBinding
