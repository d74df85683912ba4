import ElementBinding.TypeHint
import ElementBinding.Declaration
import ElementBinding.Grammar.Module
import ElementBinding.Text.Utf8
/-!
# Scanning for markers

Finds the annotated fields of the classes at the top level of a module. A field is an assignment in
a class body whose right side is a call of the marker. The marker's argument is an integer literal
or a constant: a name that the module binds once, above its use, to such a literal. What stands in
methods, nested classes or conditional blocks is no field.
-/
namespace ElementBinding
open ElementBinding.Naming ElementBinding.Grammar

/-- A binding of a name at module level: its line, and its value if that is an integer literal. -/
structure Binding where
  line : Nat
  value : Option Nat

/-- The integer that an expression spells, if it is a literal. -/
def Grammar.Expr.literal? : Expr → Option Nat
  | .integer digits => Text.literalValue? digits.toList
  | _ => none

/-- The name that an assignment binds, and the binding. An annotation alone binds nothing. -/
def Grammar.Assignment.binding? (assignment : Assignment) : Option (String × Binding) := do
  let name ← assignment.target.name?
  let value ← assignment.value
  let literal := match value with
    | .single value _ => if assignment.isPlain then value.literal? else none
    | _ => none
  return (name, ⟨assignment.line, literal⟩)

/-- The bindings of a name at the top level of a module, in source order. -/
def Grammar.Module.bindings (module : Module) (name : String) : List Binding :=
  module.statements.filterMap fun statement => do
    match statement with
    | .assignment assignment =>
      let (bound, binding) ← assignment.binding?
      if bound = name then some binding else none
    | _ => none

structure ClassStatement where
  line : Nat
  name : String
  body : List Stmt

/-- The class that a statement declares, with or without decorators. -/
def ClassStatement.of? : Stmt → Option ClassStatement
  | .declaration line name _ _ body => some ⟨line, name, body⟩
  | .decorated _ (.declaration line name _ _ body) => some ⟨line, name, body⟩
  | _ => none

/-- A call of the marker: its arguments. -/
def markerArguments? (profile : Profile) : Expr → Option (List Argument)
  | .call (.name name) arguments => if name = profile.markerName then some arguments else none
  | .call (.attribute _ name) arguments =>
    if name = profile.markerName then some arguments else none
  | _ => none

structure MarkerArgument where
  value : Option Expr
  text : String
  line : Nat

/-- What the scan looks at while it reads a marker. -/
structure ScanContext where
  profile : Profile
  moduleName : String
  bindings : String → List Binding

namespace ScanContext

/-- A fault on some line of the module. -/
def fault (context : ScanContext) (line : Nat) (cause : Cause) : Fault :=
  ⟨cause, context.moduleName, some line⟩

/-- The only argument of a marker called on the given line. -/
def argument (context : ScanContext) (line : Nat) (arguments : List Argument) :
    Except Fault MarkerArgument :=
  let marker := context.profile.markerName
  match arguments with
  | [] => .error (context.fault line (.noArgument marker))
  | [.positional value text line] => .ok ⟨some value, text, line⟩
  | [.keyword name line value text valueLine] =>
    if name = context.profile.markerKeyword then .ok ⟨some value, text, valueLine⟩
    else .error (context.fault line (.unknownKeyword marker name))
  | [.unpacked _ line] => .error (context.fault line (.unpackedArgument marker))
  | [.clause _ line] => .ok ⟨none, "", line⟩
  | [.continuation text line] => .ok ⟨none, text, line⟩
  | _ => .error (context.fault line (.manyArguments marker arguments.length))

/-- The value of a constant used on the given line; nothing if it is bound to no literal. -/
def constant (context : ScanContext) (name : String) (line : Nat) : Except Fault (Option Nat) :=
  match context.bindings name with
  | [] => .ok none
  | [binding] =>
    if line < binding.line then
      .error (context.fault line (.assignedLater name binding.line))
    else .ok binding.value
  | bindings => .error (context.fault line (.reassigned name (bindings.map (·.line))))

/-- The view identifier that a marker called on the given line stands for. -/
def viewId (context : ScanContext) (line : Nat) (arguments : List Argument) :
    Except Fault Nat := do
  let argument ← context.argument line arguments
  let value ← match argument.value with
    | some (.name name) => context.constant name argument.line
    | some value => pure value.literal?
    | none => pure none
  match value with
  | some value => return value
  | none =>
    throw (context.fault argument.line
      (.notConstant context.profile.markerName argument.text))

end ScanContext

/-- What a statement of a class body is to the scan. -/
inductive Finding where
  | field (field : Field)
  /-- A marker assigned to something that is no field. -/
  | offTarget (line : Nat) (target : String)
  | fault (fault : Fault)

/-- What the scan finds in one statement of the body of a class. -/
def ScanContext.finding? (context : ScanContext) (owner : Owner) (statement : Stmt) :
    Option Finding := do
  match statement with
  | .assignment assignment =>
    match assignment.isPlain, assignment.value with
    | true, some (.single value line) =>
      let arguments ← markerArguments? context.profile value
      match assignment.target.name? with
      | none => return .offTarget assignment.line assignment.target.text
      | some name =>
        match context.viewId line arguments with
        | .error fault => return .fault fault
        | .ok viewId => return .field {
            owner := owner.qualifiedName
            name
            type := assignment.hint.map TypeHint.normalize
            viewId
            line := assignment.line }
    | _, _ => none
  | _ => none

def firstFault (findings : List Finding) : Option Fault :=
  findings.findSome? fun
    | .fault fault => some fault
    | _ => none

def fieldsOf (findings : List Finding) : List Field :=
  findings.filterMap fun
    | .field field => some field
    | _ => none

/-- What the scan finds in the body of a class, in source order. -/
def ScanContext.findings (context : ScanContext) (owner : Owner) (statement : ClassStatement) :
    List Finding :=
  statement.body.filterMap (context.finding? owner)

def ScanContext.declared (context : ScanContext) (isPackage : Bool) (statement : ClassStatement) :
    DeclaredClass :=
  let owner : Owner := ⟨context.moduleName, statement.name, isPackage⟩
  let findings := context.findings owner statement
  match firstFault findings with
  | some fault => { owner, line := statement.line, fault := some fault }
  | none => { owner, line := statement.line, fields := fieldsOf findings }

def Grammar.Module.scanContext (module : Module) (moduleName : String) (profile : Profile) :
    ScanContext :=
  ⟨profile, moduleName, module.bindings⟩

/-- The class statements at the top level of a module. -/
def Grammar.Module.classes (module : Module) : List ClassStatement :=
  module.statements.filterMap ClassStatement.of?

/-- Every class at the top level of a module, in source order. -/
def Grammar.Module.scan (module : Module) (moduleName : String) (profile : Profile)
    (isPackage : Bool) : List DeclaredClass :=
  module.classes.map ((module.scanContext moduleName profile).declared isPackage)

/-- The source of a module: its octets, and its syntax tree if it can be parsed. -/
structure Source where
  octets : Text.Octets
  tree : Option Module

/-- Reads a source. Octets that are no text are let pass where anything may stand. -/
def Source.ofOctets (octets : Text.Octets) : Source :=
  ⟨octets, Module.parse? (Text.decodeTolerant octets)⟩

/-- Every class of a source, unless it cannot be parsed. -/
def Source.scan (source : Source) (moduleName : String) (profile : Profile) (isPackage : Bool) :
    Except Fault (List DeclaredClass) :=
  match source.tree with
  | some tree => .ok (tree.scan moduleName profile isPackage)
  | none => .error ⟨.broken, moduleName, none⟩

end ElementBinding
