import ElementBinding.Naming
/-!
# Declared classes

The classes a scan finds and the annotated fields they declare, together with what can be wrong
with an owner. A class with a fault has no fields: no binder is ever made for it.
-/
namespace ElementBinding
open ElementBinding.Naming

/-- What is wrong with the owner of a binder. -/
inductive Cause where
  | noArgument (marker : String)
  | manyArguments (marker : String) (count : Nat)
  | unknownKeyword (marker keyword : String)
  | unpackedArgument (marker : String)
  /-- The argument is neither an integer literal nor a constant for one. -/
  | notConstant (marker text : String)
  /-- The constant is assigned on several lines, counted from zero. -/
  | reassigned (constant : String) (lines : List Nat)
  | assignedLater (constant : String) (line : Nat)
  | broken
  /-- The module cannot be parsed: the number of places, and what and where the first one is. -/
  | brokenAt (count : Nat) (first : String) (column : Int)
  | shared (binderModule : String) (owners : List String)
  | handWritten (binderModule : String)
  /-- A cause known by its message only. -/
  | reported (isCollision : Bool) (message : String)
deriving DecidableEq

namespace Cause

/-- Two owners, or an owner and another module, claim one name. -/
def isCollision : Cause → Bool
  | shared .. => true
  | handWritten _ => true
  | reported isCollision _ => isCollision
  | _ => false

def message : Cause → String
  | noArgument marker => marker ++ "() requires a view identifier argument"
  | manyArguments marker count =>
    marker ++ "() takes exactly one argument, got " ++ toString count
  | unknownKeyword marker keyword =>
    marker ++ "() got an unexpected keyword argument '" ++ keyword ++ "'"
  | unpackedArgument marker => marker ++ "() does not accept unpacked arguments"
  | notConstant marker text =>
    marker ++ "() argument must be an integer literal or a module-level integer constant, got '" ++
      text ++ "'"
  | reassigned constant lines =>
    "constant '" ++ constant ++ "' is assigned more than once (lines " ++
      ", ".intercalate (lines.map fun line => toString (line + 1)) ++
      "); use a literal or a single assignment"
  | assignedLater constant line =>
    "constant '" ++ constant ++ "' is assigned on line " ++ toString (line + 1) ++
      ", after its use"
  | broken => "module has parse errors"
  | brokenAt count first column =>
    "module has " ++ toString count ++ " parse error(s), first: " ++ first ++ " at column " ++
      toString column
  | shared binderModule owners =>
    "binder module '" ++ binderModule ++ "' is claimed by " ++ ", ".intercalate owners
  | handWritten binderModule =>
    "binder module '" ++ binderModule ++ "' would replace a hand-written module"
  | reported _ message => message

end Cause

/-- A cause in its place. The line counts from zero; a module that cannot be parsed has none. -/
structure Fault where
  cause : Cause
  moduleName : String := ""
  line : Option Int := some 0
deriving DecidableEq

/-- The fault as it is reported, with its place in front if the module is known. -/
def Fault.text (fault : Fault) : String :=
  if fault.moduleName = "" then fault.cause.message
  else match fault.line with
    | some line => fault.moduleName ++ ":" ++ toString (line + 1) ++ ": " ++ fault.cause.message
    | none => fault.moduleName ++ ": " ++ fault.cause.message

structure Field where
  owner : String
  name : String
  /-- The normal form of the annotation, if there is one. -/
  type : Option String
  viewId : Int
  /-- The line, counted from zero. -/
  line : Nat
deriving DecidableEq

/-- A class at the top level of a module, with its annotated fields in source order. -/
structure DeclaredClass where
  owner : Owner
  line : Int := 0
  fields : List Field := []
  fault : Option Fault := none
deriving DecidableEq

end ElementBinding
