import ElementBinding.Text.Quoted
/-!
# Raised errors

The errors that imported modules and constructors raise. An error is known by its class and its
message; an error about a module also knows that module's name. Handlers catch a class with all that
inherit from it, whatever these are called.
-/
namespace ElementBinding

/-- What the error classes of the language and of this library inherit from. Of those that are not
named here it only tells that they are exceptions. -/
def lineage : String → List String
  | "BaseException" => []
  | "Exception" | "GeneratorExit" | "KeyboardInterrupt" | "SystemExit" | "CancelledError"
  | "BaseExceptionGroup" => ["BaseException"]
  | "ExceptionGroup" => ["BaseExceptionGroup", "Exception", "BaseException"]
  | "ModuleNotFoundError" | "ZipImportError" => ["ImportError", "Exception", "BaseException"]
  | "PackageNotFoundError" =>
    ["ModuleNotFoundError", "ImportError", "Exception", "BaseException"]
  | "IndentationError" => ["SyntaxError", "Exception", "BaseException"]
  | "TabError" => ["IndentationError", "SyntaxError", "Exception", "BaseException"]
  | "ScanError" | "EmitError" | "BindError" | "RegistrationError" =>
    ["ViewbindError", "Exception", "BaseException"]
  | "BinderCollisionError" => ["ScanError", "ViewbindError", "Exception", "BaseException"]
  | "ResolutionError" | "InstantiationError" =>
    ["BindError", "ViewbindError", "Exception", "BaseException"]
  | "BinderSignatureError" => ["RegistrationError", "ViewbindError", "Exception", "BaseException"]
  | _ => ["Exception", "BaseException"]

inductive ErrorClass where
  /-- A class of the language or of this library. -/
  | builtIn (name : String)
  /-- Another class, with those of the language or of this library that it is made from. -/
  | created (number : Nat) (name : String) (parents : List String)
deriving DecidableEq

namespace ErrorClass

def name : ErrorClass → String
  | builtIn name => name
  | created _ name _ => name

/-- The class is the named one of the language or of this library, or inherits from it. -/
def isA (type : ErrorClass) (ancestor : String) : Bool :=
  let parents := match type with
    | builtIn name => [name]
    | created _ _ parents => parents
  parents.any fun parent => parent = ancestor || (lineage parent).contains ancestor

end ErrorClass

structure Raised where
  type : ErrorClass
  message : String
  /-- The module that an error about an import concerns. -/
  moduleName : Option String := none
deriving DecidableEq

namespace Raised

/-- The name of the error's class. -/
def kind (raised : Raised) : String := raised.type.name

/-- The error of a class of the language or of this library, with at most one argument. The message
of a missing key shows the key between quotes. -/
def of (kind : String) (argument : Option String) (moduleName : Option String := none) :
    Raised where
  type := .builtIn kind
  message := match argument with
    | none => ""
    | some text => if kind = "KeyError" then Text.quoted text else text
  moduleName

def isModuleNotFound (raised : Raised) : Bool := raised.type.isA "ModuleNotFoundError"

/-- A module could not be imported: it was not found, fails, or is broken. -/
def isImportFailure (raised : Raised) : Bool :=
  raised.type.isA "ImportError" || raised.type.isA "SyntaxError"

def isResolutionError (raised : Raised) : Bool := raised.type.isA "ResolutionError"

/-- The error is no mere exception; nothing that only handles failures stops it. -/
def endsProgram (raised : Raised) : Bool := !raised.type.isA "Exception"

end Raised

end ElementBinding
