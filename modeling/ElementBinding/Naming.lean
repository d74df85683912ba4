import ElementBinding.Text.Lowercase
import ElementBinding.Path
import ElementBinding.Profile
/-!
# Binder names

The one place that maps an owner class to the class and module of its binder. A binder module is
named after its owner in snake case and stands in the owner's package; the owners of a package's
own module have theirs inside the package.
-/
namespace ElementBinding.Naming
open ElementBinding.Text

/-- An ASCII capital. -/
def isCapital (c : Char) : Bool := 'A' ≤ c && c ≤ 'Z'

/-- An ASCII small letter. -/
def isSmall (c : Char) : Bool := 'a' ≤ c && c ≤ 'z'

/-- Puts an underscore before each capital that begins a word of small letters, unless it is the
first character. A word just marked is passed over as a whole: its letters mark no further word. -/
def markWords : (inWord : Bool) → List Char → List Char
  | _, [] => []
  | inWord, c :: capital :: small :: rest =>
    if inWord && isSmall c then c :: markWords true (capital :: small :: rest)
    else if c ≠ '\n' && isCapital capital && isSmall small then
      c :: '_' :: capital :: small :: markWords true rest
    else c :: markWords false (capital :: small :: rest)
  | _, c :: rest => c :: markWords false rest

/-- Puts an underscore between a small letter or digit and the capital after it. -/
def markCapitals : List Char → List Char
  | [] => []
  | [c] => [c]
  | c :: next :: rest =>
    if (isSmall c || c.isDigit) && isCapital next then c :: '_' :: markCapitals (next :: rest)
    else c :: markCapitals (next :: rest)

def snakeCase (name : String) : String :=
  String.ofList (lower (markCapitals (markWords false name.toList)))

/-- The package of a dotted module name: what stands before its last dot. -/
def packageOf (moduleName : String) : String :=
  match (moduleName.toList.reverse.dropWhile (· ≠ '.')) with
  | [] => ""
  | _ :: before => String.ofList before.reverse

/-- A class of some module, as its binder is named after it. -/
structure Owner where
  moduleName : String
  name : String
  /-- The module is the one of a package itself. -/
  isPackage : Bool := false
deriving DecidableEq

namespace Owner

def qualifiedName (owner : Owner) : String :=
  if owner.moduleName = "" then owner.name else owner.moduleName ++ "." ++ owner.name

def binderName (owner : Owner) (profile : Profile) : String := owner.name ++ profile.binderSuffix

def binderModule (owner : Owner) (profile : Profile) : String :=
  let leaf := snakeCase owner.name ++ profile.moduleSuffix
  let package := if owner.isPackage then owner.moduleName else packageOf owner.moduleName
  if package = "" then leaf else package ++ "." ++ leaf

end Owner

def dottedParts (moduleName : String) : List String :=
  (splitAt '.' moduleName.toList).map String.ofList

/-- The relative path of the file that holds a module. -/
def modulePath (moduleName : String) : String :=
  (Path.ofSegments (dottedParts moduleName)).text ++ ".py"

end ElementBinding.Naming
