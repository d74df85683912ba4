import ElementBinding.Marker
import ElementBinding.Pairs
import ElementBinding.Raised
import ElementBinding.Signature
/-!
# Classes

The classes of a running program, with the markers and the constructors they declare. A class is a
thing of its own: two classes of one name are different. What a class does not declare it has from
its ancestors, but only its own markers are bound by its binder.
-/
namespace ElementBinding

/-- What tells a class from all others. -/
inductive Identity where
  | builtIn (name : String)
  | created (number : Nat)
deriving DecidableEq

/-- What stands under a name in a class. -/
inductive Attribute where
  | marker (marker : Marker)
  | value (value : Json)
  /-- The method by which an instance looks its elements up. -/
  | finder

inductive ConstructorStep where
  /-- Assigns to a field what a method of the instance finds. -/
  | populate (field finder : String) (viewId : Int)
  /-- Calls the method for nothing. -/
  | lookUp (finder : String) (viewId : Int)
  | fail (raised : Raised)

inductive Constructor where
  | written (signature : Signature) (steps : List ConstructorStep)
  /-- A built-in constructor, which may not tell its signature. -/
  | builtIn (signature : Option Signature)

/-- What a class declares itself. -/
structure Layer where
  identity : Identity
  name : String
  /-- The name of the class within its module. -/
  path : String
  moduleName : String
  attributes : List (String × Attribute) := []
  constructor : Option Constructor := none

def Layer.qualifiedName (layer : Layer) : String := layer.moduleName ++ "." ++ layer.path

/-- A class: what it declares itself, and its ancestors in the order of look-up. -/
structure Class extends Layer where
  ancestors : List Layer := []

namespace Class

/-- The layers of a class in the order in which names are looked up. -/
def layers (type : Class) : List Layer := type.toLayer :: type.ancestors

/-- The layers of some parents in the order in which names are looked up. A layer that several
parents share stands behind all that inherit from it. -/
def inheritance (parents : List Class) : List Layer :=
  (parents.flatMap layers).foldr (fun layer below =>
    if below.any (·.identity = layer.identity) then below else layer :: below) []

def builtIn? (name : String) : Option Class :=
  let layer (constructor : Option Constructor) : Class :=
    { identity := .builtIn name, name, path := name, moduleName := "builtins", constructor }
  if name = "object" then some (layer none)
  else if name = "list" then
    some (layer (some (.builtIn (some ⟨[⟨"iterable", .positionalOnly, none, some "()"⟩]⟩))))
  else if ["int", "bool", "dict"].contains name then some (layer (some (.builtIn none)))
  else none

/-- The markers that a class declares itself, with the view identifiers they record, in order. -/
def declared (type : Class) : List (String × Int) :=
  type.attributes.filterMap fun (name, value) =>
    match value with
    | .marker marker => some (name, marker.viewId)
    | _ => none

/-- What stands under a name in a class or its ancestors. -/
def attribute? (type : Class) (name : String) : Option Attribute :=
  type.layers.findSome? fun layer => Pairs.get? layer.attributes name

def constructor? (type : Class) : Option Constructor := type.layers.findSome? (·.constructor)

/-- The signature of a class, if it can be told. A class without a constructor takes nothing. -/
def signature? (type : Class) : Option Signature :=
  match type.constructor? with
  | none => some {}
  | some (.written signature _) => some signature
  | some (.builtIn signature) => signature

def shown (type : Class) : String :=
  let name := if type.moduleName = "builtins" then type.name else type.qualifiedName
  "<class '" ++ name ++ "'>"

/-- The attributes that markers are in a class of some path; a later marker of a name takes the
place of an earlier one. -/
def markers (path : String) (declarations : List (String × Json)) :
    Except NotIdentifier (List (String × Attribute)) := do
  let markers ← declarations.mapM fun (name, value) => do
    let marker ← Marker.of value
    return (name, Attribute.marker { marker with name := some name, owner := some path })
  return Pairs.ofList markers

end Class

end ElementBinding
