import ElementBinding.Action
import ElementBinding.Class
/-!
# Hosts

Instances of owner classes. A host knows some elements by their view identifiers, and records every
element that is looked up. Its fields are assigned by the constructor of a binder.
-/
namespace ElementBinding
open ElementBinding.Text

/-- An element that was looked up: its view identifier and the number of the look-up. -/
structure Element where
  viewId : Int
  order : Nat
deriving DecidableEq

def Element.text (element : Element) : String :=
  let digits := String.ofList (Nat.toDigits 16 element.viewId.natAbs)
  "view:" ++ (if element.viewId < 0 then "-" else "") ++ "0x" ++ digits ++ "#" ++
    toString element.order

structure Host where
  type : Class
  /-- The view identifiers it knows, if not all. -/
  known : Option (List Int) := none
  /-- The fields in the order in which they were first assigned. -/
  fields : List (String × Element) := []
  lookups : List Int := []

namespace Host

/-- What a host shows under a name: the element of a field, or a value of its class. A marker whose
field was not assigned shows nothing. -/
def get? (host : Host) (name : String) : Except Raised Json :=
  match Pairs.get? host.fields name, host.type.attribute? name with
  | some element, _ => .ok (.text element.text)
  | none, some (.value value) => .ok value
  | none, some _ => .ok .null
  | none, none => .error (.of "AttributeError" (some (missing name)))
where
  missing (name : String) : String :=
    quoted host.type.name ++ " object has no attribute " ++ quoted name

def notCallable (typeName : String) : Raised :=
  .of "TypeError" (some (quoted typeName ++ " object is not callable"))

def lookUp (viewId : Int) : Action Host Raised Element := do
  let host ← get
  if host.known.all (·.contains viewId) then
    let lookups := host.lookups ++ [viewId]
    set { host with lookups }
    return ⟨viewId, lookups.length⟩
  else
    match idText viewId with
    | .ok text => throw (.of "LookupError" (some ("no view with id " ++ text)))
    | .error fault => throw (.of "ValueError" (some fault.message))

/-- Calls a method of a host by its name with a view identifier. -/
def call (method : String) (viewId : Int) : Action Host Raised Element := do
  let host ← get
  match Pairs.get? host.fields method, host.type.attribute? method with
  | some _, _ => throw (notCallable "str")
  | none, some .finder => lookUp viewId
  | none, some (.marker _) => throw (notCallable "NoneType")
  | none, some (.value value) => throw (notCallable value.typeName)
  | none, none => throw (.of "AttributeError" (some (get?.missing host method)))

def carryOut : ConstructorStep → Action Host Raised Unit
  | .populate field finder viewId => do
    let element ← call finder viewId
    modify fun host => { host with fields := Pairs.put host.fields field element }
  | .lookUp finder viewId => discard (call finder viewId)
  | .fail raised => throw raised

/-- Runs the constructor of a class on a host. -/
def populate (binder : Class) : Action Host Raised Unit :=
  match binder.constructor? with
  | some (.written _ steps) => steps.forM carryOut
  | _ => return ()

end Host

end ElementBinding
