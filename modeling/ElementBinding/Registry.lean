import ElementBinding.Bindings
import ElementBinding.Class
/-!
# Registries

A registry holds one binder for each owner class, in the order in which the owners were first
registered. Registering again replaces an entry where it stands, but only by a binder of the same
name. A refused registration leaves the registry as it was.
-/
namespace ElementBinding

/-- What is given to a registry as an owner or a binder. -/
inductive Registrant where
  | type (type : Class)
  | value (value : Json)

def Registrant.shown : Registrant → String
  | type registrant => registrant.shown
  | value registrant => registrant.shown

/-- A registered binder and the fields it assigns. -/
structure Registration where
  owner : Class
  binder : Class
  bindings : List (String × Int)

/-- Why a registration is refused. -/
inductive RegistrationFault where
  | notClasses (owner binder : String)
  /-- The binder does not tell its signature. -/
  | noSignature (binder shown : String)
  | badSignature (binder : String) (signature : Signature) (owner : String)
  | bindings (fault : BindingFault)
  | occupied (owner current refused : String)
deriving DecidableEq

namespace RegistrationFault

def kind : RegistrationFault → String
  | notClasses .. => "RegistrationError"
  | noSignature .. => "BinderSignatureError"
  | badSignature .. => "BinderSignatureError"
  | bindings fault => fault.kind
  | occupied .. => "RegistrationError"

def message : RegistrationFault → String
  | notClasses owner binder => "register() takes classes, got " ++ owner ++ " and " ++ binder
  | noSignature binder shown =>
    "cannot inspect constructor of " ++ binder ++ ": no signature found for builtin type " ++ shown
  | badSignature binder signature owner =>
    binder ++ signature.text ++ " must take exactly one positional parameter, the " ++ owner ++
      " instance"
  | bindings fault => fault.message
  | occupied owner current refused =>
    owner ++ " already has binder " ++ current ++ ", refusing " ++ refused

def raised (fault : RegistrationFault) : Raised where
  type := .builtIn fault.kind
  message := fault.message

end RegistrationFault

/-- The constructor of a binder must take the instance of the owner and nothing else. -/
def checkSignature (owner binder : Class) : Except RegistrationFault Unit :=
  match binder.signature? with
  | none => .error (.noSignature binder.qualifiedName binder.shown)
  | some signature =>
    if signature.takesInstance then .ok ()
    else .error (.badSignature binder.qualifiedName signature owner.path)

structure Registry where
  entries : List Registration := []

namespace Registry

/-- The entry of exactly one owner, whatever its ancestors. -/
def lookup? (registry : Registry) (owner : Class) : Option Registration :=
  registry.entries.find? (·.owner.identity = owner.identity)

/-- Puts an entry in the place of the owner's entry, or behind all others. -/
def insert (registry : Registry) (entry : Registration) : Registry where
  entries := place registry.entries
where
  place : List Registration → List Registration
    | [] => [entry]
    | other :: rest =>
      if other.owner.identity = entry.owner.identity then entry :: rest else other :: place rest

/-- The entry that a registration asks for. -/
def entry (owner binder : Registrant) (bindings : Json) : Except RegistrationFault Registration :=
  match owner, binder with
  | .type owner, .type binder => do
    checkSignature owner binder
    return ⟨owner, binder, ← (readBindings bindings).mapError .bindings⟩
  | _, _ => .error (.notClasses owner.shown binder.shown)

def register (registry : Registry) (owner binder : Registrant) (bindings : Json) :
    Except RegistrationFault (Registry × Registration) := do
  let entry ← entry owner binder bindings
  match registry.lookup? entry.owner with
  | some current =>
    if current.binder.qualifiedName = entry.binder.qualifiedName then
      return (registry.insert entry, entry)
    else
      throw (.occupied entry.owner.qualifiedName current.binder.qualifiedName
        entry.binder.qualifiedName)
  | none => return (registry.insert entry, entry)

end Registry

end ElementBinding
