import ElementBinding.Digest
import ElementBinding.Spec
import ElementBinding.Text.Integer
/-!
# Generated units

The source text of a binder module. It begins with a comment by which generated modules are known,
imports the owner, defines the binder class and enters it into the registry. Equal specifications
give equal text: it holds no time, no absolute path and nothing about the environment.
-/
namespace ElementBinding

/-- What every generated module begins with. -/
def generatedMarker : String := "# Generated by viewbind"

/-- The first line of every generated module. -/
def generatedHeader : String := generatedMarker ++ " v0. Do not edit."

def isGenerated (text : List Char) : Bool := generatedMarker.toList.isPrefixOf text

/-- A text as a string literal of the generated source. -/
def quoteLiteral (text : String) : String :=
  let escaped := text.toList.flatMap fun c => if c = '\\' || c = '"' then ['\\', c] else [c]
  "\"" ++ String.ofList escaped ++ "\""

/-- Why no unit is written for a class. -/
inductive RenderFault where
  | noFields (owner : String)
  /-- A view identifier has too many digits to be written. -/
  | idTooLong
deriving DecidableEq

def RenderFault.message : RenderFault → String
  | noFields owner => owner ++ " has no annotated fields"
  | idTooLong =>
    "Exceeds the limit (4300 digits) for integer string conversion; " ++
      "use sys.set_int_max_str_digits() to increase the limit"

def idText (viewId : Int) : Except RenderFault String :=
  match Text.decimal? viewId with
  | some text => .ok text
  | none => .error .idTooLong

/-- The statement of the constructor that populates a field. -/
def assignmentLine (profile : Profile) (field : Field) : Except RenderFault String := do
  let target := profile.targetParameter
  let lookup := target ++ "." ++ profile.lookupMethod ++ "(" ++ (← idText field.viewId) ++ ")"
  let value := match field.type with
    | some type => "cast(" ++ quoteLiteral type ++ ", " ++ lookup ++ ")"
    | none => lookup
  return "        " ++ target ++ "." ++ field.name ++ " = " ++ value

/-- The entry of a field in the registration. -/
def registrationLine (field : Field) : Except RenderFault String := do
  return "    (" ++ quoteLiteral field.name ++ ", " ++ (← idText field.viewId) ++ "),"

def unitLines (spec : Spec) (profile : Profile) : Except RenderFault (List String) := do
  let assignments ← spec.fields.mapM (assignmentLine profile)
  let registrations ← spec.fields.mapM registrationLine
  let typed := spec.fields.any (·.type.isSome)
  return [generatedHeader, "# owner: " ++ spec.ownerQualifiedName] ++
    (if typed then ["from typing import cast", ""] else []) ++
    ["from viewbind.runtime.registry import register_binder",
      "",
      "from " ++ spec.ownerModule ++ " import " ++ spec.ownerName,
      "",
      "",
      "class " ++ spec.binderName ++ ":",
      "    def __init__(self, " ++ profile.targetParameter ++ ": " ++ spec.ownerName ++
        ") -> None:"] ++
    assignments ++
    ["", "", "register_binder(" ++ spec.ownerName ++ ", " ++ spec.binderName ++ ", ("] ++
    registrations ++ ["))"]

/-- A binder module: its name, the relative path of its file, and its source text. -/
structure BinderUnit where
  moduleName : String
  path : String
  source : String
deriving DecidableEq

def BinderUnit.digest (unit : BinderUnit) : String := Digest.ofText unit.source

def Spec.render (spec : Spec) (profile : Profile) : Except RenderFault BinderUnit := do
  let lines ← unitLines spec profile
  return ⟨spec.binderModule, spec.unitPath, "\n".intercalate lines ++ "\n"⟩

/-- The specification of a class that must have fields. -/
def DeclaredClass.spec? (declared : DeclaredClass) (profile : Profile) :
    Except RenderFault Spec :=
  if declared.fields.isEmpty then .error (.noFields declared.owner.qualifiedName)
  else .ok (declared.spec profile)

end ElementBinding
