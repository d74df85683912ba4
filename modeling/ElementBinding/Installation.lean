import ElementBinding.Program
import ElementBinding.Unit
/-!
# Installed units

Generating a unit for a class of a running program, which makes its module importable. What happens
when the module is imported follows from the source text of the unit alone.
-/
namespace ElementBinding

/-- The fields that a class declares, all of one type or of none. -/
def Class.fields (owner : Class) (type : Option String) : List Field :=
  owner.declared.zipIdx.map fun ((name, viewId), index) =>
    { owner := owner.moduleName ++ "." ++ owner.name, name, type, viewId, line := index + 1 }

/-- The specification that a class gives, whose module may be the one of a package. -/
def Class.spec? (owner : Class) (isPackage : Bool) (type : Option String) (profile : Profile) :
    Except RenderFault Spec :=
  let declared : DeclaredClass :=
    { owner := ⟨owner.moduleName, owner.name, isPackage⟩, fields := owner.fields type }
  declared.spec? profile

/-- The module of a unit, which runs its source text. -/
def BinderUnit.importable (unit : BinderUnit) (normal : String → String) (identity : Identity) :
    ImportableModule where
  effects := [.execute normal identity unit.moduleName unit.source]

/-- Renders a unit and makes its module importable. -/
def Program.install (program : Program) (spec : Spec) (profile : Profile)
    (normal : String → String) (identity : Identity) :
    Except RenderFault (Program × BinderUnit) := do
  let unit ← spec.render profile
  return (program.declareModule unit.moduleName (unit.importable normal identity), unit)

end ElementBinding
