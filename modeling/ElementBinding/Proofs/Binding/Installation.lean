import ElementBinding.Installation
import ElementBinding.Proofs.Binding.Import
import ElementBinding.Proofs.Unit.Program

/-!
# Installed units

Importing the module of a unit runs the text of the unit. The names in it come to what they are
imported for if they are their own normal forms, and then the unit enters a binder for its owner.
This is the one that its specification means, unless the owner is called like the cast and takes its
place.
-/
namespace ElementBinding
open ElementBinding.Naming ElementBinding.Grammar

/-- The unit of a specification can be imported: its texts can stand where it has them, its names
are their own normal forms, and the owner neither has a private name nor is called like the
registering function. -/
structure Spec.Importable (normal : String → String) (spec : Spec) : Prop
    extends spec.Writable where
  normalModule : ∀ part ∈ dottedParts spec.ownerModule, normal part = part
  normalOwner : normal spec.ownerName = spec.ownerName
  normalName : ∀ field ∈ spec.fields, normal field.name = field.name
  unhidden : ¬IsPrivate spec.ownerName
  uncaptured : spec.ownerName ≠ "register_binder"

/-- No class was defined in the place of a function that units import. -/
structure Program.HasFunctions (program : Program) : Prop where
  cast : program.meaning? "typing" "cast" = some .function
  registration :
    program.meaning? "viewbind.runtime.registry" "register_binder" = some .function

theorem Program.HasFunctions.of_extends {before after : Program} (h : before.HasFunctions)
    (hextends : before.Extends after) : after.HasFunctions where
  cast := by
    rw [meaning?, hextends.classes]
    exact h.cast
  registration := by
    rw [meaning?, hextends.classes]
    exact h.registration

namespace Spec

theorem inner_unitProgram (normal : String → String) (spec : Spec) (name : String) :
    spec.unitProgram.inner normal name = Code.key normal (some spec.binderName) name := rfl

theorem inner_of_ascii {normal : String → String} (hnormal : IsNormalForm normal) {name : String}
    (hname : ∀ c ∈ name.toList, c.toNat < 128) (hpublic : ¬IsPrivate name) (spec : Spec) :
    spec.unitProgram.inner normal name = name := by
  rw [inner_unitProgram, Code.key_of_ascii hnormal hname hpublic]

/-- What a unit has imported when its class is defined; what is imported last stands for its
name. -/
def imported (spec : Spec) (owner : Class) : List (String × Meaning) :=
  let functions := if spec.fields.any (·.type.isSome) then [("cast", Meaning.function)] else []
  Pairs.put (Pairs.put functions "register_binder" .function) spec.ownerName (.type owner)

def names (spec : Spec) (owner : Class) : List (String × Meaning) :=
  Pairs.put (spec.imported owner) spec.binderName .binder

/-- The entry that the unit makes, whatever its names denote. -/
def entered (normal : String → String) (spec : Spec) (identity : Identity) (owner : Class) :
    Registration :=
  let unit := spec.unitProgram
  let itself := unit.binderClass normal spec.binderModule identity []
  let steps := unit.populations.flatMap (unit.steps normal (spec.names owner) itself)
  ⟨owner, unit.binderClass normal spec.binderModule identity steps, spec.pairs⟩

end Spec

theorem UnitProgram.readBindings_bindings (unit : UnitProgram) :
    readBindings unit.bindings = .ok unit.entries := by
  have hmap (entries : List (String × Int)) :
      (entries.map fun entry => Json.array [.text entry.1, .integer entry.2]).mapM readBinding =
        .ok entries := by
    induction entries with
    | nil => rfl
    | cons entry rest ih =>
      rw [List.map_cons, List.mapM_cons, ih]
      rfl
  exact hmap unit.entries

theorem UnitProgram.checkSignature_binderClass (normal : String → String) (unit : UnitProgram)
    (moduleName : String) (identity : Identity) (steps : List ConstructorStep) (owner : Class) :
    checkSignature owner (unit.binderClass normal moduleName identity steps) = .ok () := rfl

namespace Program
variable {normal : String → String} {program : Program}

theorem meaning?_of_class {moduleName name : String} {type : Class}
    (h : Pairs.get? program.classes (moduleName, name) = some type) :
    program.meaning? moduleName name = some (.type type) := by
  rw [meaning?, h]

private theorem importName_from {parts : List String} {name source : String}
    {meaning : Meaning} (hparts : ".".intercalate (parts.map normal) = source)
    (hname : normal name = name) (h : program.meaning? source name = some meaning)
    (names : List (String × Meaning)) :
    (importName normal names (parts, name)).from program =
      (.ok (Pairs.put names name meaning), program) := by
  rw [importName, Action.from_bind_of_ok (Action.from_get program), hparts, hname, h]
  rfl

section
variable {spec : Spec} {owner : Class} (hnormal : IsNormalForm normal)
  (h : spec.Importable normal) (hfunctions : program.HasFunctions)
  (hclass : Pairs.get? program.classes (spec.ownerModule, spec.ownerName) = some owner)

include hnormal h hfunctions hclass in
/-- The imports of a unit find the functions, and then the owner. -/
private theorem imports_from :
    (spec.unitProgram.imports.foldlM (importName normal) []).from program =
      (.ok (spec.imported owner), program) := by
  have hcast (names : List (String × Meaning)) :
      (importName normal names (["typing"], "cast")).from program =
        (.ok (Pairs.put names "cast" .function), program) := by
    refine importName_from ?_ (hnormal.ascii (by simp)) hfunctions.cast names
    rw [List.map_singleton, hnormal.ascii (by simp), String.intercalate_singleton]
  have hregistration (names : List (String × Meaning)) :
      (importName normal names (["viewbind", "runtime", "registry"], "register_binder")).from
        program = (.ok (Pairs.put names "register_binder" .function), program) := by
    refine importName_from ?_ (hnormal.ascii (by simp)) hfunctions.registration names
    simp only [List.map_cons, List.map_nil]
    rw [hnormal.ascii (by simp), hnormal.ascii (by simp), hnormal.ascii (by simp)]
    decide +kernel
  have howner (names : List (String × Meaning)) :
      (importName normal names (dottedParts spec.ownerModule, spec.ownerName)).from program =
        (.ok (Pairs.put names spec.ownerName (.type owner)), program) := by
    refine importName_from ?_ h.normalOwner (meaning?_of_class hclass) names
    rw [List.map_congr_left h.normalModule, List.map_id', intercalate_dottedParts]
  unfold Spec.unitProgram Spec.imported
  cases spec.fields.any (·.type.isSome) with
  | false =>
    simp only [Bool.false_eq_true, if_false, List.nil_append, List.foldlM_cons]
    rw [Action.from_bind_of_ok (hregistration _), Action.from_bind_of_ok (howner _)]
    rfl
  | true =>
    simp only [if_true, List.cons_append, List.nil_append, List.foldlM_cons]
    rw [Action.from_bind_of_ok (hcast _), Action.from_bind_of_ok (hregistration _),
      Action.from_bind_of_ok (howner _)]
    rfl

end

end Program

namespace Spec.Importable
variable {normal : String → String} {spec : Spec} {owner : Class}

private theorem normal_binderName_eq (h : spec.Importable normal) (hnormal : IsNormalForm normal) :
    normal spec.binderName = spec.binderName := by
  rw [h.normal_binderName hnormal, h.normalOwner, h.binder]
  rfl

private theorem binderName_ne_of_suffix (h : spec.Importable normal) (hnormal : IsNormalForm normal)
    {name : String} (hname : ¬"Binding".toList <:+ name.toList) : spec.binderName ≠ name := by
  have hne := h.ne_binderName hnormal hname
  rw [h.normal_binderName_eq hnormal] at hne
  exact hne.symm

private theorem binderName_ne_ownerName (h : spec.Importable normal) :
    spec.binderName ≠ spec.ownerName := by
  rw [h.binder]
  intro heq
  have hlength := congrArg String.length heq
  simp [Profile.standard] at hlength

private theorem key_ownerName (h : spec.Importable normal) (level : Option String) :
    Code.key normal level spec.ownerName = spec.ownerName := by
  have hpublic : ¬IsPrivate (normal spec.ownerName) := by
    rw [h.normalOwner]
    exact h.unhidden
  rw [Code.key_of_public hpublic, h.normalOwner]

private theorem get?_names_owner (h : spec.Importable normal) :
    Pairs.get? (spec.names owner) spec.ownerName = some (.type owner) := by
  rw [names, Pairs.get?_put_of_ne h.binderName_ne_ownerName, imported, Pairs.get?_put_self]

private theorem get?_names_registration (h : spec.Importable normal)
    (hnormal : IsNormalForm normal) :
    Pairs.get? (spec.names owner) "register_binder" = some .function := by
  rw [names, Pairs.get?_put_of_ne (h.binderName_ne_of_suffix hnormal (by decide)), imported,
    Pairs.get?_put_of_ne h.uncaptured, Pairs.get?_put_self]

private theorem get?_names_cast (h : spec.Importable normal) (hnormal : IsNormalForm normal)
    (htyped : spec.fields.any (·.type.isSome)) (hcast : spec.ownerName ≠ "cast") :
    Pairs.get? (spec.names owner) "cast" = some .function := by
  rw [names, Pairs.get?_put_of_ne (h.binderName_ne_of_suffix hnormal (by decide)), imported,
    Pairs.get?_put_of_ne hcast, if_pos htyped]
  rfl

end Spec.Importable

namespace Program
variable {normal : String → String} {program : Program}

/-- A binder that takes the instance of its owner is entered for an owner that has none. -/
private theorem register_fresh {owner binder : Class} {unit : UnitProgram}
    (hnone : program.registry.lookup? owner = none)
    (hbinder : checkSignature owner binder = .ok ()) :
    (register .own (.type owner) (.type binder) unit.bindings).from program =
      (.ok ⟨owner, binder, unit.entries⟩,
        { program with registry := program.registry.insert ⟨owner, binder, unit.entries⟩ }) := by
  have hentry : Registry.entry (.type owner) (.type binder) unit.bindings =
      .ok ⟨owner, binder, unit.entries⟩ := by
    rw [Registry.entry, unit.readBindings_bindings, hbinder]
    rfl
  have hregister : program.registry.register (.type owner) (.type binder) unit.bindings =
      .ok (program.registry.insert ⟨owner, binder, unit.entries⟩,
        ⟨owner, binder, unit.entries⟩) := by
    simp only [Registry.register, hentry, Bind.bind, Except.bind, hnone]
    rfl
  have hown : program.registryAt .own = program.registry := rfl
  rw [register_from, hown, hregister]
  rfl

private theorem enter_from (hnormal : IsNormalForm normal) {spec : Spec}
    (h : spec.Importable normal) {owner binder : Class}
    (hnone : program.registry.lookup? owner = none)
    (hbinder : checkSignature owner binder = .ok ()) :
    (enter normal (spec.names owner) spec.unitProgram binder).from program =
      (.ok ⟨⟩,
        { program with registry := program.registry.insert ⟨owner, binder, spec.pairs⟩ }) := by
  have hfunction : normal "register_binder" = "register_binder" := hnormal.ascii (by simp)
  have howner : normal spec.unitProgram.owner = spec.ownerName := h.normalOwner
  simp only [enter, hfunction, howner, h.get?_names_registration hnormal, h.get?_names_owner]
  exact Action.from_bind_of_ok (register_fresh hnone hbinder) _

/-- Running the program of a unit makes its entry for the owner that it imports. -/
theorem runUnit_from (hnormal : IsNormalForm normal) {spec : Spec} (h : spec.Importable normal)
    (hfunctions : program.HasFunctions) {owner : Class}
    (hclass : Pairs.get? program.classes (spec.ownerModule, spec.ownerName) = some owner)
    (hnone : program.registry.lookup? owner = none) (identity : Identity) :
    (runUnit normal identity spec.binderModule spec.unitProgram).from program =
      (.ok ⟨⟩, { program with
        registry := program.registry.insert (spec.entered normal identity owner) }) := by
  have hhint : spec.unitProgram.inner normal spec.unitProgram.owner = spec.ownerName :=
    h.key_ownerName (some spec.binderName)
  have hfound : Pairs.get? (spec.imported owner) spec.ownerName = some (.type owner) :=
    Pairs.get?_put_self _ _ _
  have hclassName : normal spec.unitProgram.className = spec.binderName :=
    h.normal_binderName_eq hnormal
  rw [runUnit, Action.from_bind_of_ok (imports_from hnormal h hfunctions hclass)]
  simp only [hhint, hfound, hclassName]
  exact enter_from hnormal h hnone (UnitProgram.checkSignature_binderClass ..)

/-- The module of an installed unit makes its entry for the owner that it imports. -/
theorem run_importable (hnormal : IsNormalForm normal) {spec : Spec} (h : spec.Importable normal)
    {unit : BinderUnit} (hrender : spec.render .standard = .ok unit)
    (hfunctions : program.HasFunctions) {owner : Class}
    (hclass : Pairs.get? program.classes (spec.ownerModule, spec.ownerName) = some owner)
    (hnone : program.registry.lookup? owner = none) (identity : Identity) :
    (run unit.moduleName (unit.importable normal identity)).from program =
      (.ok ⟨⟩, { program with
        registry := program.registry.insert (spec.entered normal identity owner)
        executed := program.executed ++ [unit.moduleName]
        loaded := Pairs.put program.loaded unit.moduleName false }) := by
  let started : Program := { program with executed := program.executed ++ [unit.moduleName] }
  have heffect : (carryOut (.execute normal identity unit.moduleName unit.source)).from started =
      (.ok ⟨⟩, { started with
        registry := program.registry.insert (spec.entered normal identity owner) }) := by
    rw [carryOut, h.execute_eq hrender, (Spec.render_ok hrender).2.1]
    have hstarted : started.HasFunctions := hfunctions.of_extends ⟨rfl, rfl, fun _ _ h => h⟩
    exact runUnit_from hnormal h hstarted hclass hnone identity
  rw [run, Action.from_bind_of_ok (Action.from_modify _ _), BinderUnit.importable,
    List.forM_eq_forM, List.forM_cons, List.forM_nil, bind_assoc, Action.from_bind_of_ok heffect]
  rfl

theorem install_ok {installed : Program} {spec : Spec} {profile : Profile} {identity : Identity}
    {unit : BinderUnit} (h : program.install spec profile normal identity = .ok (installed, unit)) :
    spec.render profile = .ok unit ∧
      installed = program.declareModule unit.moduleName (unit.importable normal identity) := by
  unfold install at h
  cases hrender : spec.render profile with
  | error fault => simp [hrender, Bind.bind, Except.bind] at h
  | ok rendered =>
    simp only [hrender, Bind.bind, Except.bind, pure, Except.pure, Except.ok.injEq,
      Prod.mk.injEq] at h
    obtain ⟨rfl, rfl⟩ := h
    exact ⟨rfl, rfl⟩

end Program

namespace Spec.Importable
variable {normal : String → String} {spec : Spec} {owner : Class}

/-- A statement of the constructor finds the element of its field, with the cast that was
imported. -/
private theorem steps_eq (h : spec.Importable normal) (hnormal : IsNormalForm normal)
    (hcast : spec.fields.any (·.type.isSome) → spec.ownerName ≠ "cast") {field : Field}
    (hfield : field ∈ spec.fields) (hplain : privateName spec.binderName field.name = field.name)
    (itself : Class) :
    spec.unitProgram.steps normal (spec.names owner) itself field.population =
      [.populate field.name Profile.standard.lookupMethod field.viewId] := by
  have hname : spec.unitProgram.inner normal field.name = field.name := by
    rw [inner_unitProgram, Code.key, h.normal_binderName_eq hnormal, h.normalName field hfield,
      hplain]
  have hfinder : spec.unitProgram.inner normal "find_by_identifier" = "find_by_identifier" :=
    inner_of_ascii hnormal (by simp) (by decide) spec
  have hcastName : spec.unitProgram.inner normal "cast" = "cast" :=
    inner_of_ascii hnormal (by simp) (by decide) spec
  simp only [UnitProgram.steps, Field.population, Profile.standard, hname, hfinder, hcastName]
  split
  · rename_i htype
    have htyped : spec.fields.any (·.type.isSome) := List.any_eq_true.mpr ⟨field, hfield, htype⟩
    rw [h.get?_names_cast hnormal htyped (hcast htyped)]
  · rfl

/-- The entry that the unit makes is the one that is meant, unless the owner stands for the cast. -/
theorem entered_eq (h : spec.Importable normal) (hnormal : IsNormalForm normal)
    (hcast : spec.fields.any (·.type.isSome) → spec.ownerName ≠ "cast")
    (hplain : ∀ field ∈ spec.pairs, privateName spec.binderName field.1 = field.1)
    (identity : Identity) :
    spec.entered normal identity owner = spec.registration .standard identity owner := by
  have hsteps (itself : Class) :
      spec.unitProgram.populations.flatMap
        (spec.unitProgram.steps normal (spec.names owner) itself) =
        Host.populateSteps Profile.standard.lookupMethod spec.pairs := by
    have hmap : spec.unitProgram.populations = spec.fields.map Field.population := rfl
    rw [hmap, List.flatMap_map, Host.populateSteps, pairs, List.map_map, List.map_eq_flatMap]
    refine List.flatMap_congr fun field hfield => ?_
    have hname := hplain (field.name, field.viewId) (List.mem_map_of_mem hfield)
    exact h.steps_eq hnormal hcast hfield hname itself
  have hlevel : normal spec.unitProgram.className = spec.binderName :=
    h.normal_binderName_eq hnormal
  have hparameter : spec.unitProgram.inner normal "target" = "target" :=
    inner_of_ascii hnormal (by simp) (by decide) spec
  have htarget : spec.unitProgram.parameter = "target" := rfl
  simp only [entered, UnitProgram.binderClass, hsteps, hlevel, htarget, hparameter]
  rfl

end Spec.Importable
end ElementBinding
