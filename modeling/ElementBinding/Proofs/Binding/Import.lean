import ElementBinding.Program
import ElementBinding.Proofs.Action
import ElementBinding.Proofs.Naming
import ElementBinding.Proofs.Pairs
import ElementBinding.Proofs.Registry

/-!
# Imports

Importing a module changes neither the modules that can be imported nor the classes they define, and
takes no owner's entry away. The packages around a module are those around its own package, and that
package itself. Of a module and its packages, an import runs each at most once.
-/
namespace ElementBinding
open ElementBinding.Naming ElementBinding.Text

namespace Program

@[simp] theorem registryAt_setRegistry_self (program : Program) (registry : Registry)
    (reference : RegistryReference) :
    (program.setRegistry registry reference).registryAt reference = registry := by
  cases reference with
  | own => rfl
  | further name => simp [setRegistry, registryAt, Pairs.get?_put_self]

theorem registryAt_setRegistry_of_ne {reference other : RegistryReference} (h : other ≠ reference)
    (program : Program) (registry : Registry) :
    (program.setRegistry registry reference).registryAt other = program.registryAt other := by
  cases reference with
  | own => cases other <;> first | rfl | exact absurd rfl h
  | further name =>
    cases other with
    | own => rfl
    | further another =>
      have hname : name ≠ another := fun heq => h (heq ▸ rfl)
      simp [setRegistry, registryAt, Pairs.get?_put_of_ne hname]

/-- What imports keep: the modules, the classes, and that an owner has an entry. -/
structure Extends (before after : Program) : Prop where
  modules : after.modules = before.modules
  classes : after.classes = before.classes
  unclaimed : ∀ reference owner, (after.registryAt reference).lookup? owner = none →
    (before.registryAt reference).lookup? owner = none

namespace Extends

protected theorem rfl {program : Program} : Extends program program :=
  ⟨rfl, rfl, fun _ _ h => h⟩

protected theorem trans {first second third : Program} (h : Extends first second)
    (h' : Extends second third) : Extends first third :=
  ⟨h'.modules.trans h.modules, h'.classes.trans h.classes,
    fun reference owner hnone => h.unclaimed reference owner (h'.unclaimed reference owner hnone)⟩

instance : IsPreorder Program Extends where
  refl _ := .rfl
  trans _ _ _ := .trans

end Extends

def Extending (action : Action Program Raised α) : Prop :=
  ∀ program, Extends program (action.from program).2

namespace Extending
variable {α β : Type}

theorem of_pure (value : α) : Extending (pure value) := Action.Leaves.of_pure value

theorem of_throw (raised : Raised) : Extending (throw raised : Action Program Raised α) :=
  Action.Leaves.of_throw raised

theorem of_get : Extending get := Action.Leaves.of_get

theorem of_modify {change : Program → Program} (h : ∀ program, Extends program (change program)) :
    Extending (modify change) := h

theorem of_bind {action : Action Program Raised α} {next : α → Action Program Raised β}
    (h : Extending action) (hnext : ∀ value, Extending (next value)) :
    Extending (action >>= next) := Action.Leaves.of_bind h hnext

end Extending

theorem register_from (reference : RegistryReference) (owner binder : Registrant) (bindings : Json)
    (program : Program) :
    (register reference owner binder bindings).from program =
      match (program.registryAt reference).register owner binder bindings with
      | .ok (registry, entry) => (.ok entry, program.setRegistry registry reference)
      | .error fault => (.error fault.raised, program) := by
  unfold register
  rw [Action.from_bind_of_ok (Action.from_get program)]
  rcases (program.registryAt reference).register owner binder bindings with
    fault | ⟨registry, entry⟩ <;> rfl

/-- What an effect of a module changes are the registries, in which no owner loses its entry. -/
structure Enters (before after : Program) : Prop extends Extends before after where
  executed : after.executed = before.executed

instance : IsPreorder Program Enters where
  refl _ := ⟨.rfl, rfl⟩
  trans _ _ _ h h' := ⟨h.toExtends.trans h'.toExtends, h'.executed.trans h.executed⟩

theorem register_enters (reference : RegistryReference) (owner binder : Registrant)
    (bindings : Json) : Action.Leaves Enters (register reference owner binder bindings) := by
  intro program
  rw [register_from]
  split
  · rename_i registry entry hregister
    have hkept : (program.setRegistry registry reference).modules = program.modules ∧
        (program.setRegistry registry reference).classes = program.classes ∧
        (program.setRegistry registry reference).executed = program.executed := by
      cases reference <;> exact ⟨rfl, rfl, rfl⟩
    refine ⟨⟨hkept.1, hkept.2.1, fun other owner hnone => ?_⟩, hkept.2.2⟩
    by_cases hother : other = reference
    · subst hother
      rw [registryAt_setRegistry_self, Registry.eq_insert_of_register hregister,
        Registry.lookup?_insert] at hnone
      split at hnone
      · exact absurd hnone (by simp)
      · exact hnone
    · rwa [registryAt_setRegistry_of_ne hother] at hnone
  · exact refl_of Enters program

section
open Action.Leaves

private theorem importName_enters (normal : String → String) (names : List (String × Meaning))
    (imported : List String × String) :
    Action.Leaves Enters (importName normal names imported) := by
  refine of_bind of_get fun program => ?_
  split
  · exact of_pure _
  · exact of_throw _

private theorem enter_enters (normal : String → String) (names : List (String × Meaning))
    (unit : UnitProgram) (binder : Class) :
    Action.Leaves Enters (enter normal names unit binder) := by
  unfold enter
  split
  · exact of_throw _
  · exact of_throw _
  · exact of_bind (register_enters _ _ _ _) fun _ => of_pure _
  · exact of_throw _
  · exact of_throw _

private theorem runUnit_enters (normal : String → String) (identity : Identity)
    (moduleName : String) (unit : UnitProgram) :
    Action.Leaves Enters (runUnit normal identity moduleName unit) := by
  refine of_bind (of_foldlM (importName_enters normal) unit.imports []) fun names => ?_
  dsimp only
  split
  · exact of_bind (of_throw _) fun _ => enter_enters _ _ _ _
  · exact enter_enters _ _ _ _

private theorem execute_enters (normal : String → String) (identity : Identity)
    (moduleName source : String) :
    Action.Leaves Enters (execute normal identity moduleName source) := by
  unfold execute
  split
  · exact of_throw _
  · split
    · exact runUnit_enters _ _ _ _
    · exact of_pure _

theorem carryOut_enters (effect : Effect) : Action.Leaves Enters (carryOut effect) := by
  cases effect with
  | register reference owner binder bindings =>
    exact of_bind (register_enters _ _ _ _) fun _ => of_pure _
  | execute normal identity moduleName source => exact execute_enters _ _ _ _
  | fail raised => exact of_throw _

end

theorem run_extending (name : String) (module : ImportableModule) :
    Extending (run name module) := by
  have heffects : Extending (module.effects.forM carryOut) := fun program =>
    (Action.Leaves.of_forM carryOut_enters module.effects program).toExtends
  refine .of_bind (.of_modify fun _ => ⟨rfl, rfl, fun _ _ h => h⟩) fun _ => ?_
  refine heffects.of_bind fun _ => ?_
  exact .of_modify fun _ => ⟨rfl, rfl, fun _ _ h => h⟩

private theorem runFound_extending (name : String) : Extending (do
    match Pairs.get? (← get).modules name with
    | some module => run name module
    | none => throw (notFound name "")) := by
  refine .of_bind .of_get fun program => ?_
  split
  · exact run_extending _ _
  · exact .of_throw _

theorem importFrom_extending (names : List String) : Extending (importFrom names) := by
  induction names with
  | nil => exact .of_pure _
  | cons name packages ih =>
    rw [importFrom]
    refine .of_bind .of_get fun program => ?_
    split
    · exact .of_pure _
    · refine ih.of_bind fun _ => ?_
      cases packages.head? with
      | none => exact runFound_extending name
      | some package =>
        refine .of_bind .of_get fun program => ?_
        split
        · exact runFound_extending name
        · exact .of_throw _

theorem run_executed (name : String) (module : ImportableModule) (program : Program) :
    ((run name module).from program).2.executed = program.executed ++ [name] := by
  rw [run, Action.from_bind_of_ok (Action.from_modify _ _), Action.from_bind]
  have heffects := (Action.Leaves.of_forM carryOut_enters module.effects
    { program with executed := program.executed ++ [name] }).executed
  rcases hrun : Action.from (module.effects.forM carryOut)
    { program with executed := program.executed ++ [name] } with ⟨outcome, after⟩
  rw [hrun] at heffects
  cases outcome <;> exact heffects

private theorem runFound_executed (name : String) (program : Program) :
    ∃ ran, ran.Sublist [name] ∧ (Action.from (do
      match Pairs.get? (← get).modules name with
      | some module => run name module
      | none => throw (notFound name "") : Action Program Raised Unit) program).2.executed =
        program.executed ++ ran := by
  rw [Action.from_bind_of_ok (Action.from_get program)]
  split
  · exact ⟨[name], .refl _, run_executed name _ program⟩
  · exact ⟨[], List.nil_sublist _, (List.append_nil _).symm⟩

/-- What an import runs are some of the modules asked for, from the outermost, each at most once. -/
theorem importFrom_executed (names : List String) (program : Program) :
    ∃ ran, ran.Sublist names.reverse ∧
      ((importFrom names).from program).2.executed = program.executed ++ ran := by
  induction names generalizing program with
  | nil => exact ⟨[], .slnil, (List.append_nil _).symm⟩
  | cons name packages ih =>
    obtain ⟨ran, hran, hexecuted⟩ := ih program
    have hwider : ran.Sublist (name :: packages).reverse := by
      rw [List.reverse_cons]
      exact hran.trans (List.sublist_append_left _ _)
    rw [importFrom, Action.from_bind_of_ok (Action.from_get program)]
    split
    · exact ⟨[], List.nil_sublist _, (List.append_nil _).symm⟩
    rw [Action.from_bind]
    rcases hpackages : (importFrom packages).from program with ⟨outcome, ready⟩
    rw [hpackages] at hexecuted
    cases outcome with
    | error raised => exact ⟨ran, hwider, hexecuted⟩
    | ok _ =>
      -- What this module runs comes behind what its packages have run.
      obtain ⟨more, hmore, hlast⟩ := runFound_executed name ready
      have hboth : (ran ++ more).Sublist (name :: packages).reverse := by
        rw [List.reverse_cons]
        exact hran.append hmore
      rw [hexecuted, List.append_assoc] at hlast
      cases packages.head? with
      | none => exact ⟨_, hboth, hlast⟩
      | some package =>
        dsimp only
        rw [Action.from_bind_of_ok (Action.from_get ready)]
        split
        · exact ⟨_, hboth, hlast⟩
        · exact ⟨ran, hwider, hexecuted⟩

theorem importFrom_found {name : String} {packages : List String} {program ready : Program}
    {module : ImportableModule} (hfresh : program.isLoaded name = false)
    (hpackages : (importFrom packages).from program = (.ok ⟨⟩, ready))
    (hpackage : ∀ package, packages.head? = some package → ready.isLoadedPackage package = true)
    (hmodule : Pairs.get? program.modules name = some module) :
    (importFrom (name :: packages)).from program = (run name module).from ready := by
  have hready := (importFrom_extending packages program).modules
  rw [hpackages] at hready
  rw [importFrom, Action.from_bind_of_ok (Action.from_get program)]
  simp only [hfresh, Bool.false_eq_true, if_false]
  rw [Action.from_bind_of_ok hpackages]
  have hrun : (do
      match Pairs.get? (← get).modules name with
      | some module => run name module
      | none => throw (notFound name "") : Action Program Raised Unit).from ready =
        (run name module).from ready := by
    rw [Action.from_bind_of_ok (Action.from_get ready), hready, hmodule]
  cases hhead : packages.head? with
  | none => exact hrun
  | some package =>
    dsimp only
    rw [Action.from_bind_of_ok (Action.from_get ready), if_pos (hpackage package hhead)]
    exact hrun

theorem importFrom_of_isLoaded {name : String} {program : Program}
    (h : program.isLoaded name = true) (packages : List String) :
    (importFrom (name :: packages)).from program = (.ok ⟨⟩, program) := by
  rw [importFrom, Action.from_bind_of_ok (Action.from_get program), if_pos h]
  rfl

private def beginnings (parts : List String) : List String :=
  (List.range parts.length).map fun count => ".".intercalate (parts.take (count + 1))

private theorem beginnings_concat (parts : List String) (last : String) :
    beginnings (parts ++ [last]) = beginnings parts ++ [".".intercalate (parts ++ [last])] := by
  rw [beginnings, List.length_append, List.length_singleton, List.range_succ, List.map_append]
  congr 1
  · refine List.map_congr_left fun count hcount => ?_
    rw [List.take_append_of_le_length (by have := List.mem_range.mp hcount; omega)]
  · simp [List.take_of_length_le]

private theorem enclosing_eq_beginnings (name : String) :
    enclosing name = ((beginnings (dottedParts name)).filter (· ≠ "")).reverse := rfl

theorem enclosing_empty : enclosing "" = [] := by decide +kernel

/-- The packages around a module are its package and those around that. -/
theorem enclosing_eq_cons {name : String} (h : name ≠ "") :
    enclosing name = name :: enclosing (packageOf name) := by
  have hjoined := intercalate_dottedParts name
  rcases dotless_or_append name with hdotless | ⟨package, leaf, hleaf, hname⟩
  · rw [packageOf_of_dotless hdotless, enclosing_eq_beginnings]
    have hparts : dottedParts name = [name] := by
      rw [dottedParts, splitAt_of_not_mem hdotless]
      simp
    rw [enclosing_empty, hparts]
    simp [beginnings, h]
  · have hparts : dottedParts name = dottedParts (packageOf name) ++ [String.ofList leaf] := by
      rw [hname, packageOf_append hleaf, dottedParts, String.toList_ofList, splitAt_append,
        splitAt_of_not_mem hleaf, dottedParts, String.toList_ofList, List.map_append]
      rfl
    rw [enclosing_eq_beginnings, enclosing_eq_beginnings, hparts, beginnings_concat, ← hparts,
      hjoined, List.filter_append]
    simp [h]

private theorem length_packageOf_lt {name : String} (h : name ≠ "") :
    (packageOf name).length < name.length := by
  rcases dotless_or_append name with hdotless | ⟨package, leaf, hleaf, hname⟩
  · rw [packageOf_of_dotless hdotless]
    exact Nat.pos_of_ne_zero fun hzero => h (String.length_eq_zero_iff.mp hzero)
  · rw [hname, packageOf_append hleaf, String.length_ofList, String.length_ofList,
      List.length_append, List.length_cons]
    omega

private theorem enclosing_shortens (name : String) :
    (∀ other ∈ enclosing name, other.length ≤ name.length) ∧
      (enclosing name).Pairwise fun inner outer => outer.length < inner.length := by
  induction hlength : name.length using Nat.strong_induction_on generalizing name with
  | _ length ih =>
    subst hlength
    by_cases hname : name = ""
    · rw [hname, enclosing_empty]
      exact ⟨by simp, .nil⟩
    · have hshorter := length_packageOf_lt hname
      obtain ⟨hle, hpairs⟩ := ih _ hshorter (packageOf name) rfl
      rw [enclosing_eq_cons hname]
      constructor
      · intro other hother
        rcases List.mem_cons.mp hother with rfl | hother
        · exact le_rfl
        · exact (hle other hother).trans hshorter.le
      · exact .cons (fun other hother => (hle other hother).trans_lt hshorter) hpairs

/-- The packages around a module are different modules. -/
theorem nodup_enclosing (name : String) : (enclosing name).Nodup :=
  (enclosing_shortens name).2.imp fun hshorter heq => absurd (heq ▸ hshorter) (lt_irrefl _)

theorem importModule_extending (name : String) : Extending (importModule name) :=
  importFrom_extending (enclosing name)

private theorem head?_enclosing {name package : String}
    (h : (enclosing name).head? = some package) : name ≠ "" ∧ package = name := by
  by_cases hname : name = ""
  · rw [hname, enclosing_empty] at h
    simp at h
  · rw [enclosing_eq_cons hname] at h
    exact ⟨hname, by simpa using h.symm⟩

theorem importModule_found {name : String} {program ready : Program} {module : ImportableModule}
    (hname : name ≠ "") (hfresh : program.isLoaded name = false)
    (himport : (importModule (packageOf name)).from program = (.ok ⟨⟩, ready))
    (hpackage : packageOf name ≠ "" → ready.isLoadedPackage (packageOf name) = true)
    (hmodule : Pairs.get? program.modules name = some module) :
    (importModule name).from program = (run name module).from ready := by
  rw [importModule, enclosing_eq_cons hname]
  refine importFrom_found hfresh himport (fun package hhead => ?_) hmodule
  obtain ⟨hne, rfl⟩ := head?_enclosing hhead
  exact hpackage hne

theorem importModule_of_isLoaded {name : String} {program : Program} (hname : name ≠ "")
    (h : program.isLoaded name = true) : (importModule name).from program = (.ok ⟨⟩, program) := by
  rw [importModule, enclosing_eq_cons hname]
  exact importFrom_of_isLoaded h _

end Program
end ElementBinding
