import ElementBinding.Proofs.Grammar.Declarations
import ElementBinding.Proofs.TypeHint.Spacing

/-!
# What a scan declares

The classes of a source and their fields have names, and no blank in the normal form of an
annotation is but a space, so no text of a declared class can break a line of its unit.
-/
namespace ElementBinding
open ElementBinding.Text ElementBinding.Grammar

/-- What the scan takes for a field: a name, a normal form without null characters and a natural
number. -/
structure Field.Scanned (field : Field) : Prop where
  name : IsName field.name
  type : ∀ type, field.type = some type → ∃ raw, type = TypeHint.normalize raw
  nullFree : ∀ type, field.type = some type → ∀ c ∈ type.toList, c.toNat ≠ 0
  viewId : ∃ value : Nat, field.viewId = value

/-- The class has a name that is not reserved, and its fields were scanned. -/
structure DeclaredClass.Named (declared : DeclaredClass) : Prop where
  owner : IsName declared.owner.name
  free : isReserved declared.owner.name = false
  field : ∀ field ∈ declared.fields, field.Scanned

namespace ScanContext
variable {context : ScanContext} {field : Field}

private theorem arguments_of_marker {profile : Profile} {function : Expr}
    {arguments found : List Argument}
    (h : markerArguments? profile (.call function arguments) = some found) : found = arguments := by
  unfold markerArguments? at h
  split at h
  · rename_i heq
    obtain ⟨-, rfl⟩ := Expr.call.inj heq
    exact (Option.some.inj (Option.ite_none_right_eq_some.mp h).2).symm
  · rename_i heq
    obtain ⟨-, rfl⟩ := Expr.call.inj heq
    exact (Option.some.inj (Option.ite_none_right_eq_some.mp h).2).symm
  · simp at h

theorem call_of_field {owner : Naming.Owner} {statement : Stmt}
    (h : context.finding? owner statement = some (.field field)) :
    ∃ found function arguments line, ∃ value : Nat, statement = .assignment found ∧
      found.isPlain ∧ found.target.name? = some field.name ∧
      found.value = some (.single (.call function arguments) line) ∧
      markerArguments? context.profile (.call function arguments) = some arguments ∧
      context.viewId line arguments = .ok value ∧ field.viewId = value := by
  unfold finding? at h
  split at h
  · rename_i found
    split at h
    · rename_i called line hplain hcalled
      simp only [Option.bind_eq_bind, Option.bind_eq_some_iff] at h
      obtain ⟨arguments, harguments, h⟩ := h
      obtain ⟨function, rfl⟩ : ∃ function, called = .call function arguments := by
        cases called with
        | call function given => exact ⟨function, by rw [arguments_of_marker harguments]⟩
        | _ => simp [markerArguments?] at harguments
      split at h
      · simp at h
      · rename_i name hname
        split at h
        · simp at h
        · rename_i value hvalue
          simp only [Option.pure_def, Option.some.injEq, Finding.field.injEq] at h
          subst field
          exact ⟨found, function, arguments, line, value, rfl, hplain, hname, hcalled, harguments,
            hvalue, rfl⟩
    · simp at h
  · simp at h

theorem declared_owner (context : ScanContext) (isPackage : Bool) (statement : ClassStatement) :
    (context.declared isPackage statement).owner =
      ⟨context.moduleName, statement.name, isPackage⟩ := by
  unfold declared
  dsimp only
  split <;> rfl

theorem finding_of_field {isPackage : Bool} {statement : ClassStatement}
    (h : field ∈ (context.declared isPackage statement).fields) :
    ∃ inner ∈ statement.body,
      context.finding? ⟨context.moduleName, statement.name, isPackage⟩ inner =
        some (.field field) := by
  unfold declared at h
  dsimp only at h
  split at h
  · simp at h
  · obtain ⟨finding, hfinding, hof⟩ := List.mem_filterMap.mp h
    obtain ⟨inner, hinner, hfound⟩ := List.mem_filterMap.mp hfinding
    refine ⟨inner, hinner, hfound.trans ?_⟩
    cases finding <;> simp_all

end ScanContext

section

variable {source : List Char} (hsource : ∀ c ∈ source, c.toNat ≠ 0)

include hsource

private theorem ScanContext.field_scanned {context : ScanContext} {owner : Naming.Owner}
    {statement : Stmt} {field : Field} (hnamed : statement.TargetsNamed source)
    (h : context.finding? owner statement = some (.field field)) : field.Scanned := by
  obtain ⟨found, function, arguments, line, value, rfl, hplain, hname, hcalls, hmarker,
    hread, hid⟩ :=
    call_of_field h
  have hassigned := hnamed found rfl
  have htype : field.type = found.hint.map TypeHint.normalize := by
    simp only [finding?, hplain, hcalls, hmarker, hname, hread, Option.bind_eq_bind,
      Option.bind_some, Option.pure_def, Option.some.injEq, Finding.field.injEq] at h
    rw [← h]
  refine ⟨hassigned.target _ hname, fun type hfield => ?_, fun type hfield c hc => ?_, value, hid⟩
  · rw [htype] at hfield
    obtain ⟨hint, -, rfl⟩ := Option.map_eq_some_iff.mp hfield
    exact ⟨hint, rfl⟩
  · rw [htype] at hfield
    obtain ⟨hint, hhint, rfl⟩ := Option.map_eq_some_iff.mp hfield
    rcases TypeHint.mem_of_mem_normalize hc with rfl | hmem
    · decide
    · exact hsource c (hassigned.hint hint hhint c hmem)

theorem ScanContext.declared_named (context : ScanContext) (isPackage : Bool)
    {statement : ClassStatement}
    (hname : IsName statement.name ∧ isReserved statement.name = false)
    (hbody : ∀ inner ∈ statement.body, inner.TargetsNamed source) :
    (context.declared isPackage statement).Named := by
  have howner : (context.declared isPackage statement).owner.name = statement.name :=
    congrArg Naming.Owner.name (declared_owner context isPackage statement)
  refine ⟨howner ▸ hname.1, howner ▸ hname.2, fun field hfield => ?_⟩
  obtain ⟨inner, hinner, hfound⟩ := finding_of_field hfield
  exact field_scanned hsource (hbody inner hinner) hfound

end

/-- The classes of a source are those of its module, and they have names. -/
theorem Source.scan_named {octets : Octets} {moduleName : String} {profile : Profile}
    {isPackage : Bool} {classes : List DeclaredClass}
    (h : (Source.ofOctets octets).scan moduleName profile isPackage = .ok classes) :
    ∀ declared ∈ classes, declared.Named ∧ declared.owner.moduleName = moduleName := by
  unfold Source.scan at h
  split at h
  · rename_i tree htree
    obtain rfl := Except.ok.inj h
    intro declared hdeclared
    obtain ⟨statement, hstatement, rfl⟩ := List.mem_map.mp hdeclared
    obtain ⟨hname, hbody⟩ := Module.parse?_named htree statement hstatement
    refine ⟨ScanContext.declared_named (Module.nullFree_of_parse? htree) _ _ hname hbody, ?_⟩
    rw [ScanContext.declared_owner]
    rfl
  · simp at h

end ElementBinding
