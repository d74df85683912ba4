import ElementBinding.Proofs.Pass.Settling
import ElementBinding.Proofs.Scan.Markers
import ElementBinding.Proofs.Text.Literal

/-!
# The way of a view identifier

An identifier is written in a source as an integer literal, in any base. It is scanned as the number
that the literal stands for, and written into the unit of its class in decimal text: the same text
in the constructor and in the registration, which is read as that number again. The decimal text may
not be longer than is read, so a literal of another base may be scanned and have no unit.
-/
namespace ElementBinding
open ElementBinding.Text ElementBinding.Grammar

namespace Grammar

/-- An expression on some line stands for an integer literal: it is the literal, or a name that the
module binds once, on no later line, to the literal. -/
inductive StandsFor (rebindings : List Assignment) (line : Nat) : Expr → String → Prop
  | literal {digits : String} : StandsFor rebindings line (.integer digits) digits
  | constant {name digits : String} {assignment : Assignment} {valueLine : Nat}
      (once : rebindingsOf rebindings name = [assignment]) (above : assignment.line ≤ line)
      (plain : assignment.isPlain)
      (assigned : assignment.value = some (.single (.integer digits) valueLine)) :
      StandsFor rebindings line (.name name) digits

/-- The only argument of a marker stands for an integer literal, by position or under the keyword of
the marker. -/
inductive PassesLiteral (profile : Profile) (rebindings : List Assignment) :
    List Argument → String → Prop
  | positional {expression : Expr} {text digits : String} {line : Nat}
      (stands : StandsFor rebindings line expression digits) :
      PassesLiteral profile rebindings [.positional expression text line] digits
  | keyword {expression : Expr} {text digits : String} {nameLine line : Nat}
      (stands : StandsFor rebindings line expression digits) :
      PassesLiteral profile rebindings
        [.keyword profile.markerKeyword nameLine expression text line] digits

theorem denotes_iff {rebindings : List Assignment} {line : Nat} {expression : Expr} {value : Nat} :
    Denotes rebindings line expression value ↔
      ∃ digits, StandsFor rebindings line expression digits ∧ IsLiteral digits.toList value := by
  constructor
  · intro h
    cases h with
    | literal reads => exact ⟨_, .literal, literalValue?_eq_some_iff.mp reads⟩
    | constant once above assigns =>
      obtain ⟨hplain, digits, valueLine, hassigned, hreads⟩ := assigns
      exact ⟨digits, .constant once above hplain hassigned, literalValue?_eq_some_iff.mp hreads⟩
  · rintro ⟨digits, hstands, hliteral⟩
    have hreads := literalValue?_eq_some_iff.mpr hliteral
    cases hstands with
    | literal => exact .literal hreads
    | constant once above plain assigned =>
      exact .constant once above ⟨plain, digits, _, assigned, hreads⟩

end Grammar

theorem Surroundings.accepts_iff {around : Surroundings} {arguments : List Argument} {value : Nat} :
    around.Accepts arguments value ↔
      ∃ digits, PassesLiteral around.profile around.rebindings arguments digits ∧
        IsLiteral digits.toList value := by
  constructor
  · intro h
    cases h with
    | positional denotes =>
      obtain ⟨digits, hstands, hliteral⟩ := denotes_iff.mp denotes
      exact ⟨digits, .positional hstands, hliteral⟩
    | keyword denotes =>
      obtain ⟨digits, hstands, hliteral⟩ := denotes_iff.mp denotes
      exact ⟨digits, .keyword hstands, hliteral⟩
  · rintro ⟨digits, hpasses, hliteral⟩
    cases hpasses with
    | positional stands => exact .positional (denotes_iff.mpr ⟨digits, stands, hliteral⟩)
    | keyword stands => exact .keyword (denotes_iff.mpr ⟨digits, stands, hliteral⟩)

namespace Grammar.Module
variable (module : Module) (moduleName : String) (profile : Profile) (isPackage : Bool)

/-- A value is scanned for what a marker is passed exactly if that is a literal for the value. -/
theorem viewId_eq_ok_iff {callLine value : Nat} {arguments : List Argument} :
    (module.scanContext moduleName profile).viewId callLine arguments = .ok value ↔
      ∃ digits, PassesLiteral profile module.rebindings arguments digits ∧
        IsLiteral digits.toList value := by
  rw [← module.surroundings_context moduleName profile false,
    Surroundings.viewId_eq_ok_iff module.rebindings_value, Surroundings.accepts_iff]
  rfl

theorem viewId_of_field {declared : DeclaredClass} {field : Field}
    (hdeclared : declared ∈ module.scan moduleName profile isPackage)
    (hfield : field ∈ declared.fields) :
    ∃ statement ∈ module.classes, ∃ use ∈ statement.uses profile, use.name = field.name ∧
      ∃ value : Nat, field.viewId = value ∧
        (module.scanContext moduleName profile).viewId use.callLine use.arguments = .ok value := by
  obtain ⟨statement, hstatement, rfl⟩ := List.mem_map.mp hdeclared
  obtain ⟨inner, hinner, hfound⟩ := ScanContext.finding_of_field hfield
  obtain ⟨found, function, arguments, line, value, rfl, hplain, hname, hvalue, hmarker,
    hread, hid⟩ :=
    ScanContext.call_of_field hfound
  have hcalled : isMarker profile function := by
    rw [markerArguments?_call] at hmarker
    exact (Option.ite_none_right_eq_some.mp hmarker).1
  have huse : markerUse? profile (.assignment found) =
      some ⟨found.line, field.name, found.hint, line, arguments⟩ := by
    simp [markerUse?, hplain, hname, hvalue, hcalled]
  exact ⟨statement, hstatement, _, List.mem_filterMap.mpr ⟨_, hinner, huse⟩, rfl, value, hid, hread⟩

end Grammar.Module

namespace Spec
variable {spec : Spec} {profile : Profile}

theorem render_tooLong (h : ¬spec.IsShort) : spec.render profile = .error .idTooLong := by
  have hlong {field : Field} (hfield : ¬Text.IsShort field.viewId) :
      assignmentLine profile field = .error .idTooLong := by
    have hnone : decimal? field.viewId = none :=
      Option.eq_none_iff_forall_ne_some.mpr fun text htext =>
        hfield (decimal?_eq_some_iff.mp htext).1
    unfold assignmentLine idText
    rw [hnone]
    rfl
  have hassignments : spec.fields.mapM (assignmentLine profile) = .error .idTooLong := by
    cases hlines : spec.fields.mapM (assignmentLine profile) with
    | ok lines =>
      unfold IsShort at h
      push Not at h
      obtain ⟨field, hfield, hshort⟩ := h
      obtain ⟨line, -, hline⟩ := forall₂_mem_left (mapM_ok hlines) field hfield
      rw [hlong hshort] at hline
      cases hline
    | error fault =>
      obtain ⟨field, -, hfault⟩ := exists_of_mapM_error hlines
      by_cases hshort : Text.IsShort field.viewId
      · rw [Field.assignmentLine_of_idText (idText_eq hshort)] at hfault
        cases hfault
      · rw [hlong hshort, Except.error.injEq] at hfault
        rw [hfault]
  unfold render unitLines
  rw [hassignments]
  rfl

/-- Where the identifiers stand in a unit. -/
theorem source_of_viewIds {unit : BinderUnit} (h : spec.render profile = .ok unit) :
    ∃ opening middle, unit.source = "\n".intercalate
      (opening ++
        spec.fields.map (fun field => field.populating profile (decimalText field.viewId)) ++
        middle ++
        spec.fields.map (fun field => field.entering (decimalText field.viewId)) ++
        ["))"]) ++ "\n" := by
  have hshort : spec.IsShort := (render_isOk_iff spec profile).mp ⟨unit, h⟩
  have hassignments : spec.fields.mapM (assignmentLine profile) = .ok (spec.fields.map
      fun field => field.populating profile (decimalText field.viewId)) :=
    mapM_eq fun field hfield => Field.assignmentLine_of_idText (idText_eq (hshort field hfield))
  have hregistrations := mapM_eq fun field hfield =>
    Field.registrationLine_of_idText (idText_eq (hshort field hfield))
  obtain ⟨-, -, lines, hlines, hsource⟩ := render_ok h
  simp only [unitLines, hassignments, hregistrations, Bind.bind, Except.bind, pure, Except.pure,
    Except.ok.injEq] at hlines
  subst lines
  exact ⟨_, _, hsource⟩

end Spec

/-- An identifier keeps its value on its way through the generated text. It is scanned exactly if it
is a literal, as what that stands for. A specification has a unit exactly if all its identifiers can
be written in 4300 digits, and fails for that reason otherwise. In a unit, the constructor and the
registration have each identifier in one decimal text, which is a literal for just that number. -/
theorem viewIds_keep :
    (∀ (module : Module) (moduleName : String) (profile : Profile) (callLine value : Nat)
      (arguments : List Argument),
      (module.scanContext moduleName profile).viewId callLine arguments = .ok value ↔
        ∃ digits, PassesLiteral profile module.rebindings arguments digits ∧
          IsLiteral digits.toList value) ∧
    (∀ (module : Module) (moduleName : String) (profile : Profile) (isPackage : Bool),
      ∀ declared ∈ module.scan moduleName profile isPackage, ∀ field ∈ declared.fields,
        ∃ statement ∈ module.classes, ∃ use ∈ statement.uses profile, use.name = field.name ∧
          ∃ value : Nat, field.viewId = value ∧
            (module.scanContext moduleName profile).viewId use.callLine use.arguments =
              .ok value) ∧
    ∀ (spec : Spec) (profile : Profile),
      ((∃ unit, spec.render profile = .ok unit) ↔
        ∀ field ∈ spec.fields, field.viewId.natAbs < 10 ^ digitLimit) ∧
      ((¬∃ unit, spec.render profile = .ok unit) → spec.render profile = .error .idTooLong) ∧
      ∀ unit, spec.render profile = .ok unit →
        (∃ opening middle, unit.source = "\n".intercalate (opening ++
          spec.fields.map (fun field => field.populating profile (decimalText field.viewId)) ++
          middle ++ spec.fields.map (fun field => field.entering (decimalText field.viewId)) ++
          ["))"]) ++ "\n") ∧
        ∀ field ∈ spec.fields, ∀ value : Nat,
          Expr.literal? (.integer (decimalText field.viewId)) = some value ↔
            field.viewId = value := by
  have hrender (spec : Spec) (profile : Profile) : (∃ unit, spec.render profile = .ok unit) ↔
      ∀ field ∈ spec.fields, field.viewId.natAbs < 10 ^ digitLimit := by
    rw [Spec.render_isOk_iff]
    exact forall₂_congr fun field _ => isShort_iff
  refine ⟨fun module moduleName profile _ _ _ => module.viewId_eq_ok_iff moduleName profile,
    fun module moduleName profile isPackage _ hdeclared _ hfield =>
      module.viewId_of_field moduleName profile isPackage hdeclared hfield,
    fun spec profile => ⟨hrender spec profile, ?_, fun unit hunit => ⟨?_, ?_⟩⟩⟩
  · intro hnone
    exact Spec.render_tooLong fun hshort => hnone ((spec.render_isOk_iff profile).mpr hshort)
  · exact Spec.source_of_viewIds hunit
  · intro field hfield value
    have hshort := (spec.render_isOk_iff profile).mp ⟨unit, hunit⟩
    exact literalValue?_decimalText (hshort field hfield) value

private def idModule (digits : String) : Module :=
  ⟨[.declaration 0 "A" none [] [.assignment (.mk 1 ⟨false, [.name "f"], "f"⟩ none "="
    (some (.single (.call (.name "bind_view") [.positional (.integer digits) digits 1]) 1)))]]⟩

private def idField (viewId : Int) : Field := ⟨"m.A", "f", none, viewId, 1⟩

private def idSpec (viewId : Int) : Spec := ⟨"m", "A", "a_binding", "ABinding", [idField viewId]⟩

/-- An identifier in hexadecimal notation, and one that has one digit too many to be written. -/
theorem viewIds_keep_hexadecimal :
    ((idModule "0x_fF").scanContext "m" .standard).viewId 1
        [.positional (.integer "0x_fF") "0x_fF" 1] = .ok 255 ∧
    (∃ statement ∈ (idModule "0x_fF").classes, ∃ use ∈ statement.uses .standard, use.name = "f" ∧
      ∃ value : Nat, (255 : Int) = value ∧
        ((idModule "0x_fF").scanContext "m" .standard).viewId use.callLine use.arguments =
          .ok value) ∧
    (∃ unit, (idSpec 255).render .standard = .ok unit) ∧
    Expr.literal? (.integer "255") = some 255 ∧
    (idSpec (10 ^ digitLimit : Nat)).render .standard = .error .idTooLong := by
  obtain ⟨hscan, hfields, hrender⟩ := viewIds_keep
  have hdigit : IsDigit 16 'f' 15 := ⟨by decide, .inl rfl⟩
  have hcapital : IsDigit 16 'F' 15 := ⟨by decide, .inr rfl⟩
  have hmarks : ('x', 16) ∈ baseMarks := by decide
  have hliteral : IsLiteral "0x_fF".toList 255 :=
    .separated hmarks (.next hdigit (.last hcapital))
  have hfound : (idModule "0x_fF").scan "m" .standard false =
      [{ owner := ⟨"m", "A", false⟩, line := 0, fields := [idField 255] }] := rfl
  have hdeclared := hfields (idModule "0x_fF") "m" .standard false _
    (by rw [hfound]; exact List.mem_singleton_self _) (idField 255) (List.mem_singleton_self _)
  obtain ⟨hshort, -, htext⟩ := hrender (idSpec 255) .standard
  have hunit : ∃ unit, (idSpec 255).render .standard = .ok unit := by
    rw [hshort]
    intro field hfield
    obtain rfl := List.mem_singleton.mp hfield
    exact lt_of_lt_of_le (by decide : 255 < 10 ^ 3) (Nat.pow_le_pow_right (by decide) (by decide))
  obtain ⟨unit, hunit'⟩ := hunit
  obtain ⟨hlong, hfault, -⟩ := hrender (idSpec (10 ^ digitLimit : Nat)) .standard
  refine ⟨(hscan _ _ _ _ _ _).mpr ⟨_, .positional .literal, hliteral⟩, hdeclared, ⟨unit, hunit'⟩,
    ((htext unit hunit').2 _ (List.mem_singleton_self _) 255).mpr rfl, hfault ?_⟩
  rw [hlong]
  intro hsmall
  exact absurd (hsmall _ (List.mem_singleton_self _)) (Nat.lt_irrefl _)

end ElementBinding
