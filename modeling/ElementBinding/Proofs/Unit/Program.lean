import ElementBinding.Proofs.Binding.Generated
import ElementBinding.Proofs.Text.Literal
import ElementBinding.Proofs.Unit.Meaning

/-!
# Programs of rendered units

What a unit does is read from its syntax tree: a statement of its constructor is read as the field
that it assigns, and an entry of its registration as the field that it enters. So the text of a unit
has the program of its specification, whatever the names in it turn out to denote.
-/
namespace ElementBinding
open ElementBinding.Text ElementBinding.Naming ElementBinding.Grammar

theorem mapM_of_matches {α β γ : Type} {P : γ → α → Prop} {read : α → Option β} {f : γ → β}
    {items : List γ} {values : List α} (h : Matches (items.map P) values)
    (hread : ∀ item ∈ items, ∀ value, P item value → read value = some (f item)) :
    values.mapM read = some (items.map f) := by
  induction items generalizing values with
  | nil =>
    cases h
    rfl
  | cons item rest ih =>
    cases h with
    | cons hvalue hmore =>
      have hfirst := hread item List.mem_cons_self _ hvalue
      have hrest := ih hmore fun other hother => hread other (List.mem_cons_of_mem _ hother)
      rw [List.mapM_cons, hfirst, hrest]
      rfl

namespace Grammar.Expr

theorem integer?_ofInteger {value : Int} (h : IsShort value) :
    (ofInteger value).integer? = some value := by
  have hdigits : literalValue? (decimalDigits value.natAbs) = some value.natAbs :=
    literalValue?_eq_some_iff.mpr (isLiteral_decimalDigits h)
  unfold ofInteger
  split
  · rw [integer?, String.toList_ofList, hdigits, Option.map_some, Option.some.injEq]
    omega
  · rw [integer?, String.toList_ofList, hdigits, Option.map_some, Option.some.injEq]
    exact Int.natAbs_of_nonneg (by omega)

theorem text?_quoteLiteral (text : String) :
    (string (quoteLiteral text) []).text? = some text := by
  have hquoted : (quoteLiteral text).toList = '"' :: (text.toList.flatMap escaped ++ ['"']) := by
    have hmark : "\"".toList = ['"'] := rfl
    simp only [quoteLiteral, String.toList_append, String.toList_ofList, hmark, List.cons_append,
      List.nil_append]
    rfl
  simp only [text?, hquoted, readQuoted_escaped, String.ofList_toList]

end Grammar.Expr

namespace Field
variable {field : Field}

/-- What the constructor of a unit does for a field. -/
def population (field : Field) : Population :=
  ⟨field.name, field.type.isSome, Profile.standard.lookupMethod, field.viewId⟩

theorem IsLookup.lookUp? {e : Expr} (h : field.IsLookup e) (hshort : IsShort field.viewId) :
    e.lookUp? Profile.standard.targetParameter =
      some (Profile.standard.lookupMethod, field.viewId) := by
  obtain ⟨_, arguments, rfl, rfl, harguments⟩ := h
  obtain ⟨_, rfl, viewId, text, line, rfl, rfl⟩ := matches_singleton harguments
  have hviewId := Expr.integer?_ofInteger hshort
  simp [Expr.lookUp?, hviewId, Profile.standard]

theorem IsAssigned.found? {e : Expr} (h : field.IsAssigned e) (hshort : IsShort field.viewId) :
    e.found? Profile.standard.targetParameter =
      some (field.type.isSome, Profile.standard.lookupMethod, field.viewId) := by
  unfold IsAssigned at h
  cases htype : field.type with
  | none =>
    rw [htype] at h
    have hlookUp := IsLookup.lookUp? h hshort
    obtain ⟨_, arguments, rfl, rfl, -⟩ := h
    simp [Expr.found?, hlookUp]
  | some type =>
    rw [htype] at h
    obtain ⟨_, arguments, rfl, rfl, harguments⟩ := h
    obtain ⟨_, _, rfl, ⟨_, text, line, rfl, rfl⟩, ⟨found, text', line', rfl, hfound⟩⟩ :=
      matches_pair harguments
    simp [Expr.found?, IsLookup.lookUp? hfound hshort]

theorem IsPopulated.population? {statement : Stmt} (h : field.IsPopulated statement)
    (hshort : IsShort field.viewId) :
    statement.population? Profile.standard.targetParameter = some field.population := by
  obtain ⟨assignment, rfl, line, target, written, value, valueLine, rfl, rfl, hvalue⟩ := h
  have hfound := IsAssigned.found? hvalue hshort
  simp only [Stmt.population?, hfound]
  rfl

theorem IsEntry.entry? {e : Expr} (h : field.IsEntry e) (hshort : IsShort field.viewId) :
    e.entry? = some (field.name, field.viewId) := by
  obtain ⟨elements, rfl, helements⟩ := h
  obtain ⟨_, _, rfl, rfl, rfl⟩ := matches_pair helements
  simp [Expr.entry?, Expr.text?_quoteLiteral, Expr.integer?_ofInteger hshort]

end Field

namespace Spec
variable {spec : Spec}

/-- The program of the unit of a specification. -/
def unitProgram (spec : Spec) : UnitProgram where
  imports := (if spec.fields.any (·.type.isSome) then [(["typing"], "cast")] else []) ++
    [(["viewbind", "runtime", "registry"], "register_binder"),
      (dottedParts spec.ownerModule, spec.ownerName)]
  className := spec.binderName
  parameter := Profile.standard.targetParameter
  populations := spec.fields.map Field.population
  owner := spec.ownerName
  entries := spec.pairs

private theorem ofBinder?_eq {m : BinderModule} (h : m.IsOf spec) (hshort : spec.IsShort) :
    UnitProgram.ofBinder?
      (.declaration m.line m.name none [] [.function false "__init__" m.parameters m.hint m.body])
      (.expression [m.call]) = some { spec.unitProgram with imports := [] } := by
  have hpopulations : m.body.mapM (Stmt.population? "target") =
      some (spec.fields.map Field.population) :=
    mapM_of_matches h.body fun field hfield _ hpopulated =>
      Field.IsPopulated.population? hpopulated (hshort field hfield)
  have hentries {entries : List Expr} (hmatches : Matches (spec.fields.map Field.IsEntry) entries) :
      entries.mapM Expr.entry? = some spec.pairs :=
    mapM_of_matches hmatches fun field hfield _ hentry =>
      Field.IsEntry.entry? hentry (hshort field hfield)
  obtain ⟨_, arguments, hcall, rfl, harguments⟩ := h.call
  obtain ⟨_, _, ⟨_, text, line, rfl, rfl⟩, hmore, rfl⟩ := List.forall₂_cons_left_iff.mp harguments
  obtain ⟨_, _, rfl, ⟨_, text', line', rfl, rfl⟩,
    ⟨_, text'', line'', rfl, entries, rfl, hmatches⟩⟩ :=
    matches_pair hmore
  simp only [hcall, h.parameters, h.name, UnitProgram.ofBinder?, decide_true,
    Bool.and_self, if_true,
    hentries hmatches, hpopulations]
  rfl

/-- The statements of a unit are read as the program of its specification. -/
theorem of?_eq {m : BinderModule} (h : m.IsOf spec) (hshort : spec.IsShort) :
    UnitProgram.of? m.module.statements = some spec.unitProgram := by
  have hbinder := ofBinder?_eq h hshort
  rw [BinderModule.module, BinderModule.definitions, h.opening, List.append_assoc]
  unfold imports unitProgram
  cases spec.fields.any (·.type.isSome) <;>
    simp [UnitProgram.of?, hbinder, unitProgram]

/-- Running the text of a unit is running the program of its specification. -/
theorem Writable.execute_eq (h : spec.Writable) {unit : BinderUnit}
    (hrender : spec.render .standard = .ok unit) (normal : String → String) (identity : Identity)
    (moduleName : String) :
    Program.execute normal identity moduleName unit.source =
      Program.runUnit normal identity moduleName spec.unitProgram := by
  obtain ⟨m, htree, hof⟩ := h.binderModule hrender
  rw [Source.ofOctets, decodeTolerant_encode] at htree
  have hparse : Module.parse? unit.source.toList = some m.module := htree
  simp only [Program.execute, hparse, of?_eq hof h.short]

end Spec

end ElementBinding
