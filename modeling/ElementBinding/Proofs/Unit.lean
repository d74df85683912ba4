import ElementBinding.Sink
import ElementBinding.Proofs.Text.Lines
import ElementBinding.Proofs.Text.Utf8

/-!
# Rendered units

A rendered unit begins with the mark of generated modules, so every reader of its file knows it
again.
-/
namespace ElementBinding
open ElementBinding.Text

theorem mapM_ok {ε α β : Type} {f : α → Except ε β} {items : List α} {results : List β}
    (h : items.mapM f = .ok results) :
    List.Forall₂ (fun item result => f item = .ok result) items results := by
  induction items generalizing results with
  | nil =>
    obtain rfl := Except.ok.inj h
    exact .nil
  | cons item rest ih =>
    rw [List.mapM_cons] at h
    cases hitem : f item with
    | error fault => simp [hitem, Bind.bind, Except.bind] at h
    | ok first =>
      cases hrest : rest.mapM f with
      | error fault => simp [hitem, hrest, Bind.bind, Except.bind] at h
      | ok more =>
        simp only [hitem, hrest, Bind.bind, Except.bind, pure, Except.pure, Except.ok.injEq] at h
        subst results
        exact .cons hitem (ih hrest)

theorem exists_of_mapM_error {ε α β : Type} {f : α → Except ε β} {items : List α} {fault : ε}
    (h : items.mapM f = .error fault) : ∃ item ∈ items, f item = .error fault := by
  induction items with
  | nil => cases h
  | cons item rest ih =>
    rw [List.mapM_cons] at h
    cases hitem : f item with
    | error found =>
      simp only [hitem, Bind.bind, Except.bind, Except.error.injEq] at h
      exact ⟨item, List.mem_cons_self, h ▸ hitem⟩
    | ok first =>
      cases hrest : rest.mapM f with
      | error found =>
        simp only [hitem, hrest, Bind.bind, Except.bind, Except.error.injEq] at h
        obtain ⟨other, hother, hfault⟩ := ih (h ▸ hrest)
        exact ⟨other, List.mem_cons_of_mem _ hother, hfault⟩
      | ok more => simp [hitem, hrest, Bind.bind, Except.bind, pure, Except.pure] at h

theorem forall₂_mem_left {α β : Type} {P : α → β → Prop} {items : List α}
    {results : List β} (h : List.Forall₂ P items results) :
    ∀ item ∈ items, ∃ result ∈ results, P item result := by
  induction h with
  | nil => simp
  | cons hfirst _ ih =>
    intro item hitem
    rcases List.mem_cons.mp hitem with rfl | hitem
    · exact ⟨_, List.mem_cons_self, hfirst⟩
    · obtain ⟨result, hresult, hP⟩ := ih item hitem
      exact ⟨result, List.mem_cons_of_mem _ hresult, hP⟩

theorem Spec.render_ok {spec : Spec} {profile : Profile} {unit : BinderUnit}
    (h : spec.render profile = .ok unit) :
    unit.path = spec.unitPath ∧ unit.moduleName = spec.binderModule ∧
      ∃ lines, unitLines spec profile = .ok lines ∧
        unit.source = "\n".intercalate lines ++ "\n" := by
  unfold render at h
  cases hlines : unitLines spec profile with
  | error fault => simp [hlines, Bind.bind, Except.bind] at h
  | ok lines =>
    simp only [hlines, Bind.bind, Except.bind, pure, Except.pure, Except.ok.injEq] at h
    subst unit
    exact ⟨rfl, rfl, lines, rfl, rfl⟩

private theorem unitLines_ok {spec : Spec} {profile : Profile} {lines : List String}
    (h : unitLines spec profile = .ok lines) :
    ∃ assignments registrations, spec.fields.mapM (assignmentLine profile) = .ok assignments ∧
      spec.fields.mapM registrationLine = .ok registrations ∧
      lines = [generatedHeader, "# owner: " ++ spec.ownerQualifiedName] ++
        (if spec.fields.any (·.type.isSome) then ["from typing import cast", ""] else []) ++
        ["from viewbind.runtime.registry import register_binder", "",
          "from " ++ spec.ownerModule ++ " import " ++ spec.ownerName, "", "",
          "class " ++ spec.binderName ++ ":",
          "    def __init__(self, " ++ profile.targetParameter ++ ": " ++ spec.ownerName ++
            ") -> None:"] ++
        assignments ++
        ["", "", "register_binder(" ++ spec.ownerName ++ ", " ++ spec.binderName ++ ", ("] ++
        registrations ++ ["))"] := by
  unfold unitLines at h
  cases hassign : spec.fields.mapM (assignmentLine profile) with
  | error fault => simp [hassign, Bind.bind, Except.bind] at h
  | ok assignments =>
    cases hregister : spec.fields.mapM registrationLine with
    | error fault => simp [hassign, hregister, Bind.bind, Except.bind] at h
    | ok registrations =>
      simp only [hassign, hregister, Bind.bind, Except.bind, pure, Except.pure,
        Except.ok.injEq] at h
      exact ⟨assignments, registrations, rfl, rfl, h.symm⟩

theorem Spec.idText_of_render {spec : Spec} {profile : Profile} {unit : BinderUnit}
    (h : spec.render profile = .ok unit) :
    ∀ field ∈ spec.fields, ∃ text, idText field.viewId = .ok text := by
  obtain ⟨_, _, lines, hlines, _⟩ := render_ok h
  obtain ⟨_, registrations, _, hregister, _⟩ := unitLines_ok hlines
  intro field hfield
  obtain ⟨line, _, hline⟩ := forall₂_mem_left (mapM_ok hregister) field hfield
  unfold registrationLine at hline
  cases htext : idText field.viewId with
  | error fault => simp [htext, Bind.bind, Except.bind] at hline
  | ok text => exact ⟨text, rfl⟩

/-- Every reader of a rendered unit sees that it was generated. -/
theorem Spec.render_isGenerated {spec : Spec} {profile : Profile} {unit : BinderUnit}
    (h : spec.render profile = .ok unit) : isGenerated unit.source.toList := by
  obtain ⟨-, -, lines, hlines, hsource⟩ := render_ok h
  obtain ⟨assignments, registrations, -, -, rfl⟩ := unitLines_ok hlines
  rw [isGenerated, List.isPrefixOf_iff_prefix, hsource, generatedHeader]
  simp only [List.cons_append, List.nil_append, String.intercalate_cons_append,
    String.append_assoc, String.toList_append]
  exact List.prefix_append _ _

theorem Spec.encode_isGenerated {spec : Spec} {profile : Profile} {unit : BinderUnit}
    (h : spec.render profile = .ok unit) : isGenerated (decodeTolerant (encode unit.source)) := by
  rw [decodeTolerant_encode]
  exact render_isGenerated h

/-- A tolerant reader of the first line sees the mark exactly if it stands in the whole text. -/
theorem isGenerated_readFirstLine (octets : Octets) :
    isGenerated (readFirstLine octets) = isGenerated (decodeTolerant octets) := by
  unfold isGenerated readFirstLine
  rw [isPrefixOf_firstLine (by decide), isPrefixOf_unifyLineEnds (by decide) (by decide)]

/-- A strict reader of the whole text sees the mark exactly if a tolerant one does. -/
theorem isGenerated_of_readText {octets : Octets} {text : List Char}
    (h : readText octets = some text) : isGenerated text = isGenerated (decodeTolerant octets) := by
  obtain ⟨decoded, hdecoded, rfl⟩ := Option.map_eq_some_iff.mp h
  unfold isGenerated
  rw [isPrefixOf_unifyLineEnds (by decide) (by decide), decodeTolerant_of_decodeStrict hdecoded]

theorem Spec.readText_generated {spec : Spec} {profile : Profile} {unit : BinderUnit}
    (hrender : spec.render profile = .ok unit) :
    ∃ text, readText (encode unit.source) = some text ∧ isGenerated text := by
  have htext : readText (encode unit.source) = some (unifyLineEnds unit.source.toList) := by
    rw [readText, decodeStrict_encode, Option.map_some]
  refine ⟨_, htext, ?_⟩
  rw [isGenerated_of_readText htext]
  exact encode_isGenerated hrender

end ElementBinding
