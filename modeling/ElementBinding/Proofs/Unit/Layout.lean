import ElementBinding.Proofs.Text.Integer
import ElementBinding.Proofs.Unit

/-!
# The layout of a unit

The lines of a unit, written out. A field has one line in the constructor of the binder and one in
its registration, whatever the profile. Under the standard profile all lines are told; if any field
has a type, an import stands in front of the others. A character that is not printable ASCII stands
in no line if it stands in no text of the specification. So if the texts hold no carriage return,
what is read back from the file of the unit is its source.
-/
namespace ElementBinding
open ElementBinding.Text

theorem idText_eq_ok_iff {n : Int} {text : String} :
    idText n = .ok text ↔ IsShort n ∧ text = decimalText n := by
  rw [← decimal?_eq_some_iff]
  unfold idText
  cases decimal? n <;> simp

theorem idText_eq {n : Int} (h : IsShort n) : idText n = .ok (decimalText n) :=
  idText_eq_ok_iff.mpr ⟨h, rfl⟩

/-- A character of a string literal, with a backslash in front if it needs one. -/
def escaped (c : Char) : List Char := if c = '\\' || c = '"' then ['\\', c] else [c]

theorem toList_quoteLiteral (text : String) :
    (quoteLiteral text).toList = '"' :: text.toList.flatMap escaped ++ ['"'] := by
  unfold quoteLiteral escaped
  simp only [String.toList_append, String.toList_ofList]
  rfl

namespace Field

def populating (profile : Profile) (field : Field) (id : String) : String :=
  let lookup := profile.targetParameter ++ "." ++ profile.lookupMethod ++ "(" ++ id ++ ")"
  let value := match field.type with
    | some type => "cast(" ++ quoteLiteral type ++ ", " ++ lookup ++ ")"
    | none => lookup
  "        " ++ profile.targetParameter ++ "." ++ field.name ++ " = " ++ value

def entering (field : Field) (id : String) : String :=
  "    (" ++ quoteLiteral field.name ++ ", " ++ id ++ "),"

theorem assignmentLine_of_idText {profile : Profile} {field : Field} {id : String}
    (h : idText field.viewId = .ok id) :
    assignmentLine profile field = .ok (field.populating profile id) := by
  unfold assignmentLine
  rw [h]
  rfl

theorem registrationLine_of_idText {field : Field} {id : String}
    (h : idText field.viewId = .ok id) : registrationLine field = .ok (field.entering id) := by
  unfold registrationLine
  rw [h]
  rfl

def lookup (field : Field) : String :=
  "target.find_by_identifier(" ++ decimalText field.viewId ++ ")"

def assigned (field : Field) : String :=
  match field.type with
  | some type => "cast(" ++ quoteLiteral type ++ ", " ++ field.lookup ++ ")"
  | none => field.lookup

def constructorLine (field : Field) : String :=
  "        target." ++ field.name ++ " = " ++ field.assigned

def entryLine (field : Field) : String :=
  "    (" ++ quoteLiteral field.name ++ ", " ++ decimalText field.viewId ++ "),"

private theorem assignmentLine_eq {field : Field} (h : IsShort field.viewId) :
    assignmentLine .standard field = .ok field.constructorLine := by
  have hopening : "        " ++ Profile.standard.targetParameter ++ "." = "        target." := by
    simp [Profile.standard]
  have hlookup : Profile.standard.targetParameter ++ "." ++ Profile.standard.lookupMethod ++ "(" =
      "target.find_by_identifier(" := by simp [Profile.standard]
  rw [assignmentLine_of_idText (idText_eq h), populating, hopening, hlookup]
  rfl

private theorem registrationLine_eq {field : Field} (h : IsShort field.viewId) :
    registrationLine field = .ok field.entryLine :=
  registrationLine_of_idText (idText_eq h)

end Field

theorem mapM_eq {ε α β : Type} {f : α → Except ε β} {g : α → β} {items : List α}
    (h : ∀ item ∈ items, f item = .ok (g item)) : items.mapM f = .ok (items.map g) := by
  induction items with
  | nil => rfl
  | cons item rest ih =>
    have hrest := ih fun other hother => h other (List.mem_cons_of_mem _ hother)
    rw [List.mapM_cons, h item List.mem_cons_self, hrest]
    rfl

namespace Spec

def openingLines (spec : Spec) : List String :=
  [generatedHeader, "# owner: " ++ spec.ownerQualifiedName] ++
    (if spec.fields.any (·.type.isSome) then ["from typing import cast", ""] else []) ++
    ["from viewbind.runtime.registry import register_binder", "",
      "from " ++ spec.ownerModule ++ " import " ++ spec.ownerName, "", ""]

def lines (spec : Spec) : List String :=
  spec.openingLines ++
    ["class " ++ spec.binderName ++ ":",
      "    def __init__(self, target: " ++ spec.ownerName ++ ") -> None:"] ++
    spec.fields.map Field.constructorLine ++
    ["", "", "register_binder(" ++ spec.ownerName ++ ", " ++ spec.binderName ++ ", ("] ++
    spec.fields.map Field.entryLine ++ ["))"]

/-- No view identifier needs more digits than are written. -/
def IsShort (spec : Spec) : Prop := ∀ field ∈ spec.fields, Text.IsShort field.viewId

instance (spec : Spec) : Decidable spec.IsShort :=
  inferInstanceAs (Decidable (∀ field ∈ spec.fields, Text.IsShort field.viewId))

theorem unitLines_eq {spec : Spec} (h : spec.IsShort) :
    unitLines spec .standard = .ok spec.lines := by
  have hassigned : spec.fields.mapM (assignmentLine .standard) =
      .ok (spec.fields.map Field.constructorLine) :=
    mapM_eq fun field hfield => Field.assignmentLine_eq (h field hfield)
  have hregistered : spec.fields.mapM registrationLine =
      .ok (spec.fields.map Field.entryLine) :=
    mapM_eq fun field hfield => Field.registrationLine_eq (h field hfield)
  have hparameter : "    def __init__(self, " ++ Profile.standard.targetParameter ++ ": " =
      "    def __init__(self, target: " := by simp [Profile.standard]
  simp only [unitLines, hassigned, hregistered, Bind.bind, Except.bind, pure, Except.pure, lines,
    openingLines, hparameter, List.append_assoc, List.cons_append, List.nil_append]

theorem render_eq {spec : Spec} (h : spec.IsShort) :
    spec.render .standard =
      .ok ⟨spec.binderModule, spec.unitPath, "\n".intercalate spec.lines ++ "\n"⟩ := by
  simp only [render, unitLines_eq h, Bind.bind, Except.bind, pure, Except.pure]

theorem source_of_render {spec : Spec} {unit : BinderUnit} (h : spec.render .standard = .ok unit) :
    spec.IsShort ∧ unit.source = "\n".intercalate spec.lines ++ "\n" := by
  have hshort : spec.IsShort := by
    intro field hfield
    obtain ⟨text, htext⟩ := idText_of_render h field hfield
    exact (idText_eq_ok_iff.mp htext).1
  rw [render_eq hshort] at h
  obtain rfl := Except.ok.inj h
  exact ⟨hshort, rfl⟩

private theorem toList_joined (first : String) (more : List String) :
    ("\n".intercalate (first :: more) ++ "\n").toList =
      (first :: more).flatMap fun line => line.toList ++ ['\n'] := by
  have hend : "\n".toList = ['\n'] := rfl
  rw [String.toList_append, String.toList_intercalate, List.map_cons, hend, intercalate_cons]
  induction more generalizing first with
  | nil => simp
  | cons second more ih =>
    rw [List.flatMap_cons, ← ih second]
    simp

theorem toList_source {spec : Spec} {unit : BinderUnit} (h : spec.render .standard = .ok unit) :
    unit.source.toList = spec.lines.flatMap fun line => line.toList ++ ['\n'] := by
  obtain ⟨first, more, hlines⟩ : ∃ first more, spec.lines = first :: more := ⟨_, _, rfl⟩
  rw [(source_of_render h).2, hlines, toList_joined]

end Spec

structure Spec.Without (c : Char) (spec : Spec) : Prop where
  module : c ∉ spec.ownerModule.toList
  name : c ∉ spec.ownerName.toList
  binder : c ∉ spec.binderName.toList
  field : ∀ field ∈ spec.fields, c ∉ field.name.toList
  type : ∀ field ∈ spec.fields, ∀ type, field.type = some type → c ∉ type.toList

def isPrintable (c : Char) : Bool := 32 ≤ c.toNat && c.toNat ≤ 126

section

variable {c : Char} (hc : isPrintable c = false)

include hc

private theorem not_mem_literal {text : String} (h : text.toList.all isPrintable) :
    c ∉ text.toList := by
  intro hmem
  have hprintable := List.all_eq_true.mp h c hmem
  simp [hc] at hprintable

private theorem not_mem_decimalText (n : Int) : c ∉ (decimalText n).toList := by
  intro hmem
  rcases sign_or_digit_of_mem_decimalText hmem with rfl | hdigit
  · exact absurd hc (by decide)
  · have hrange : 48 ≤ c.toNat ∧ c.toNat ≤ 57 := by
      simpa [Char.isDigit, UInt32.le_iff_toNat_le] using hdigit
    simp only [isPrintable, Bool.and_eq_false_iff, decide_eq_false_iff_not] at hc
    omega

private theorem not_mem_quoteLiteral {text : String} (h : c ∉ text.toList) :
    c ∉ (quoteLiteral text).toList := by
  have hquote : c ≠ '"' := by
    rintro rfl
    exact absurd hc (by decide)
  have hslash : c ≠ '\\' := by
    rintro rfl
    exact absurd hc (by decide)
  rw [toList_quoteLiteral, List.cons_append, List.mem_cons, List.mem_append, List.mem_singleton]
  rintro (hfirst | hinner | hlast)
  · exact hquote hfirst
  · obtain ⟨d, hd, hmem⟩ := List.mem_flatMap.mp hinner
    have hne : c ≠ d := fun heq => h (heq ▸ hd)
    unfold escaped at hmem
    split at hmem <;> simp_all
  · exact hquote hlast

private theorem not_mem_constructorLine {field : Field} (hname : c ∉ field.name.toList)
    (htype : ∀ type, field.type = some type → c ∉ type.toList) :
    c ∉ field.constructorLine.toList := by
  have hlookup : c ∉ field.lookup.toList := by
    unfold Field.lookup
    simp only [String.toList_append, List.mem_append, not_or]
    exact ⟨⟨not_mem_literal hc rfl, not_mem_decimalText hc _⟩,
      not_mem_literal hc rfl⟩
  have hassigned : c ∉ field.assigned.toList := by
    unfold Field.assigned
    split
    · rename_i type hfield
      simp only [String.toList_append, List.mem_append, not_or]
      exact ⟨⟨⟨⟨not_mem_literal hc rfl,
        not_mem_quoteLiteral hc (htype type hfield)⟩,
        not_mem_literal hc rfl⟩, hlookup⟩,
        not_mem_literal hc rfl⟩
    · exact hlookup
  unfold Field.constructorLine
  simp only [String.toList_append, List.mem_append, not_or]
  exact ⟨⟨⟨not_mem_literal hc rfl, hname⟩,
    not_mem_literal hc rfl⟩, hassigned⟩

private theorem not_mem_entryLine {field : Field} (hname : c ∉ field.name.toList) :
    c ∉ field.entryLine.toList := by
  unfold Field.entryLine
  simp only [String.toList_append, List.mem_append, not_or]
  exact ⟨⟨⟨⟨not_mem_literal hc rfl, not_mem_quoteLiteral hc hname⟩,
    not_mem_literal hc rfl⟩, not_mem_decimalText hc _⟩,
    not_mem_literal hc rfl⟩

omit hc in
theorem Spec.Without.not_mem_qualifiedName {spec : Spec} (hdot : c ≠ '.') (h : spec.Without c) :
    c ∉ spec.ownerQualifiedName.toList := by
  unfold Spec.ownerQualifiedName Naming.Owner.qualifiedName
  simp only
  split
  · exact h.name
  · simp [h.module, h.name, hdot]

private theorem Spec.Without.not_mem_openingLines {spec : Spec} (h : spec.Without c) :
    ∀ line ∈ spec.openingLines, c ∉ line.toList := by
  have hliteral {text : String} (htext : text.toList.all isPrintable) : c ∉ text.toList :=
    not_mem_literal hc htext
  have hdot : c ≠ '.' := by
    rintro rfl
    exact absurd hc (by decide)
  have himport : c ∉ ("from " ++ spec.ownerModule ++ " import " ++ spec.ownerName).toList := by
    simp only [String.toList_append, List.mem_append, not_or]
    exact ⟨⟨⟨hliteral rfl, h.module⟩, hliteral rfl⟩, h.name⟩
  have hcomment : c ∉ ("# owner: " ++ spec.ownerQualifiedName).toList := by
    rw [String.toList_append, List.mem_append, not_or]
    exact ⟨hliteral rfl, h.not_mem_qualifiedName hdot⟩
  intro line hline
  simp only [openingLines, List.mem_append, List.mem_cons, List.not_mem_nil, or_false] at hline
  rcases hline with ((rfl | rfl) | htyped) | rfl | rfl | rfl | rfl | rfl
  · exact hliteral rfl
  · exact hcomment
  · split at htyped
    · rcases List.mem_pair.mp htyped with rfl | rfl <;> exact hliteral rfl
    · simp at htyped
  · exact hliteral rfl
  · exact hliteral rfl
  · exact himport
  · exact hliteral rfl
  · exact hliteral rfl

/-- What is not printable ASCII and stands in no text of a specification stands in no line of its
unit. -/
theorem Spec.Without.not_mem_lines {spec : Spec} (h : spec.Without c) :
    ∀ line ∈ spec.lines, c ∉ line.toList := by
  have hliteral {text : String} (htext : text.toList.all isPrintable) : c ∉ text.toList :=
    not_mem_literal hc htext
  have hclass : c ∉ ("class " ++ spec.binderName ++ ":").toList := by
    simp only [String.toList_append, List.mem_append, not_or]
    exact ⟨⟨hliteral rfl, h.binder⟩, hliteral rfl⟩
  have hconstructor :
      c ∉ ("    def __init__(self, target: " ++ spec.ownerName ++ ") -> None:").toList := by
    simp only [String.toList_append, List.mem_append, not_or]
    exact ⟨⟨hliteral rfl, h.name⟩, hliteral rfl⟩
  have hregister :
      c ∉ ("register_binder(" ++ spec.ownerName ++ ", " ++ spec.binderName ++ ", (").toList := by
    simp only [String.toList_append, List.mem_append, not_or]
    exact ⟨⟨⟨⟨hliteral rfl, h.name⟩, hliteral rfl⟩, h.binder⟩, hliteral rfl⟩
  intro line hline
  simp only [lines, List.mem_append, List.mem_cons, List.not_mem_nil, or_false,
    List.mem_map] at hline
  rcases hline with ((((hline | rfl | rfl) | ⟨field, hfield, rfl⟩) | rfl | rfl | rfl) |
    ⟨field, hfield, rfl⟩) | rfl
  · exact h.not_mem_openingLines hc line hline
  · exact hclass
  · exact hconstructor
  · exact not_mem_constructorLine hc (h.field field hfield) (h.type field hfield)
  · exact hliteral rfl
  · exact hliteral rfl
  · exact hregister
  · exact not_mem_entryLine hc (h.field field hfield)
  · exact hliteral rfl

end

/-- What is no line end, is not printable and stands in no text of a specification stands nowhere in
its unit. -/
theorem Spec.Without.not_mem_source {c : Char} {spec : Spec} {unit : BinderUnit}
    (h : spec.Without c) (hprintable : isPrintable c = false) (hend : c ≠ '\n')
    (hrender : spec.render .standard = .ok unit) : c ∉ unit.source.toList := by
  rw [toList_source hrender, List.mem_flatMap]
  rintro ⟨line, hline, hmem⟩
  rcases List.mem_append.mp hmem with hmem | hmem
  · exact h.not_mem_lines hprintable line hline hmem
  · exact hend (List.mem_singleton.mp hmem)

/-- The file of a unit is read back as it was rendered if its texts hold no carriage return. -/
theorem Spec.readText_encode {spec : Spec} {unit : BinderUnit} (h : spec.Without '\r')
    (hrender : spec.render .standard = .ok unit) :
    readText (encode unit.source) = some unit.source.toList := by
  have hplain : '\r' ∉ unit.source.toList := h.not_mem_source (by decide) (by decide) hrender
  rw [readText, decodeStrict_encode, Option.map_some, unifyLineEnds_eq_self hplain]

end ElementBinding
