import ElementBinding.Proofs.Execution.Attributes
import ElementBinding.Proofs.Execution.Reference
import ElementBinding.Proofs.Unit.Parsing

/-!
# What units mean

The names in a unit are taken as the language takes them: an import is hidden by what is bound to
its name below it, and a private name is understood within the class around it. So the constructor
casts with the function of the typing module, the last call is one of the registry, and the
attributes that are assigned and registered are those under which the owner has its markers, as long
as the owner is not called like one of the two functions and no field has a private name.
-/
namespace ElementBinding
open ElementBinding.Text ElementBinding.Naming ElementBinding.Grammar

/-- The normal form of a name keeps the ASCII characters at its end. -/
structure IsNormalForm (normal : String → String) : Prop where
  empty : normal "" = ""
  append : ∀ name tail, (∀ c ∈ tail.toList, c.toNat < 128) →
    normal (name ++ tail) = normal name ++ tail

theorem IsNormalForm.ascii {normal : String → String} (h : IsNormalForm normal) {name : String}
    (hname : ∀ c ∈ name.toList, c.toNat < 128) : normal name = name := by
  have happend := h.append "" name hname
  rwa [h.empty, String.empty_append] at happend

theorem isNormalForm_id : IsNormalForm id := ⟨rfl, fun _ _ _ => rfl⟩

namespace Grammar

/-- The name begins with two underscores and does not end with two. -/
def IsPrivate (name : String) : Prop :=
  IsUnderscored name ∧ name.toList.reverse.take 2 ≠ ['_', '_']

instance (name : String) : Decidable (IsPrivate name) := inferInstanceAs (Decidable (_ ∧ _))

theorem Code.key_of_public {normal : String → String} {level : Option String} {name : String}
    (h : ¬IsPrivate (normal name)) : key normal level name = normal name := by
  cases level with
  | none => rfl
  | some className =>
    have hpublic : (decide ((normal name).toList.take 2 = ['_', '_']) &&
        decide ((normal name).toList.reverse.take 2 ≠ ['_', '_'])) = false := by
      simpa [IsPrivate, IsUnderscored] using h
    simp only [key, privateName, hpublic, Bool.false_and, Bool.false_eq_true, if_false]

theorem Code.key_of_ascii {normal : String → String} (hnormal : IsNormalForm normal)
    {level : Option String} {name : String} (hname : ∀ c ∈ name.toList, c.toNat < 128)
    (hpublic : ¬IsPrivate name) : key normal level name = name := by
  have hsame := hnormal.ascii hname
  rw [key_of_public (by rwa [hsame]), hsame]

end Grammar

namespace Spec.Regular
variable {normal : String → String} {spec : Spec}

/-- The binder is called like its owner, with something behind it. -/
theorem normal_binderName (h : spec.Regular) (hnormal : IsNormalForm normal) :
    normal spec.binderName = normal spec.ownerName ++ "Binding" := by
  rw [h.binder]
  exact hnormal.append spec.ownerName "Binding" (by simp)

theorem ne_binderName (h : spec.Regular) (hnormal : IsNormalForm normal) {name : String}
    (hname : ¬"Binding".toList <:+ name.toList) : name ≠ normal spec.binderName := by
  rintro rfl
  rw [h.normal_binderName hnormal, String.toList_append] at hname
  exact hname (List.suffix_append _ _)

end Spec.Regular

/-- A module that declares a class with a constructor, and ends with a call. -/
structure BinderModule where
  opening : List Stmt
  line : Nat
  name : String
  parameters : List Grammar.Parameter
  hint : Option String
  body : List Stmt
  call : Expr

namespace BinderModule

def definitions (m : BinderModule) : List Stmt :=
  m.opening ++ [.declaration m.line m.name none []
    [.function false "__init__" m.parameters m.hint m.body]]

def module (m : BinderModule) : Module := ⟨m.definitions ++ [.expression [m.call]]⟩

def RefersInCall (normal : String → String) (m : BinderModule) (name : String)
    (referent : Referent) : Prop :=
  Grammar.Refers normal m.definitions (Code.key normal none name) referent

def RefersInside (normal : String → String) (m : BinderModule) (name : String)
    (referent : Referent) : Prop :=
  Grammar.RefersInside normal (some m.name) m.module.statements m.parameters m.body
    (Code.key normal (some m.name) name) referent

/-- A statement of the constructor populates a field: it assigns to an attribute of the target what
its look-up finds, and calls the function of the typing module if the field has a type. -/
structure Populates (normal : String → String) (m : BinderModule) (held : String) (field : Field)
    (statement : Stmt) : Prop where
  assigns : ∃ assignment name, statement = .assignment assignment ∧
    assignment.IsTo (· = .attribute (.name "target") name) field.IsAssigned ∧
    Code.key normal (some m.name) name = held
  target : m.RefersInside normal "target" (.parameter "target")
  cast : field.type.isSome → m.RefersInside normal "cast" (.imported 0 ["typing"] "cast")

/-- The module has the statements of a unit. -/
structure IsOf (m : BinderModule) (spec : Spec) : Prop where
  opening : m.opening = spec.imports
  name : m.name = spec.binderName
  parameters : m.parameters =
    [.plain "self" none none, .plain "target" (some spec.ownerName) none]
  body : Matches (spec.fields.map Field.IsPopulated) m.body
  call : spec.IsRegistration m.call

end BinderModule

namespace Spec

/-- The key under which the owner has the marker of a field. -/
def heldUnder (normal : String → String) (spec : Spec) (field : Field) : String :=
  Code.key normal (some spec.ownerName) field.name

/-- A module of some text means what the specification says. -/
structure Means (normal : String → String) (spec : Spec) (text : List Char) (m : BinderModule) :
    Prop where
  registers : spec.IsRegistration m.call
  registry : m.RefersInCall normal "register_binder"
    (.imported 0 ["viewbind", "runtime", "registry"] "register_binder")
  owner : m.RefersInCall normal spec.ownerName
    (.imported 0 (dottedParts spec.ownerModule) spec.ownerName)
  binder : m.RefersInCall normal spec.binderName (.declared spec.binderName)
  populates : List.Forall₂
    (fun field => m.Populates normal (spec.heldUnder normal field) field) spec.fields m.body
  entries : readRegistration text =
    some (spec.fields.map fun field => (spec.heldUnder normal field, field.viewId))

end Spec

section

variable {α : Type}

theorem matches_append {properties more : List (α → Prop)} {values : List α}
    (h : Matches (properties ++ more) values) :
    ∃ first rest, values = first ++ rest ∧ Matches properties first ∧ Matches more rest := by
  induction properties generalizing values with
  | nil => exact ⟨[], values, rfl, .nil, h⟩
  | cons P others ih =>
    cases h with
    | cons hvalue hmore =>
      obtain ⟨first, rest, rfl, hfirst, hrest⟩ := ih hmore
      exact ⟨_ :: first, rest, rfl, .cons hvalue hfirst, hrest⟩

theorem matches_singleton {P : α → Prop} {values : List α} (h : Matches [P] values) :
    ∃ value, values = [value] ∧ P value := by
  obtain ⟨value, rest, hvalue, hrest, rfl⟩ := List.forall₂_cons_left_iff.mp h
  cases hrest
  exact ⟨value, rfl, hvalue⟩

theorem matches_pair {P Q : α → Prop} {values : List α} (h : Matches [P, Q] values) :
    ∃ first second, values = [first, second] ∧ P first ∧ Q second := by
  obtain ⟨first, rest, hfirst, hrest, rfl⟩ := List.forall₂_cons_left_iff.mp h
  obtain ⟨second, rfl, hsecond⟩ := matches_singleton hrest
  exact ⟨first, second, rfl, hfirst, hsecond⟩

private theorem eq_of_matches {expected values : List α}
    (h : Matches (expected.map fun value => (· = value)) values) : values = expected := by
  induction expected generalizing values with
  | nil =>
    cases h
    rfl
  | cons value more ih =>
    cases h with
    | cons hvalue hmore => rw [hvalue, ih hmore]

private theorem exists_of_matches {properties : List (α → Prop)} {values : List α}
    (h : Matches properties values) {value : α} (hvalue : value ∈ values) :
    ∃ P ∈ properties, P value := by
  induction h with
  | nil => simp at hvalue
  | @cons P first properties values hfirst hmore ih =>
    rcases List.mem_cons.mp hvalue with rfl | hvalue
    · exact ⟨P, List.mem_cons_self, hfirst⟩
    · obtain ⟨Q, hQ, hholds⟩ := ih hvalue
      exact ⟨Q, List.mem_cons_of_mem _ hQ, hholds⟩

end

theorem Spec.Writable.binderModule {spec : Spec} (h : spec.Writable) {unit : BinderUnit}
    (hrender : spec.render .standard = .ok unit) :
    ∃ m : BinderModule, (Source.ofOctets (encode unit.source)).tree = some m.module ∧
      m.IsOf spec := by
  obtain ⟨statements, htree, hmatches⟩ := h.tree_eq hrender
  obtain ⟨opening, rest, rfl, hopening, hrest⟩ := matches_append hmatches
  obtain rfl := eq_of_matches hopening
  obtain ⟨_, _, rfl, ⟨line, statements, rfl, hbody⟩, ⟨call, rfl, hcall⟩⟩ := matches_pair hrest
  obtain ⟨_, rfl, ⟨parameters, hint, body, rfl, hparameters, hpopulated⟩⟩ := matches_singleton hbody
  obtain ⟨_, _, rfl, rfl, rfl⟩ := matches_pair hparameters
  refine ⟨⟨spec.imports, line, spec.binderName, _, hint, body, call⟩, ?_,
    ⟨rfl, rfl, rfl, hpopulated, hcall⟩⟩
  rw [htree, BinderModule.module, BinderModule.definitions, List.append_assoc]
  rfl

namespace Grammar.Code.Everywhere

theorem of_isCall {function : Expr → Prop} {properties : List (Expr → Prop)} {e : Expr}
    (h : e.IsCall function properties)
    (hfunction : ∀ called, function called → Everywhere IsInert (.expr called))
    (harguments : ∀ P ∈ properties, ∀ value, P value → Everywhere IsInert (.expr value)) :
    Everywhere IsInert (.expr e) := by
  obtain ⟨called, arguments, rfl, hcalled, hmatches⟩ := h
  refine .of_expr (by simp) fun piece hpiece => ?_
  rcases List.mem_cons.mp hpiece with rfl | hpiece
  · exact hfunction called hcalled
  · obtain ⟨argument, hargument, rfl⟩ := List.mem_map.mp hpiece
    obtain ⟨_, hproperty, hholds⟩ := exists_of_matches hmatches hargument
    obtain ⟨P, hP, rfl⟩ := List.mem_map.mp hproperty
    obtain ⟨value, text, line, rfl, hvalue⟩ := hholds
    exact .of_positional (harguments P hP value hvalue)

theorem of_isTuple {properties : List (Expr → Prop)} {e : Expr} (h : e.IsTuple properties)
    (helements : ∀ P ∈ properties, ∀ value, P value → Everywhere IsInert (.expr value)) :
    Everywhere IsInert (.expr e) := by
  obtain ⟨elements, rfl, hmatches⟩ := h
  refine .of_expr (by simp) fun piece hpiece => ?_
  obtain ⟨element, helement, rfl⟩ := List.mem_map.mp hpiece
  obtain ⟨P, hP, hholds⟩ := exists_of_matches hmatches helement
  exact helements P hP element hholds

theorem of_name (id : String) : Everywhere IsInert (.expr (.name id)) :=
  .of_expr (by simp) (by simp [Expr.parts])

theorem of_integer (digits : String) : Everywhere IsInert (.expr (.integer digits)) :=
  .of_expr (by simp) (by simp [Expr.parts])

theorem of_string (text : String) : Everywhere IsInert (.expr (.string text [])) :=
  .of_expr (by simp) (by simp [Expr.parts])

theorem of_ofInteger (value : Int) : Everywhere IsInert (.expr (.ofInteger value)) := by
  unfold Expr.ofInteger
  split
  · exact .of_expr (by simp) (by simpa [Expr.parts] using of_integer _)
  · exact of_integer _

theorem of_attribute (id name : String) :
    Everywhere IsInert (.expr (.attribute (.name id) name)) :=
  .of_expr (by simp) (by simpa [Expr.parts] using of_name id)

end Grammar.Code.Everywhere

section
open Grammar.Code Grammar.Code.Everywhere

namespace Field
variable {field : Field} {e : Expr} {statement : Stmt}

theorem IsLookup.isInert (h : field.IsLookup e) : Everywhere IsInert (.expr e) := by
  refine of_isCall h ?_ ?_
  · rintro _ rfl
    exact of_attribute _ _
  · simpa using of_ofInteger _

theorem IsAssigned.isInert (h : field.IsAssigned e) : Everywhere IsInert (.expr e) := by
  unfold IsAssigned at h
  cases htype : field.type with
  | none =>
    rw [htype] at h
    exact IsLookup.isInert h
  | some type =>
    rw [htype] at h
    refine of_isCall h ?_ ?_
    · rintro _ rfl
      exact of_name _
    · simpa using ⟨of_string _, fun _ => IsLookup.isInert⟩

theorem IsPopulated.isInert (h : field.IsPopulated statement) :
    Everywhere IsInert (.stmt statement) := by
  obtain ⟨assignment, rfl, line, target, written, value, valueLine, rfl, rfl, hvalue⟩ := h
  exact .of_assignment (of_name _) (IsAssigned.isInert hvalue)

theorem IsEntry.isInert (h : field.IsEntry e) : Everywhere IsInert (.expr e) :=
  of_isTuple h (by simpa using ⟨of_string _, of_ofInteger _⟩)

end Field

theorem Spec.IsRegistration.isInert {spec : Spec} {e : Expr} (h : spec.IsRegistration e) :
    Everywhere IsInert (.expr e) := by
  refine of_isCall h ?_ ?_
  · rintro _ rfl
    exact of_name _
  · simp only [List.mem_cons, List.not_mem_nil, or_false]
    rintro P (rfl | rfl | rfl) value hvalue
    · exact hvalue ▸ of_name _
    · exact hvalue ▸ of_name _
    · refine of_isTuple hvalue fun Q hQ entry hentry => ?_
      obtain ⟨field, -, rfl⟩ := List.mem_map.mp hQ
      exact Field.IsEntry.isInert hentry

namespace BinderModule.IsOf
variable {normal : String → String} {spec : Spec} {m : BinderModule} {key : String}

theorem body_isInert (h : m.IsOf spec) :
    ∀ statement ∈ m.body, Everywhere IsInert (.stmt statement) := by
  intro statement hstatement
  obtain ⟨P, hP, hholds⟩ := exists_of_matches h.body hstatement
  obtain ⟨field, -, rfl⟩ := List.mem_map.mp hP
  exact Field.IsPopulated.isInert hholds

theorem not_binds_body (h : m.IsOf spec) {level : Option String} :
    ¬Code.Binds normal level (.block m.body) key :=
  (Everywhere.of_block ⟨by simp, fun _ hbinds => nomatch hbinds⟩ h.body_isInert).not_binds

theorem isStill (h : m.IsOf spec) {more : List Stmt}
    (hmore : ∀ statement ∈ more, Everywhere IsInert (.stmt statement)) :
    ∀ statement ∈ m.definitions ++ more, Everywhere IsStill (.stmt statement) := by
  have hconstructor : Everywhere IsStill
      (.stmt (.function false "__init__" m.parameters m.hint m.body)) := by
    refine of_function ?_ fun statement hstatement =>
      (h.body_isInert statement hstatement).mono fun _ => IsInert.isStill
    rw [h.parameters]
    simpa using ⟨of_plain _ _, of_plain _ _⟩
  have himports : ∀ statement ∈ spec.imports, Everywhere IsStill (.stmt statement) := by
    intro statement hstatement
    simp only [Spec.imports, List.mem_append, List.mem_ite_nil_right, List.mem_cons,
      List.not_mem_nil, or_false] at hstatement
    rcases hstatement with ⟨-, rfl⟩ | rfl | rfl <;> exact of_importFrom _ _ _
  intro statement hstatement
  simp only [definitions, h.opening, List.mem_append, List.mem_singleton] at hstatement
  rcases hstatement with (himport | rfl) | hstatement
  · exact himports statement himport
  · exact of_declaration (by simpa using hconstructor)
  · exact (hmore statement hstatement).mono fun _ => IsInert.isStill

section

variable (hnormal : IsNormalForm normal) (hspec : spec.Regular) (h : m.IsOf spec) {more : List Stmt}
  (hmore : ∀ statement ∈ more, Everywhere IsInert (.stmt statement))

include h hmore in
/-- An import is what its name refers to, if nothing else in the module has the name. -/
private theorem refers_import {front back : List Stmt} {source : List String} {name : String}
    (himports : spec.imports = front ++ .importFrom 0 source [([name], none)] :: back)
    (hkey : normal name = key) (hback : ∀ later ∈ back, ¬Code.Binds normal none (.stmt later) key)
    (hbinder : key ≠ normal spec.binderName) :
    Refers normal (m.definitions ++ more) key (.imported 0 source name) := by
  have hdefinitions : m.definitions ++ more = front ++ .importFrom 0 source [([name], none)] ::
      (back ++ .declaration m.line m.name none []
        [.function false "__init__" m.parameters m.hint m.body] :: more) := by
    simp [definitions, h.opening, himports]
  have hstill := h.isStill hmore
  rw [hdefinitions] at hstill ⊢
  refine .of_still hstill (hkey ▸ .importFrom 0 source name none) fun later hlater hbinds => ?_
  rcases List.mem_append.mp hlater with hlater | hlater
  · exact hback later hlater hbinds
  rcases List.mem_cons.mp hlater with rfl | hlater
  · exact hbinder (hbinds.of_declaration.trans (congrArg normal h.name))
  · exact (hmore later hlater).not_binds hbinds

include h hmore in
theorem refers_binder :
    Refers normal (m.definitions ++ more) (normal spec.binderName) (.declared spec.binderName) := by
  have hstill := h.isStill hmore
  rw [definitions, List.append_assoc, List.singleton_append] at hstill ⊢
  rw [← h.name]
  exact .of_still hstill (.declaration ..) fun later hlater => (hmore later hlater).not_binds

include hnormal hspec h hmore

theorem refers_owner : Refers normal (m.definitions ++ more) (normal spec.ownerName)
    (.imported 0 (dottedParts spec.ownerModule) spec.ownerName) := by
  refine refers_import h hmore (List.append_assoc _ [_] [_]).symm rfl (by simp) ?_
  rw [hspec.normal_binderName hnormal]
  intro heq
  have hlength := congrArg String.length heq
  simp at hlength

/-- The registering function is the one of the registry, unless the owner is called like it. -/
theorem refers_registry (hregistry : normal spec.ownerName ≠ "register_binder") :
    Refers normal (m.definitions ++ more) "register_binder"
      (.imported 0 ["viewbind", "runtime", "registry"] "register_binder") := by
  refine refers_import h hmore rfl (hnormal.ascii (by simp))
    (fun later hlater hbinds => ?_) (hspec.ne_binderName hnormal (by decide))
  obtain rfl := List.mem_singleton.mp hlater
  exact hregistry hbinds.of_importFrom.symm

/-- The cast is the one of the typing module, unless the owner is called like it. -/
theorem refers_cast (htyped : spec.fields.any (·.type.isSome))
    (hcast : normal spec.ownerName ≠ "cast") :
    Refers normal (m.definitions ++ more) "cast" (.imported 0 ["typing"] "cast") := by
  have himports : spec.imports = [] ++ .importFrom 0 ["typing"] [(["cast"], none)] ::
      [.importFrom 0 ["viewbind", "runtime", "registry"] [(["register_binder"], none)],
        .importFrom 0 (dottedParts spec.ownerModule) [([spec.ownerName], none)]] := by
    rw [Spec.imports, if_pos htyped, List.singleton_append, List.nil_append]
  refine refers_import h hmore himports (hnormal.ascii (by simp))
    (fun later hlater hbinds => ?_) (hspec.ne_binderName hnormal (by decide))
  simp only [List.mem_cons, List.not_mem_nil, or_false] at hlater
  rcases hlater with rfl | rfl
  · have hname : normal "register_binder" = "register_binder" :=
      hnormal.ascii (by simp)
    exact absurd (hbinds.of_importFrom.trans hname) (by decide)
  · exact hcast hbinds.of_importFrom.symm

end

theorem refersInside_target (hnormal : IsNormalForm normal) (h : m.IsOf spec) :
    m.RefersInside normal "target" (.parameter "target") := by
  have hkey : Code.key normal (some m.name) "target" = "target" :=
    key_of_ascii hnormal (by simp) (by decide)
  have hamong : Parameter.plain "target" (some spec.ownerName) none ∈ m.parameters := by
    simp [h.parameters]
  unfold RefersInside
  rw [hkey]
  exact .parameter hamong (Grammar.Parameter.binds_plain.mpr hkey) h.not_binds_body

private theorem refersInside_of_refers (hnormal : IsNormalForm normal) (h : m.IsOf spec)
    {referent : Referent}
    (hrefers : Refers normal (m.definitions ++ [.expression [m.call]]) "cast" referent) :
    m.RefersInside normal "cast" referent := by
  have hkey {name : String} (hname : ∀ c ∈ name.toList, c.toNat < 128) (hpublic : ¬IsPrivate name) :
      Code.key normal (some m.name) name = name := key_of_ascii hnormal hname hpublic
  unfold RefersInside
  rw [hkey (by simp) (by decide)]
  refine .module (fun parameter hparameter hbinds => ?_) h.not_binds_body hrefers
  rw [h.parameters] at hparameter
  simp only [List.mem_cons, List.not_mem_nil, or_false] at hparameter
  rcases hparameter with rfl | rfl
  · rw [Grammar.Parameter.binds_plain, hkey (by simp) (by decide)] at hbinds
    exact absurd hbinds (by decide)
  · rw [Grammar.Parameter.binds_plain, hkey (by simp) (by decide)] at hbinds
    exact absurd hbinds (by decide)

private theorem call_isInert (h : m.IsOf spec) :
    ∀ statement ∈ [Stmt.expression [m.call]], Everywhere IsInert (.stmt statement) := by
  simpa using Everywhere.of_expression (Spec.IsRegistration.isInert h.call)

theorem refersInside_cast (hnormal : IsNormalForm normal) (hspec : spec.Regular) (h : m.IsOf spec)
    (htyped : spec.fields.any (·.type.isSome)) (hcast : normal spec.ownerName ≠ "cast") :
    m.RefersInside normal "cast" (.imported 0 ["typing"] "cast") :=
  refersInside_of_refers hnormal h (refers_cast hnormal hspec h h.call_isInert htyped hcast)

/-- An owner that is called like the cast takes its place. -/
theorem refersInside_captured (hnormal : IsNormalForm normal) (hspec : spec.Regular)
    (h : m.IsOf spec) (hcast : normal spec.ownerName = "cast") :
    m.RefersInside normal "cast" (.imported 0 (dottedParts spec.ownerModule) spec.ownerName) :=
  refersInside_of_refers hnormal h (hcast ▸ refers_owner hnormal hspec h h.call_isInert)

/-- An owner that is called like the registering function is called in its place. -/
theorem refersInCall_captured (hnormal : IsNormalForm normal) (hspec : spec.Regular)
    (h : m.IsOf spec) (hregistry : normal spec.ownerName = "register_binder") :
    m.RefersInCall normal "register_binder"
      (.imported 0 (dottedParts spec.ownerModule) spec.ownerName) := by
  have hkey : Code.key normal none "register_binder" = "register_binder" :=
    hnormal.ascii (by simp)
  have hrefers : Refers normal (m.definitions ++ []) _ _ :=
    refers_owner hnormal hspec h (by simp)
  unfold RefersInCall
  rwa [List.append_nil, hregistry, ← hkey] at hrefers

/-- The module means what the specification says, if the owner takes the place of no function and
the fields are called by normal forms that are not private. -/
theorem means (hnormal : IsNormalForm normal) (hspec : spec.Regular) (h : m.IsOf spec)
    {text : List Char} (hread : spec.ReadFrom text)
    (hregistry : normal spec.ownerName ≠ "register_binder")
    (hcast : spec.fields.any (·.type.isSome) → normal spec.ownerName ≠ "cast")
    (hnames : ∀ field ∈ spec.fields, normal field.name = field.name ∧ ¬IsPrivate field.name) :
    spec.Means normal text m := by
  have hkey (level : Option String) {field : Field} (hfield : field ∈ spec.fields) :
      Code.key normal level field.name = field.name := by
    obtain ⟨hnormal, hpublic⟩ := hnames field hfield
    rw [key_of_public (by rwa [hnormal]), hnormal]
  have hnone : ∀ statement ∈ ([] : List Stmt), Everywhere IsInert (.stmt statement) := by simp
  have hregistryKey : Code.key normal none "register_binder" = "register_binder" :=
    hnormal.ascii (by simp)
  have hpopulated := h.body
  rw [Matches, List.forall₂_map_left_iff] at hpopulated
  refine ⟨h.call, ?_, ?_, ?_, ?_, ?_⟩
  · have hrefers := refers_registry hnormal hspec h hnone hregistry
    unfold RefersInCall
    rwa [hregistryKey, ← m.definitions.append_nil]
  · have hrefers := refers_owner hnormal hspec h hnone
    rwa [List.append_nil] at hrefers
  · have hrefers := (refers_binder h hnone : Refers normal (m.definitions ++ []) _ _)
    rwa [List.append_nil] at hrefers
  · have hmembers : List.Forall₂ (fun field statement => field ∈ spec.fields ∧
        field.IsPopulated statement) spec.fields m.body :=
      (List.forall₂_and_left _ _).mpr ⟨fun _ hfield => hfield, hpopulated⟩
    refine hmembers.imp fun field statement ⟨hfield, assignment, hassigns, hto⟩ => ?_
    refine ⟨⟨assignment, field.name, hassigns, hto, ?_⟩, refersInside_target hnormal h,
      fun htype => ?_⟩
    · rw [Spec.heldUnder, hkey _ hfield, hkey _ hfield]
    · have htyped : spec.fields.any (·.type.isSome) := List.any_eq_true.mpr ⟨field, hfield, htype⟩
      exact refersInside_cast hnormal hspec h htyped (hcast htyped)
  · rw [hread.registered]
    refine congrArg some (List.map_congr_left fun field hfield => ?_)
    rw [Spec.heldUnder, hkey _ hfield]

end BinderModule.IsOf

end

/-- The unit of a class that was scanned means what its specification says, and the attributes in it
are those under which the class holds its markers: if the unit can be parsed, the owner is called
like none of the functions in it, and the fields are called by normal forms that are not private. -/
theorem DeclaredClass.unit_means {normal : String → String} (hnormal : IsNormalForm normal)
    {octets : Octets} {module : Module} {moduleName : String} {isPackage : Bool}
    {declared : DeclaredClass} {spec : Spec} {unit : BinderUnit}
    (htree : (Source.ofOctets octets).tree = some module)
    (hdeclared : declared ∈ module.scan moduleName .standard isPackage)
    (hspec : declared.spec? .standard = .ok spec) (hrender : spec.render .standard = .ok unit)
    (hmodule : ∀ part ∈ dottedParts moduleName, IsFreeName part)
    (hreserved : ∀ field ∈ spec.fields, isReserved field.name = false)
    (hregistry : normal spec.ownerName ≠ "register_binder")
    (hcast : spec.fields.any (·.type.isSome) → normal spec.ownerName ≠ "cast")
    (hnames : ∀ field ∈ spec.fields, normal field.name = field.name ∧ ¬IsPrivate field.name) :
    (∃ m : BinderModule, (Source.ofOctets (encode unit.source)).tree = some m.module ∧
      spec.Means normal unit.source.toList m) ∧
    ∃ statement ∈ module.classes, statement.name = spec.ownerName ∧
      ∀ field ∈ spec.fields, statement.HoldsMarker normal
        (module.scanContext moduleName .standard) field (spec.heldUnder normal field) := by
  have hscan : (Source.ofOctets octets).scan moduleName .standard isPackage =
      .ok (module.scan moduleName .standard isPackage) := by
    rw [Source.scan, htree]
  obtain ⟨hnamed, hmoduleName⟩ := Source.scan_named hscan declared hdeclared
  obtain ⟨hfields, rfl⟩ : declared.fields ≠ [] ∧ declared.spec .standard = spec := by
    unfold spec? at hspec
    split at hspec
    · simp at hspec
    · rename_i hnonempty
      exact ⟨by simpa using hnonempty, Except.ok.inj hspec⟩
  obtain ⟨hshort, hsource⟩ := Spec.source_of_render hrender
  have hwritable := hnamed.writable hfields hshort (hmoduleName ▸ hmodule) hreserved
  refine ⟨?_, ?_⟩
  · obtain ⟨m, hparsed, hof⟩ := hwritable.binderModule hrender
    refine ⟨m, hparsed, hof.means hnormal hwritable.toRegular ?_ hregistry hcast hnames⟩
    rw [hsource]
    exact hwritable.toRegular.readFrom
  · obtain ⟨statement, hstatement, rfl⟩ := List.mem_map.mp hdeclared
    have howner : statement.name =
        ((module.scanContext moduleName .standard).declared isPackage statement).owner.name := by
      rw [ScanContext.declared_owner]
    refine ⟨statement, hstatement, howner, fun field hfield => ?_⟩
    have hholds := holdsMarker_of_declared hfield normal
    rwa [howner] at hholds

section

private structure FieldClass where
  name : String
  field : String
  hint : Option String
  digits : String
deriving DecidableEq

private def FieldClass.assignment (type : FieldClass) : Assignment :=
  .mk 1 ⟨false, [.name type.field], type.field⟩ type.hint "=" (some (.single
    (.call (.name "bind_view") [.positional (.integer type.digits) type.digits 1]) 1))

private def FieldClass.module (type : FieldClass) : Module :=
  ⟨[.declaration 0 type.name none [] [.assignment type.assignment]]⟩

private def FieldClass.of? : Option Module → Option FieldClass
  | some ⟨[.declaration 0 name none [] [.assignment (.mk 1 ⟨false, [.name field], written⟩ hint "="
      (some (.single (.call (.name "bind_view") [.positional (.integer digits) text 1]) 1)))]]⟩ =>
    if written = field ∧ text = digits then some ⟨name, field, hint, digits⟩ else none
  | _ => none

private theorem FieldClass.eq_of_of? {tree : Option Module} {type : FieldClass}
    (h : of? tree = some type) : tree = some type.module := by
  unfold of? at h
  split at h
  · obtain ⟨⟨rfl, rfl⟩, htype⟩ := Option.ite_none_right_eq_some.mp h
    obtain rfl := Option.some.inj htype
    rfl
  · simp at h

/-- The text of a class whose field begins with an underscore and has a type. -/
def screenText : String := "class Screen:\n    _title: 'Text | None' = bind_view(100)\n"

private def screenClass : FieldClass := ⟨"Screen", "_title", some "'Text | None'", "100"⟩

private theorem tree_screen :
    (Source.ofOctets (encode screenText)).tree = some screenClass.module := by
  rw [Source.ofOctets, decodeTolerant_encode]
  exact FieldClass.eq_of_of? (by decide +kernel)

def privateText : String := "class A:\n    __x = bind_view(1)\n"

private def privateClass : FieldClass := ⟨"A", "__x", none, "1"⟩

private theorem tree_private :
    (Source.ofOctets (encode privateText)).tree = some privateClass.module := by
  rw [Source.ofOctets, decodeTolerant_encode]
  exact FieldClass.eq_of_of? (by decide +kernel)

private theorem FieldClass.call_isInert (type : FieldClass) :
    Code.Everywhere Code.IsInert
      (.expr (.call (.name "bind_view") [.positional (.integer type.digits) type.digits 1])) := by
  refine .of_expr (by simp) ?_
  simpa [Expr.parts] using
    ⟨Code.Everywhere.of_name _, Code.Everywhere.of_positional (.of_integer _)⟩

/-- No value but a marker with a literal comes to anything. -/
private def literalSetting (className : String) : Setting :=
  ⟨id, className, .standard, fun _ _ => False⟩

private theorem FieldClass.gives (type : FieldClass) : type.assignment.Gives [type.field]
    (.single (.call (.name "bind_view") [.positional (.integer type.digits) type.digits 1]) 1) :=
  .one rfl (by simp)

private theorem FieldClass.marks (type : FieldClass) {viewId : Nat}
    (h : literalValue? type.digits.toList = some viewId) :
    (Value.single (.call (.name "bind_view")
      [.positional (.integer type.digits) type.digits 1]) 1).Marks .standard viewId :=
  ⟨_, _, _, rfl, rfl, .positional h⟩

private theorem FieldClass.runs (type : FieldClass) {viewId : Nat}
    (h : literalValue? type.digits.toList = some viewId) (own : String → Prop) :
    (literalSetting type.name).Runs own [.assignment type.assignment] (fun _ => none)
      ((literalSetting type.name).store [type.field] (.marker { viewId }) fun _ => none) :=
  .marked type.gives (type.marks h).isMarkerCall (.marker (type.marks h)) (fun _ => .inl rfl)
    (fun _ => .inl rfl) (.nil _)

private theorem marker_of_leaves {setting : Setting} {own : String → Prop} {code : Code}
    {before after : Attributes} (h : setting.Leaves own [code] before after)
    (hcode : Code.Everywhere Code.IsInert code) {key : String} {marker : Marker}
    (hmarker : after key = some (.marker marker)) : before key = some (.marker marker) := by
  rcases h key with hsame | ⟨other, hother, hbinds⟩ | ⟨-, hnone⟩
  · exact hsame ▸ hmarker
  · obtain rfl := List.mem_singleton.mp hother
    exact absurd hbinds hcode.not_binds
  · exact absurd hmarker (hnone marker)

private theorem FieldClass.holds_iff (type : FieldClass) {setting : Setting} {own : String → Prop}
    {viewId : Nat} (hviewId : literalValue? type.digits.toList = some viewId)
    (hhint : type.hint = none) (hprofile : setting.profile = .standard) {before after : Attributes}
    (hbefore : ∀ key marker, before key ≠ some (.marker marker))
    (hruns : setting.Runs own [.assignment type.assignment] before after) {held : String}
    (hheld : Code.key setting.normal (some setting.className) type.field = held) (hown : ¬own held)
    (key : String) : (∃ marker, after key = some (.marker marker)) ↔ key = held := by
  have hcalled := (hprofile ▸ type.marks hviewId).isMarkerCall
  cases hruns with
  | @marked _ name value object _ _ evaluated annotated _ gives _ yields evaluates annotates more =>
    cases more
    obtain ⟨hname, -, hvalue⟩ := gives.of_single
    obtain ⟨hname', -, hvalue'⟩ := type.gives.of_single
    obtain rfl := Option.some.inj (hname.symm.trans hname')
    obtain rfl := Option.some.inj (hvalue.symm.trans hvalue')
    obtain rfl := yields.eq_marker (hprofile ▸ type.marks hviewId)
    have hinert : Code.Everywhere Code.IsInert (.hint type.assignment.hint) := by
      have hnone : type.assignment.hint = none := hhint
      rw [hnone]
      exact .of_parts ⟨by simp, fun _ hbinds => nomatch hbinds⟩ (by simp) (by simp)
        (by simp [Code.parts])
    constructor
    · rintro ⟨marker, hmarker⟩
      have hstored := marker_of_leaves annotates hinert hmarker
      by_contra hne
      rw [Setting.store, List.foldl_cons, List.foldl_nil, hheld,
        Function.update_of_ne hne] at hstored
      exact hbefore key marker (marker_of_leaves evaluates type.call_isInert hstored)
    · rintro rfl
      refine ⟨{ viewId }, (annotates.eq ?_ hown).trans ?_⟩
      · simpa using hinert.not_binds
      · rw [Setting.store, List.foldl_cons, List.foldl_nil, hheld, Function.update_self]
  | other unmarked => exact absurd hcalled (unmarked _ _ _ rfl type.gives)

private theorem FieldClass.eq_of_site (type : FieldClass) {context : ScanContext} {field : Field}
    (site : FieldSite context [.assignment type.assignment] field) :
    site.assignment = type.assignment ∧ site.later = [] ∧ site.value =
      .single (.call (.name "bind_view") [.positional (.integer type.digits) type.digits 1]) 1 := by
  obtain ⟨hnil, hcons⟩ | ⟨_, -, hcons⟩ := List.append_eq_cons_iff.mp site.stands.symm
  · obtain ⟨hassignment, hlater⟩ := List.cons.inj hcons
    have hassignment := Stmt.assignment.inj hassignment
    obtain ⟨-, -, hvalue⟩ := (hassignment ▸ site.gives).of_single
    exact ⟨hassignment, hlater, (Option.some.inj hvalue).symm⟩
  · simp at hcons

private def screenField : Field := ⟨"app.Screen", "_title", some "Text | None", 100, 1⟩

private def screenSpec : Spec := ⟨"app", "Screen", "screen_binding", "ScreenBinding", [screenField]⟩

private theorem scan_screen : screenClass.module.scan "app" .standard false =
    [⟨⟨"app", "Screen", false⟩, 0, [screenField], none⟩] := by
  decide +kernel

theorem DeclaredClass.unit_means_screen : ∃ module declared spec unit,
    (Source.ofOctets (encode screenText)).tree = some module ∧
    module.scan "app" .standard false = [declared] ∧ declared.spec? .standard = .ok spec ∧
    spec.render .standard = .ok unit ∧
    (∃ m : BinderModule, (Source.ofOctets (encode unit.source)).tree = some m.module ∧
      spec.Means id unit.source.toList m) ∧
    ∃ statement ∈ module.classes, ∃ after,
      (literalSetting statement.name).Runs IsUnderscored statement.body (fun _ => none) after ∧
      after "_title" = some (.marker { viewId := 100 }) := by
  have hshort : screenSpec.IsShort := by decide
  have hspec : DeclaredClass.spec? ⟨⟨"app", "Screen", false⟩, 0, [screenField], none⟩ .standard =
      .ok screenSpec := by
    decide
  have hrender := Spec.render_eq hshort
  obtain ⟨hmeans, statement, hstatement, -, hholds⟩ := unit_means isNormalForm_id tree_screen
    (scan_screen ▸ List.mem_singleton_self _) hspec hrender (by decide) (by decide) (by decide)
    (by decide) (by decide)
  obtain rfl : statement = ⟨0, "Screen", [.assignment screenClass.assignment]⟩ :=
    List.mem_singleton.mp hstatement
  have hdigits : literalValue? screenClass.digits.toList = some 100 := rfl
  have hruns := screenClass.runs hdigits IsUnderscored
  obtain ⟨site, hsite⟩ := hholds screenField (List.mem_singleton_self _)
  obtain ⟨hassignment, hlater, hvalue⟩ := screenClass.eq_of_site site
  have hkeeps : site.Keeps id IsUnderscored "Screen" (screenSpec.heldUnder id screenField) := by
    refine ⟨by decide, ?_, by simp [hlater]⟩
    rw [hassignment]
    rintro ⟨piece, name, hwithin, hbinds, -⟩
    rcases Relation.ReflTransGen.cases_head hwithin with rfl | ⟨_, hpart, -⟩
    · cases hbinds with
      | hint assigns occurs =>
        exact absurd assigns (by decide : ¬":=".toList <:+: "'Text | None'".toList)
    · simp [Code.parts] at hpart
  obtain ⟨object, hyields, hafter⟩ := hsite _ IsUnderscored _ _ rfl rfl rfl hruns hkeeps
  rw [hvalue] at hyields
  obtain rfl := hyields.eq_marker (screenClass.marks hdigits)
  exact ⟨_, _, _, _, tree_screen, scan_screen, hspec, hrender, hmeans, _, hstatement, _, hruns,
    hafter⟩

private def privateField : Field := ⟨"m.A", "__x", none, 1, 1⟩

private def privateSpec : Spec := ⟨"m", "A", "a_binding", "ABinding", [privateField]⟩

private theorem scan_private : privateClass.module.scan "m" .standard false =
    [⟨⟨"m", "A", false⟩, 0, [privateField], none⟩] := by
  decide +kernel

/-- A private field has its marker under one key, is populated under another and registered under a
third. -/
theorem DeclaredClass.unit_misnames : ∃ module declared spec unit m statement,
    (Source.ofOctets (encode privateText)).tree = some module ∧
    module.scan "m" .standard false = [declared] ∧ declared.spec? .standard = .ok spec ∧
    spec.render .standard = .ok unit ∧
    (Source.ofOctets (encode unit.source)).tree = some (BinderModule.module m) ∧
    (∃ assignment field, m.body = [.assignment assignment] ∧
      assignment.IsTo (· = .attribute (.name "target") "__x") (Field.IsAssigned field) ∧
      Code.key id (some m.name) "__x" = "_ABinding__x") ∧
    readRegistration unit.source.toList = some [("__x", 1)] ∧
    module.classes = [statement] ∧
    (∃ after,
      (literalSetting statement.name).Runs IsUnderscored statement.body (fun _ => none) after) ∧
    ∀ (setting : Setting) (own : String → Prop) (before after : Attributes),
      setting.normal = id → setting.className = statement.name → setting.profile = .standard →
      (∀ key marker, before key ≠ some (.marker marker)) → ¬own "_A__x" →
      setting.Runs own statement.body before after →
      ∀ key, (∃ marker, after key = some (.marker marker)) ↔ key = "_A__x" := by
  have hshort : privateSpec.IsShort := by decide
  have hspec : DeclaredClass.spec? ⟨⟨"m", "A", false⟩, 0, [privateField], none⟩ .standard =
      .ok privateSpec := by
    decide
  have hrender := Spec.render_eq hshort
  have hscan : (Source.ofOctets (encode privateText)).scan "m" .standard false =
      .ok [⟨⟨"m", "A", false⟩, 0, [privateField], none⟩] := by
    rw [Source.scan, tree_private]
    exact congrArg Except.ok scan_private
  obtain ⟨hnamed, -⟩ := Source.scan_named hscan _ (List.mem_singleton_self _)
  have hwritable : privateSpec.Writable :=
    hnamed.writable (List.cons_ne_nil _ _) hshort (by decide) (by decide)
  obtain ⟨m, hparsed, hof⟩ := hwritable.binderModule hrender
  have hdigits : literalValue? privateClass.digits.toList = some 1 := rfl
  obtain ⟨statement, hbody, assignment, rfl, hto⟩ := matches_singleton hof.body
  refine ⟨_, _, _, _, m, _, tree_private, scan_private, hspec, hrender, hparsed,
    ⟨assignment, privateField, hbody, hto, ?_⟩, hwritable.toRegular.readFrom.registered, rfl,
    ⟨_, privateClass.runs hdigits IsUnderscored⟩,
    fun setting own before after hnormal hname hprofile hbefore hown hruns => ?_⟩
  · rw [hof.name]
    decide
  · have hheld : Code.key setting.normal (some setting.className) "__x" = "_A__x" := by
      rw [hnormal, hname]
      decide
    exact privateClass.holds_iff hdigits rfl hprofile hbefore hruns hheld hown

end

end ElementBinding
