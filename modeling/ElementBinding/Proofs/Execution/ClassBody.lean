import ElementBinding.Binding
import ElementBinding.Proofs.Binding.Generated
import ElementBinding.Proofs.Execution.Code
import ElementBinding.Proofs.Pairs
import ElementBinding.Proofs.Scan.Markers

/-!
# Classes whose bodies assign

The body of a class is run from top to bottom, and what its names are bound to in the end are the
attributes of the class. The scan takes every assignment of a marker to a single name for a field;
the class declares the markers among its attributes. The two agree if nothing takes the place of a
marker and no marker goes by another name.
-/
namespace ElementBinding
open ElementBinding.Naming ElementBinding.Grammar

namespace Grammar

/-- The assignment gives its value to some single names, from left to right. -/
inductive Assignment.Gives : Assignment → List String → Value → Prop
  | one {line : Nat} {target : Target} {hint : Option String} {name : String} {value : Value}
      (named : target.name? = some name) (last : ∀ inner, value ≠ .nested inner) :
      Gives (.mk line target hint "=" (some value)) [name] value
  | chained {line : Nat} {target : Target} {name : String} {inner : Assignment}
      {names : List String} {value : Value} (named : target.name? = some name)
      (unhinted : inner.hint = none) (more : Gives inner names value) :
      Gives (.mk line target none "=" (some (.nested inner))) (name :: names) value

def Value.IsMarkerCall (profile : Profile) (value : Value) : Prop :=
  ∃ function arguments line, value = .single (.call function arguments) line ∧
    isMarker profile function

/-- The arguments of a marker are an integer literal. -/
inductive Argument.AreLiteral (profile : Profile) : List Argument → Nat → Prop
  | positional {digits text : String} {line value : Nat}
      (reads : Text.literalValue? digits.toList = some value) :
      AreLiteral profile [.positional (.integer digits) text line] value
  | keyword {digits text : String} {nameLine line value : Nat}
      (reads : Text.literalValue? digits.toList = some value) :
      AreLiteral profile [.keyword profile.markerKeyword nameLine (.integer digits) text line] value

def Value.Marks (profile : Profile) (value : Value) (viewId : Nat) : Prop :=
  ∃ function arguments line, value = .single (.call function arguments) line ∧
    isMarker profile function ∧ Argument.AreLiteral profile arguments viewId

def IsUnderscored (name : String) : Prop := name.toList.take 2 = ['_', '_']

instance (name : String) : Decidable (IsUnderscored name) :=
  inferInstanceAs (Decidable (_ = _))

end Grammar

/-- What the names of a class body are bound to. -/
abbrev Attributes := String → Option Attribute

def Attributes.viewId? (attributes : Attributes) (name : String) : Option Int :=
  (attributes name).bind fun
    | .marker marker => some marker.viewId
    | _ => none

/-- What a class body is run with: the normal form of names, the name of the class, the spelling of
the marker, and what other values than calls of the marker with a literal can come to. -/
structure Setting where
  normal : String → String
  className : String
  profile : Profile
  comesTo : Value → Attribute → Prop

namespace Setting

/-- Evaluating code leaves every name alone that the code cannot bind, but for those of the class's
own account, which begin with two underscores. -/
def Spares (setting : Setting) (codes : List Code) (before after : Attributes) : Prop :=
  ∀ key, after key = before key ∨
    (∃ code ∈ codes, code.Binds setting.normal (some setting.className) key) ∨
    IsUnderscored key ∧ ∀ marker, after key ≠ some (.marker marker)

def store (setting : Setting) (names : List String) (object : Attribute) (attributes : Attributes) :
    Attributes :=
  names.foldl (fun attributes name =>
    Function.update attributes (Code.key setting.normal (some setting.className) name)
      (some object)) attributes

inductive Evaluates (setting : Setting) (value : Value) (before : Attributes) :
    Attribute → Attributes → Prop
  | marker {viewId : Nat} (marks : value.Marks setting.profile viewId) :
      Evaluates setting value before (.marker { viewId }) before
  | other {object : Attribute} {after : Attributes}
      (unmarked : ∀ viewId, ¬value.Marks setting.profile viewId)
      (comes : setting.comesTo value object) (spares : setting.Spares value.parts before after) :
      Evaluates setting value before object after

/-- A body of assignments to single names runs to its end. An annotation without a value binds
nothing; otherwise the annotation is evaluated last. -/
inductive Executes (setting : Setting) : List Stmt → Attributes → Attributes → Prop
  | nil (attributes : Attributes) : Executes setting [] attributes attributes
  | bare {assignment : Assignment} {name : String} {rest : List Stmt}
      {before annotated after : Attributes} (named : assignment.target.name? = some name)
      (valueless : assignment.value = none)
      (spares : setting.Spares [.hint assignment.hint] before annotated)
      (more : Executes setting rest annotated after) :
      Executes setting (.assignment assignment :: rest) before after
  | assignment {assignment : Assignment} {names : List String} {value : Value} {object : Attribute}
      {rest : List Stmt} {before evaluated annotated after : Attributes}
      (gives : assignment.Gives names value)
      (evaluates : setting.Evaluates value before object evaluated)
      (spares : setting.Spares [.hint assignment.hint] (setting.store names object evaluated)
        annotated)
      (more : Executes setting rest annotated after) :
      Executes setting (.assignment assignment :: rest) before after

/-- No name that the body assigns to begins with two underscores. -/
def IsPlain (body : List Stmt) : Prop :=
  ∀ assignment names value, .assignment assignment ∈ body → assignment.Gives names value →
    ∀ name ∈ names, ¬IsUnderscored name

/-- Each marker of the class is assigned to one name, nothing but a marker is assigned to that name
afterwards, and markers come from nowhere else. A marker that is not called with a literal comes to
what the scan reads. Names are spelled in their normal form, and nothing but the assignments binds
any. -/
structure Undisturbed (setting : Setting) (context : ScanContext) (body : List Stmt) : Prop where
  spelled : ∀ assignment names value, .assignment assignment ∈ body →
    assignment.Gives names value → ∀ name ∈ names, setting.normal name = name
  single : ∀ assignment names value, .assignment assignment ∈ body →
    assignment.Gives names value → value.IsMarkerCall setting.profile → ∃ name, names = [name]
  kept : body.Pairwise fun earlier later => ∀ first second name names value other,
    earlier = .assignment first → first.Gives [name] value → value.IsMarkerCall setting.profile →
    later = .assignment second → second.Gives names other → name ∈ names →
      other.IsMarkerCall setting.profile
  read : ∀ assignment names function arguments line viewId object, .assignment assignment ∈ body →
    assignment.Gives names (.single (.call function arguments) line) →
    isMarker setting.profile function → context.viewId line arguments = .ok viewId →
    setting.comesTo (.single (.call function arguments) line) object →
      ∃ marker, object = .marker marker ∧ marker.viewId = viewId
  unaliased : ∀ assignment names value object, .assignment assignment ∈ body →
    assignment.Gives names value → ¬value.IsMarkerCall setting.profile →
    setting.comesTo value object → ∀ marker, object ≠ .marker marker
  unbound : ∀ assignment, .assignment assignment ∈ body → ∀ key,
    ¬(Code.hint assignment.hint).Binds setting.normal (some setting.className) key ∧
    ∀ names value, assignment.Gives names value → ∀ code ∈ value.parts,
      ¬code.Binds setting.normal (some setting.className) key

end Setting

/-- The class has its names bound to the markers that its body leaves. -/
structure Class.Reflects (type : Class) (attributes : Attributes) : Prop where
  distinct : (type.attributes.map Prod.fst).Nodup
  markers : ∀ name, Attributes.viewId? (Pairs.get? type.attributes) name =
    Attributes.viewId? attributes name

/-- The view identifiers that the scan finds under the names of a class; a later field of a name
takes the place of an earlier one. -/
def DeclaredClass.viewIds (declared : DeclaredClass) : List (String × Int) :=
  Pairs.ofList (declared.fields.map fun field => (field.name, field.viewId))

/-- What a class declares under a name. -/
theorem Class.get?_declared {type : Class} (h : (type.attributes.map Prod.fst).Nodup)
    (name : String) :
    Pairs.get? type.declared name = Attributes.viewId? (Pairs.get? type.attributes) name := by
  unfold Class.declared Attributes.viewId?
  generalize type.attributes = pairs at h ⊢
  induction pairs with
  | nil => rfl
  | cons pair rest ih =>
    obtain ⟨key, value⟩ := pair
    obtain ⟨hfresh, hrest⟩ := List.nodup_cons.mp h
    have hmore := ih hrest
    by_cases hkey : key = name
    · subst hkey
      have hnone : Pairs.get? rest key = none := Pairs.get?_eq_none hfresh
      rw [hnone] at hmore
      cases value <;> simp_all [Pairs.get?]
    · cases value <;> simp_all [Pairs.get?]

namespace Grammar

theorem Assignment.Gives.ne_nil {assignment : Assignment} {names : List String} {value : Value}
    (h : assignment.Gives names value) : names ≠ [] := by
  cases h <;> simp

theorem Assignment.Gives.of_single {assignment : Assignment} {name : String} {value : Value}
    (h : assignment.Gives [name] value) :
    assignment.target.name? = some name ∧ assignment.isPlain ∧ assignment.value = some value := by
  cases h with
  | one named last => exact ⟨named, rfl, rfl⟩
  | chained named unhinted more => exact absurd rfl more.ne_nil

theorem Value.Marks.isMarkerCall {profile : Profile} {value : Value} {viewId : Nat}
    (h : value.Marks profile viewId) : value.IsMarkerCall profile := by
  obtain ⟨function, arguments, line, hvalue, hcalled, -⟩ := h
  exact ⟨function, arguments, line, hvalue, hcalled⟩

end Grammar

namespace ScanContext
variable {context : ScanContext} {owner : Owner} {assignment : Assignment} {names : List String}
  {value : Value}

/-- The scan reads an integer literal as it stands. -/
theorem viewId_of_literal {arguments : List Argument} {viewId : Nat}
    (h : Argument.AreLiteral context.profile arguments viewId) (line : Nat) :
    context.viewId line arguments = .ok viewId := by
  cases h with
  | @positional digits text valueLine _ reads =>
    have hargument : context.argument line [.positional (.integer digits) text valueLine] =
        .ok ⟨some (.integer digits), text, valueLine⟩ := rfl
    simp only [ScanContext.viewId, hargument, Expr.literal?, reads, Bind.bind, Except.bind]
    rfl
  | @keyword digits text nameLine valueLine _ reads =>
    have hargument : context.argument line
        [.keyword context.profile.markerKeyword nameLine (.integer digits) text valueLine] =
          .ok ⟨some (.integer digits), text, valueLine⟩ := if_pos rfl
    simp only [ScanContext.viewId, hargument, Expr.literal?, reads, Bind.bind, Except.bind]
    rfl

theorem finding?_of_valueless (h : assignment.value = none) :
    context.finding? owner (.assignment assignment) = none := by
  simp [finding?, h]

theorem finding?_of_unmarked (h : assignment.Gives names value)
    (hcall : ¬value.IsMarkerCall context.profile) :
    context.finding? owner (.assignment assignment) = none := by
  cases h with
  | @one line target hint name value named last =>
    cases value with
    | single expression valueLine =>
      have hnone : markerArguments? context.profile expression = none := by
        cases expression with
        | call function arguments =>
          rw [markerArguments?_call]
          exact if_neg fun hmarker => hcall ⟨function, arguments, valueLine, rfl, hmarker⟩
        | _ => rfl
      simp [finding?, Assignment.isPlain, Assignment.value, hnone]
    | several values => simp [finding?, Assignment.isPlain, Assignment.value]
    | nested inner => exact absurd rfl (last inner)
  | chained => simp [finding?, Assignment.isPlain, Assignment.value]

theorem finding?_of_marker (owner : Owner) {name : String} {function : Expr}
    {arguments : List Argument}
    {line : Nat} (h : assignment.Gives [name] (.single (.call function arguments) line))
    (hcalled : isMarker context.profile function)
    (hsound : ∀ fault, context.finding? owner (.assignment assignment) ≠ some (.fault fault)) :
    ∃ viewId field, context.viewId line arguments = .ok viewId ∧
      context.finding? owner (.assignment assignment) = some (.field field) ∧
      field.name = name ∧ field.viewId = viewId := by
  obtain ⟨hname, hplain, hvalue⟩ := h.of_single
  simp only [finding?, hplain, hvalue, hname, markerArguments?_call, hcalled, if_true,
    Option.bind_eq_bind, Option.bind_some] at hsound ⊢
  cases hread : context.viewId line arguments with
  | error fault =>
    rw [hread] at hsound
    exact absurd rfl (hsound fault)
  | ok viewId => exact ⟨viewId, _, rfl, rfl, rfl, rfl⟩

end ScanContext

namespace Setting
variable {setting : Setting} {context : ScanContext} {owner : Owner} {body rest : List Stmt}
  {before after : Attributes} {pairs : List (String × Int)}

/-- The names are bound to the markers of the pairs, none of which the class keeps for itself. -/
structure Holds (pairs : List (String × Int)) (attributes : Attributes) : Prop where
  viewId? : ∀ name, attributes.viewId? name = Pairs.get? pairs name
  plain : ∀ name, IsUnderscored name → Pairs.get? pairs name = none

/-- What the scan takes for a field stays one in the rest of a body. -/
def Keeps (setting : Setting) (pairs : List (String × Int)) (body : List Stmt) : Prop :=
  ∀ name, (Pairs.get? pairs name).isSome → ∀ assignment names value,
    .assignment assignment ∈ body → assignment.Gives names value → name ∈ names →
      value.IsMarkerCall setting.profile

theorem Undisturbed.of_cons {statement : Stmt}
    (h : setting.Undisturbed context (statement :: rest)) : setting.Undisturbed context rest where
  spelled assignment names value hmem :=
    h.spelled assignment names value (List.mem_cons_of_mem _ hmem)
  single assignment names value hmem :=
    h.single assignment names value (List.mem_cons_of_mem _ hmem)
  kept := (List.pairwise_cons.mp h.kept).2
  read assignment names function arguments line viewId object hmem :=
    h.read assignment names function arguments line viewId object (List.mem_cons_of_mem _ hmem)
  unaliased assignment names value object hmem :=
    h.unaliased assignment names value object (List.mem_cons_of_mem _ hmem)
  unbound assignment hmem := h.unbound assignment (List.mem_cons_of_mem _ hmem)

theorem IsPlain.of_cons {statement : Stmt} (h : IsPlain (statement :: rest)) : IsPlain rest :=
  fun assignment names value hmem => h assignment names value (List.mem_cons_of_mem _ hmem)

theorem Keeps.of_cons {statement : Stmt} (h : setting.Keeps pairs (statement :: rest)) :
    setting.Keeps pairs rest :=
  fun name hname assignment names value hmem =>
    h name hname assignment names value (List.mem_cons_of_mem _ hmem)

theorem Keeps.put {assignment : Assignment} {name : String} {value : Value}
    (h : setting.Keeps pairs (.assignment assignment :: rest))
    (hundisturbed : setting.Undisturbed context (.assignment assignment :: rest))
    (hgives : assignment.Gives [name] value) (hcall : value.IsMarkerCall setting.profile)
    (viewId : Int) : setting.Keeps (Pairs.put pairs name viewId) rest := by
  intro other hother second names given hmem hgiven hin
  by_cases heq : name = other
  · subst heq
    exact (List.pairwise_cons.mp hundisturbed.kept).1 _ hmem assignment second _ names _ given rfl
      hgives hcall rfl hgiven hin
  · rw [Pairs.get?_put_of_ne heq] at hother
    exact h.of_cons other hother second names given hmem hgiven hin

theorem key_eq {name : String} (hspelled : setting.normal name = name)
    (hplain : ¬IsUnderscored name) :
    Code.key setting.normal (some setting.className) name = name := by
  rw [Code.key_of_plain (by rw [hspelled]; exact hplain), hspelled]

theorem Holds.of_spares {codes : List Code} (h : Holds pairs before)
    (hspares : setting.Spares codes before after)
    (hcodes : ∀ code ∈ codes, ∀ key,
      ¬code.Binds setting.normal (some setting.className) key) : Holds pairs after where
  viewId? name := by
    rcases hspares name with hsame | ⟨code, hcode, hbinds⟩ | ⟨hunderscored, hmarker⟩
    · rw [← h.viewId? name, Attributes.viewId?, hsame, Attributes.viewId?]
    · exact absurd hbinds (hcodes code hcode name)
    · rw [h.plain name hunderscored, Attributes.viewId?]
      cases hfound : after name with
      | none => rfl
      | some object =>
        cases object with
        | marker marker => exact absurd hfound (hmarker marker)
        | _ => rfl
  plain := h.plain

theorem Holds.store_marker {name : String} (marker : Marker) (h : Holds pairs before)
    (hspelled : setting.normal name = name) (hplain : ¬IsUnderscored name) :
    Holds (Pairs.put pairs name marker.viewId) (setting.store [name] (.marker marker) before) where
  viewId? other := by
    simp only [store, List.foldl_cons, List.foldl_nil, key_eq hspelled hplain]
    rw [Pairs.get?_put]
    by_cases hother : name = other
    · subst hother
      simp [Attributes.viewId?]
    · rw [if_neg hother, ← h.viewId? other, Attributes.viewId?,
        Function.update_of_ne (Ne.symm hother), Attributes.viewId?]
  plain other hunderscored := by
    have hother : name ≠ other := fun heq => hplain (heq ▸ hunderscored)
    rw [Pairs.get?_put_of_ne hother, h.plain other hunderscored]

theorem Holds.store_other {names : List String} {object : Attribute} (h : Holds pairs before)
    (hspelled : ∀ name ∈ names, setting.normal name = name)
    (hplain : ∀ name ∈ names, ¬IsUnderscored name)
    (hfree : ∀ name ∈ names, Pairs.get? pairs name = none)
    (hobject : ∀ marker, object ≠ .marker marker) :
    Holds pairs (setting.store names object before) := by
  induction names generalizing before with
  | nil => exact h
  | cons name more ih =>
    rw [store, List.foldl_cons, key_eq (hspelled _ List.mem_cons_self)
      (hplain _ List.mem_cons_self)]
    refine ih ⟨fun other => ?_, h.plain⟩
      (fun other hother => hspelled other (List.mem_cons_of_mem _ hother))
      (fun other hother => hplain other (List.mem_cons_of_mem _ hother))
      (fun other hother => hfree other (List.mem_cons_of_mem _ hother))
    by_cases hother : other = name
    · subst hother
      rw [hfree _ List.mem_cons_self]
      cases object with
      | marker marker => exact absurd rfl (hobject marker)
      | _ => simp [Attributes.viewId?]
    · rw [← h.viewId? other, Attributes.viewId?, Function.update_of_ne hother, Attributes.viewId?]

/-- The pairs after the fields of some statements were put under their names. -/
def noted (context : ScanContext) (owner : Owner) (pairs : List (String × Int))
    (body : List Stmt) : List (String × Int) :=
  let found := (fieldsOf (body.filterMap (context.finding? owner))).map fun field =>
    (field.name, field.viewId)
  found.foldl (fun pairs (name, viewId) => Pairs.put pairs name viewId) pairs

theorem noted_of_none {statement : Stmt} (h : context.finding? owner statement = none) :
    noted context owner pairs (statement :: rest) = noted context owner pairs rest := by
  rw [noted, List.filterMap_cons_none h, noted]

theorem noted_of_field {statement : Stmt} {field : Field}
    (h : context.finding? owner statement = some (.field field)) :
    noted context owner pairs (statement :: rest) =
      noted context owner (Pairs.put pairs field.name field.viewId) rest := by
  rw [noted, List.filterMap_cons_some h]
  rfl

/-- What a marker comes to has the view identifier that the scan reads. -/
theorem Evaluates.marker_of_read {assignment : Assignment} {name : String} {function : Expr}
    {arguments : List Argument} {line viewId : Nat} {object : Attribute}
    (h : setting.Evaluates (.single (.call function arguments) line) before object after)
    (hcontext : context.profile = setting.profile)
    (hundisturbed : setting.Undisturbed context body) (hmem : .assignment assignment ∈ body)
    (hgives : assignment.Gives [name] (.single (.call function arguments) line))
    (hcalled : isMarker setting.profile function)
    (hread : context.viewId line arguments = .ok viewId) :
    ∃ marker, object = .marker marker ∧ marker.viewId = viewId := by
  cases h with
  | @marker literal marks =>
    obtain ⟨_, _, _, hvalue, -, hliteral⟩ := marks
    cases hvalue
    rw [← hcontext] at hliteral
    have hsame := (ScanContext.viewId_of_literal hliteral line).symm.trans hread
    cases hsame
    exact ⟨_, rfl, rfl⟩
  | other _ comes =>
    exact hundisturbed.read assignment _ function arguments line viewId object hmem hgives hcalled
      hread comes

theorem Holds.of_evaluates {assignment : Assignment} {names : List String} {value : Value}
    {object : Attribute} (h : Holds pairs before)
    (hundisturbed : setting.Undisturbed context body) (hmem : .assignment assignment ∈ body)
    (hgives : assignment.Gives names value)
    (hevaluates : setting.Evaluates value before object after) : Holds pairs after := by
  cases hevaluates with
  | marker => exact h
  | other _ _ spares =>
    exact h.of_spares spares fun code hcode key =>
      (hundisturbed.unbound assignment hmem key).2 names value hgives code hcode

section Assigned
variable {assignment : Assignment} {names : List String} {value : Value} {object : Attribute}
  {evaluated : Attributes}

/-- A marker is noted under its name. -/
theorem Holds.of_marker (h : Holds pairs evaluated)
    (hcontext : context.profile = setting.profile)
    (hplain : IsPlain (.assignment assignment :: rest))
    (hundisturbed : setting.Undisturbed context (.assignment assignment :: rest))
    (hsound : ∀ fault, context.finding? owner (.assignment assignment) ≠ some (.fault fault))
    (hkeeps : setting.Keeps pairs (.assignment assignment :: rest))
    (hgives : assignment.Gives names value) (hcall : value.IsMarkerCall setting.profile)
    (hevaluates : setting.Evaluates value before object evaluated) :
    ∃ more, noted context owner pairs (.assignment assignment :: rest) =
        noted context owner more rest ∧
      Holds more (setting.store names object evaluated) ∧ setting.Keeps more rest := by
  have hmem : Stmt.assignment assignment ∈ Stmt.assignment assignment :: rest :=
    List.mem_cons_self
  obtain ⟨name, rfl⟩ := hundisturbed.single assignment names value hmem hgives hcall
  obtain ⟨function, arguments, line, rfl, hcalled⟩ := id hcall
  obtain ⟨viewId, field, hread, hfinding, hname, hviewId⟩ :=
    ScanContext.finding?_of_marker owner hgives (hcontext ▸ hcalled) hsound
  obtain ⟨marker, rfl, hmarker⟩ := hevaluates.marker_of_read hcontext hundisturbed hmem hgives
    hcalled hread
  refine ⟨Pairs.put pairs name marker.viewId, ?_, ?_, ?_⟩
  · rw [noted_of_field hfinding, hname, hviewId, ← hmarker]
  · exact h.store_marker marker
      (hundisturbed.spelled assignment _ _ hmem hgives name (List.mem_singleton_self _))
      (hplain assignment _ _ hmem hgives name (List.mem_singleton_self _))
  · exact hkeeps.put hundisturbed hgives hcall _

/-- Anything but a marker goes where no marker stands. -/
theorem Holds.of_other (h : Holds pairs evaluated)
    (hcontext : context.profile = setting.profile)
    (hplain : IsPlain (.assignment assignment :: rest))
    (hundisturbed : setting.Undisturbed context (.assignment assignment :: rest))
    (hkeeps : setting.Keeps pairs (.assignment assignment :: rest))
    (hgives : assignment.Gives names value) (hcall : ¬value.IsMarkerCall setting.profile)
    (hevaluates : setting.Evaluates value before object evaluated) :
    noted context owner pairs (.assignment assignment :: rest) = noted context owner pairs rest ∧
      Holds pairs (setting.store names object evaluated) := by
  have hmem : Stmt.assignment assignment ∈ Stmt.assignment assignment :: rest :=
    List.mem_cons_self
  have hfree : ∀ name ∈ names, Pairs.get? pairs name = none := by
    intro name hname
    by_contra hsome
    exact hcall (hkeeps name (Option.isSome_iff_ne_none.mpr hsome) assignment names value hmem
      hgives hname)
  have hobject : ∀ marker, object ≠ .marker marker := by
    cases hevaluates with
    | marker marks => exact absurd marks.isMarkerCall hcall
    | other _ comes =>
      exact hundisturbed.unaliased assignment names value object hmem hgives hcall comes
  exact ⟨noted_of_none (ScanContext.finding?_of_unmarked hgives (hcontext ▸ hcall)),
    h.store_other (hundisturbed.spelled assignment names value hmem hgives)
      (hplain assignment names value hmem hgives) hfree hobject⟩

end Assigned

/-- A body leaves the markers that the scan finds in it. -/
theorem Executes.holds (h : setting.Executes body before after) (hplain : IsPlain body)
    (hcontext : context.profile = setting.profile)
    (hundisturbed : setting.Undisturbed context body)
    (hsound : ∀ statement ∈ body, ∀ fault,
      context.finding? owner statement ≠ some (.fault fault))
    (hholds : Holds pairs before) (hkeeps : setting.Keeps pairs body) :
    Holds (noted context owner pairs body) after := by
  induction h generalizing pairs with
  | nil => exact hholds
  | @bare assignment name rest before annotated after named valueless spares more ih =>
    have hannotated := hholds.of_spares spares (by
      simpa using fun key => (hundisturbed.unbound _ List.mem_cons_self key).1)
    rw [noted_of_none (ScanContext.finding?_of_valueless valueless)]
    exact ih hplain.of_cons hundisturbed.of_cons
      (fun statement hmem => hsound statement (List.mem_cons_of_mem _ hmem)) hannotated
      hkeeps.of_cons
  | @assignment assignment names value object rest before evaluated annotated after gives
      evaluates spares more ih =>
    have hevaluated := hholds.of_evaluates hundisturbed List.mem_cons_self gives evaluates
    obtain ⟨held, hnoted, hstored, hkept⟩ : ∃ held,
        noted context owner pairs (.assignment assignment :: rest) =
          noted context owner held rest ∧
        Holds held (setting.store names object evaluated) ∧ setting.Keeps held rest := by
      by_cases hcall : value.IsMarkerCall setting.profile
      · exact hevaluated.of_marker hcontext hplain hundisturbed
          (hsound _ List.mem_cons_self) hkeeps gives hcall evaluates
      · obtain ⟨hnoted, hstored⟩ := hevaluated.of_other hcontext hplain hundisturbed hkeeps gives
          hcall evaluates
        exact ⟨pairs, hnoted, hstored, hkeeps.of_cons⟩
    have hannotated := hstored.of_spares spares (by
      simpa using fun key => (hundisturbed.unbound _ List.mem_cons_self key).1)
    rw [hnoted]
    exact ih hplain.of_cons hundisturbed.of_cons
      (fun statement hmem => hsound statement (List.mem_cons_of_mem _ hmem)) hannotated hkept

end Setting

theorem firstFault_eq_none {findings : List Finding} (h : firstFault findings = none) :
    ∀ fault, Finding.fault fault ∉ findings := by
  intro fault hmem
  rw [firstFault, List.findSome?_eq_none_iff] at h
  simpa using h _ hmem

theorem ScanContext.declared_of_sound {context : ScanContext} {isPackage : Bool}
    {statement : ClassStatement} (h : (context.declared isPackage statement).fault = none) :
    ∃ owner, (context.declared isPackage statement).fields =
        fieldsOf (statement.body.filterMap (context.finding? owner)) ∧
      ∀ inner ∈ statement.body, ∀ fault, context.finding? owner inner ≠ some (.fault fault) := by
  refine ⟨⟨context.moduleName, statement.name, isPackage⟩, ?_⟩
  unfold declared at h ⊢
  dsimp only at h ⊢
  split at h
  · simp at h
  · rename_i hnone
    refine ⟨rfl, fun inner hinner fault hfault => ?_⟩
    exact firstFault_eq_none hnone fault (List.mem_filterMap.mpr ⟨inner, hinner, hfault⟩)

/-- The markers that the scan finds in a sound class of assignments are those that the class has
once its body was run, so that its new binder is up to date. -/
theorem Setting.viewIds_eq_declared {setting : Setting} {module : Module} {moduleName : String}
    {isPackage : Bool} {statement : ClassStatement} {before after : Attributes} {type : Class}
    (hsound : ((module.scanContext moduleName setting.profile).declared isPackage
      statement).fault = none)
    (hplain : IsPlain statement.body)
    (hundisturbed : setting.Undisturbed (module.scanContext moduleName setting.profile)
      statement.body)
    (hbefore : ∀ name, before.viewId? name = none)
    (hexecutes : setting.Executes statement.body before after) (htype : type.Reflects after) :
    let declared := (module.scanContext moduleName setting.profile).declared isPackage statement
    (∀ name, Pairs.get? declared.viewIds name = Pairs.get? type.declared name) ∧
      ∀ identity, ((declared.spec setting.profile).registration setting.profile identity
        type).isCurrent type.declared := by
  intro declared
  obtain ⟨owner, hfields, hfindings⟩ := ScanContext.declared_of_sound hsound
  have hholds : Holds (noted (module.scanContext moduleName setting.profile) owner []
      statement.body) after :=
    hexecutes.holds hplain rfl hundisturbed hfindings ⟨hbefore, fun _ _ => rfl⟩
      (by simp [Keeps, Pairs.get?])
  have hnoted : declared.viewIds = noted (module.scanContext moduleName setting.profile) owner []
      statement.body := by
    rw [DeclaredClass.viewIds, hfields]
    rfl
  have hsame (name : String) :
      Pairs.get? declared.viewIds name = Pairs.get? type.declared name := by
    rw [hnoted, ← hholds.viewId?, ← htype.markers, Class.get?_declared htype.distinct]
  exact ⟨hsame, fun identity => Pairs.agree_iff.mpr hsame⟩

section

private def assigned (line : Nat) (name : String) (value : Expr) : Assignment :=
  .mk line ⟨false, [.name name], name⟩ none "=" (some (.single value line))

private def markerOn (line : Nat) (digits : String) : Expr :=
  .call (.name "bind_view") [.positional (.integer digits) digits line]

/-- Nothing but a literal `None` is known to come to something else than a marker. -/
private def bareSetting : Setting where
  normal := id
  className := "A"
  profile := .standard
  comesTo value object :=
    (∃ line, value = .single (.constant .none) line) ∧ object = .value .null

private theorem gives_assigned {line : Nat} {name : String} {expression : Expr}
    {names : List String} {value : Value} (h : (assigned line name expression).Gives names value) :
    names = [name] ∧ value = .single expression line := by
  cases h with
  | one named last => exact ⟨by simpa [Target.name?] using named.symm, rfl⟩

private theorem assigned_gives (line : Nat) (name : String) (expression : Expr) :
    (assigned line name expression).Gives [name] (.single expression line) :=
  .one rfl (by simp)

private theorem markerOn_marks (line : Nat) {digits : String} {viewId : Nat}
    (h : Text.literalValue? digits.toList = some viewId) :
    (Value.single (markerOn line digits) line).Marks .standard viewId :=
  ⟨_, _, _, rfl, rfl, .positional h⟩

private theorem none_not_markerCall (line : Nat) :
    ¬(Value.single (.constant .none) line).IsMarkerCall .standard := by
  rintro ⟨function, arguments, callLine, hvalue, -⟩
  simp at hvalue

/-- The code that runs with these assignments. -/
private def plainCodes (line : Nat) (digits : String) : List Code :=
  [.hint none, .expr (.constant .none), .expr (markerOn line digits), .expr (.name "bind_view"),
    .argument (.positional (.integer digits) digits line), .expr (.integer digits)]

private theorem plainCodes_parts (line : Nat) (digits : String) :
    ∀ code ∈ plainCodes line digits, ∀ piece ∈ code.parts, piece ∈ plainCodes line digits := by
  simp [plainCodes, markerOn, Code.parts, Expr.parts, Argument.parts]

private theorem plainCodes_not_binds (line : Nat) (digits : String) {key : String} {code : Code}
    (hcode : code ∈ plainCodes line digits) : ¬code.Binds id (some "A") key := by
  rintro ⟨piece, name, hwithin, hbinds, -⟩
  have hpiece : piece ∈ plainCodes line digits := by
    clear hbinds
    induction hwithin with
    | refl => exact hcode
    | tail _ among ih => exact plainCodes_parts line digits _ ih _ among
  cases hbinds <;> simp [plainCodes, markerOn] at hpiece

/-- A class that assigns nothing, a marker, and another marker in its place. -/
private def remarkedClass : ClassStatement where
  line := 0
  name := "A"
  body := [.assignment (assigned 1 "g" (.constant .none)),
    .assignment (assigned 2 "f" (markerOn 2 "1")), .assignment (assigned 3 "f" (markerOn 3 "2"))]

private def remarkedType : Class where
  identity := .created 0
  name := "A"
  path := "A"
  moduleName := "m"
  attributes := [("g", .value .null), ("f", .marker { viewId := 2 })]

private theorem mem_remarked {assignment : Assignment} {names : List String} {value : Value}
    (h : Stmt.assignment assignment ∈ remarkedClass.body) (hgives : assignment.Gives names value) :
    ∃ line digits, names = ["g"] ∧ value = .single (.constant .none) line ∨
      names = ["f"] ∧ value = .single (markerOn line digits) line ∧
        ∃ viewId, value.Marks .standard viewId := by
  simp only [remarkedClass, List.mem_cons, Stmt.assignment.injEq, List.not_mem_nil, or_false] at h
  rcases h with rfl | rfl | rfl
  · obtain ⟨hnames, hvalue⟩ := gives_assigned hgives
    exact ⟨1, "", .inl ⟨hnames, hvalue⟩⟩
  · obtain ⟨hnames, rfl⟩ := gives_assigned hgives
    exact ⟨2, "1", .inr ⟨hnames, rfl, 1, markerOn_marks 2 rfl⟩⟩
  · obtain ⟨hnames, rfl⟩ := gives_assigned hgives
    exact ⟨3, "2", .inr ⟨hnames, rfl, 2, markerOn_marks 3 rfl⟩⟩

private theorem remarked_undisturbed (context : ScanContext) :
    bareSetting.Undisturbed context remarkedClass.body where
  spelled _ _ _ _ _ _ _ := rfl
  single assignment names value hmem hgives _ := by
    obtain ⟨line, digits, ⟨rfl, -⟩ | ⟨rfl, -⟩⟩ := mem_remarked hmem hgives
    · exact ⟨"g", rfl⟩
    · exact ⟨"f", rfl⟩
  kept := by
    refine List.Pairwise.imp_of_mem ?_ (List.pairwise_of_forall fun _ _ => trivial)
    rintro earlier later hearlier hlater - first second name names value other rfl hfirst hcall rfl
      hsecond hin
    obtain ⟨line, -, ⟨hname, rfl⟩ | ⟨hname, -⟩⟩ := mem_remarked hearlier hfirst
    · exact absurd hcall (none_not_markerCall line)
    · obtain rfl := List.singleton_inj.mp hname
      obtain ⟨line, digits, ⟨rfl, -⟩ | ⟨-, -, viewId, hmarks⟩⟩ := mem_remarked hlater hsecond
      · simp at hin
      · exact hmarks.isMarkerCall
  read assignment names function arguments line viewId object hmem hgives _ _ hcomes := by
    obtain ⟨⟨_, hvalue⟩, -⟩ := hcomes
    simp at hvalue
  unaliased assignment names value object hmem hgives _ hcomes marker := by
    rw [hcomes.2]
    simp
  unbound assignment hmem key := by
    refine ⟨?_, fun names value hgives code hcode => ?_⟩
    · have hhint : assignment.hint = none := by
        simp only [remarkedClass, List.mem_cons, Stmt.assignment.injEq, List.not_mem_nil,
          or_false] at hmem
        rcases hmem with rfl | rfl | rfl <;> rfl
      rw [hhint]
      exact plainCodes_not_binds 0 "" (by simp [plainCodes])
    · obtain ⟨line, digits, ⟨-, rfl⟩ | ⟨-, rfl, -⟩⟩ := mem_remarked hmem hgives
      · obtain rfl := List.mem_singleton.mp hcode
        exact plainCodes_not_binds 0 "" (by simp [plainCodes])
      · obtain rfl := List.mem_singleton.mp hcode
        exact plainCodes_not_binds line digits (by simp [plainCodes])

private theorem remarked_executes : ∃ after,
    bareSetting.Executes remarkedClass.body (fun _ => none) after ∧
      remarkedType.Reflects after := by
  have hspares (codes : List Code) (attributes : Attributes) :
      bareSetting.Spares codes attributes attributes := fun _ => .inl rfl
  have hnone : ∀ viewId, ¬(Value.single (.constant .none) 1).Marks .standard viewId :=
    fun _ hmarks => none_not_markerCall 1 hmarks.isMarkerCall
  refine ⟨_, .assignment (assigned_gives 1 "g" _) (.other hnone ⟨⟨1, rfl⟩, rfl⟩ (hspares _ _))
    (hspares _ _) (.assignment (assigned_gives 2 "f" _) (.marker (markerOn_marks 2 rfl))
    (hspares _ _) (.assignment (assigned_gives 3 "f" _) (.marker (markerOn_marks 3 rfl))
    (hspares _ _) (.nil _))), by decide, fun name => ?_⟩
  have hg : Code.key id (some "A") "g" = "g" := by decide
  have hf : Code.key id (some "A") "f" = "f" := by decide
  simp only [Setting.store, List.foldl_cons, List.foldl_nil, bareSetting, hg, hf, remarkedType,
    Attributes.viewId?, Pairs.get?]
  by_cases hname : name = "f"
  · subst hname
    rfl
  · by_cases hother : name = "g" <;> simp [hname, hother, Ne.symm, Function.update]

theorem Setting.viewIds_eq_declared_remarked :
    ∃ (after : Attributes) (declared : DeclaredClass),
      bareSetting.Executes remarkedClass.body (fun _ => none) after ∧
      remarkedType.Reflects after ∧
      declared = ((⟨[]⟩ : Module).scanContext "m" .standard).declared false remarkedClass ∧
      (∀ name, Pairs.get? declared.viewIds name = Pairs.get? remarkedType.declared name) ∧
      declared.viewIds = [("f", 2)] := by
  obtain ⟨after, hexecutes, hreflects⟩ := remarked_executes
  have hplain : IsPlain remarkedClass.body := by
    intro assignment names value hmem hgives name hname
    obtain ⟨line, digits, ⟨rfl, -⟩ | ⟨rfl, -⟩⟩ := mem_remarked hmem hgives
    · obtain rfl := List.mem_singleton.mp hname
      decide
    · obtain rfl := List.mem_singleton.mp hname
      decide
  let declared := ((⟨[]⟩ : Module).scanContext "m" .standard).declared false remarkedClass
  have hsound : declared.fault = none := rfl
  have hagrees := viewIds_eq_declared hsound hplain (remarked_undisturbed _) (fun _ => rfl)
    hexecutes hreflects
  exact ⟨after, _, hexecutes, hreflects, rfl, hagrees.1, rfl⟩

/-- The text of a class that puts something else in the place of a marker. -/
def replacingText : String := "class A:\n    f = bind_view(1)\n    f = None\n"

private def replacingClass : ClassStatement where
  line := 0
  name := "A"
  body := [.assignment (assigned 1 "f" (markerOn 1 "1")),
    .assignment (assigned 2 "f" (.constant .none))]

private def replacedType : Class where
  identity := .created 0
  name := "A"
  path := "A"
  moduleName := "m"
  attributes := [("f", .value .null)]

private def isReplacing : Option Module → Bool
  | some ⟨[.declaration 0 "A" none [] [
      .assignment (.mk 1 ⟨false, [.name "f"], "f"⟩ none "=" (some (.single
        (.call (.name "bind_view") [.positional (.integer "1") "1" 1]) 1))),
      .assignment (.mk 2 ⟨false, [.name "f"], "f"⟩ none "="
        (some (.single (.constant .none) 2)))]]⟩ => true
  | _ => false

private theorem eq_of_isReplacing {found : Option Module} (h : isReplacing found) :
    found = some ⟨[.declaration 0 "A" none [] replacingClass.body]⟩ := by
  unfold isReplacing at h
  split at h
  · rfl
  · simp at h

private theorem parse?_replacing : Module.parse? replacingText.toList =
    some ⟨[.declaration 0 "A" none [] replacingClass.body]⟩ :=
  eq_of_isReplacing (by decide +kernel)

private theorem replacing_executes : ∃ after,
    bareSetting.Executes replacingClass.body (fun _ => none) after ∧
      replacedType.Reflects after := by
  have hspares (codes : List Code) (attributes : Attributes) :
      bareSetting.Spares codes attributes attributes := fun _ => .inl rfl
  have hnone : ∀ viewId, ¬(Value.single (.constant .none) 2).Marks .standard viewId :=
    fun _ hmarks => none_not_markerCall 2 hmarks.isMarkerCall
  refine ⟨_, .assignment (assigned_gives 1 "f" _) (.marker (markerOn_marks 1 rfl))
    (hspares _ _) (.assignment (assigned_gives 2 "f" _) (.other hnone ⟨⟨2, rfl⟩, rfl⟩ (hspares _ _))
    (hspares _ _) (.nil _)), by decide, fun name => ?_⟩
  have hf : Code.key id (some "A") "f" = "f" := by decide
  simp only [Setting.store, List.foldl_cons, List.foldl_nil, bareSetting, hf, replacedType,
    Attributes.viewId?, Pairs.get?]
  by_cases hname : name = "f"
  · subst hname
    rfl
  · simp [hname, Ne.symm hname]

private theorem replacing_unmarked {before after : Attributes}
    (h : bareSetting.Executes replacingClass.body before after) : after.viewId? "f" = none := by
  cases h with
  | bare _ valueless => simp [assigned, Assignment.value] at valueless
  | assignment _ _ _ more =>
    cases more with
    | bare _ valueless => simp [assigned, Assignment.value] at valueless
    | assignment gives evaluates spares last =>
      cases last
      obtain ⟨rfl, rfl⟩ := gives_assigned gives
      cases evaluates with
      | marker marks => exact absurd marks.isMarkerCall (none_not_markerCall 2)
      | other _ comes =>
        have hf : Code.key id (some "A") "f" = "f" := by decide
        obtain ⟨-, rfl⟩ := comes
        rcases spares "f" with hsame | ⟨code, hcode, hbinds⟩ | ⟨hunderscored, -⟩
        · rw [Attributes.viewId?, hsame]
          simp [Setting.store, bareSetting, hf]
        · obtain rfl := List.mem_singleton.mp hcode
          exact absurd hbinds
            (plainCodes_not_binds 0 "" (by simp [plainCodes, assigned, Assignment.hint]))
        · exact absurd hunderscored (by decide)

/-- A marker whose place is taken stays a field of the scan, and the new binder is out of date. -/
theorem Setting.viewIds_ne_declared_replaced :
    ∃ (module : Module) (statement : ClassStatement) (declared : DeclaredClass),
      Module.parse? replacingText.toList = some module ∧ module.classes = [statement] ∧
      module.scan "m" .standard false = [declared] ∧ declared.fault = none ∧
      IsPlain statement.body ∧
      (∃ (after : Attributes) (type : Class),
        bareSetting.Executes statement.body (fun _ => none) after ∧ type.Reflects after) ∧
      ∀ (after : Attributes) (type : Class),
        bareSetting.Executes statement.body (fun _ => none) after → type.Reflects after →
        Pairs.get? declared.viewIds "f" = some 1 ∧ Pairs.get? type.declared "f" = none ∧
          ∀ identity, ((declared.spec .standard).registration .standard identity
            type).isCurrent type.declared = false := by
  obtain ⟨after, hexecutes, hreflects⟩ := replacing_executes
  refine ⟨_, replacingClass, _, parse?_replacing, rfl, rfl, rfl, ?_,
    ⟨after, replacedType, hexecutes, hreflects⟩, fun after type hexecutes hreflects => ?_⟩
  · intro assignment names value hmem hgives name hname
    simp only [replacingClass, List.mem_cons, Stmt.assignment.injEq, List.not_mem_nil,
      or_false] at hmem
    rcases hmem with rfl | rfl
    all_goals
      obtain ⟨rfl, -⟩ := gives_assigned hgives
      obtain rfl := List.mem_singleton.mp hname
      decide
  · have hdeclared : Pairs.get? type.declared "f" = none := by
      rw [Class.get?_declared hreflects.distinct, hreflects.markers]
      exact replacing_unmarked hexecutes
    refine ⟨rfl, hdeclared, fun identity => ?_⟩
    refine Bool.eq_false_iff.mpr fun hcurrent => ?_
    have hsame := Pairs.agree_iff.mp hcurrent "f"
    rw [hdeclared] at hsame
    exact Option.some_ne_none (1 : Int) hsame

end

end ElementBinding
