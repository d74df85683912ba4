import ElementBinding.Proofs.Execution.ClassBody

/-!
# What a class has of its markers

The body of a class may hold any statements besides the assignments of markers, and of these it is
only said which names they may bind. Some names the class binds on its own account. A marker that is
assigned to a name stands under the key of the name once the body has run, unless the key is bound
again.
-/
namespace ElementBinding
open ElementBinding.Grammar

namespace Setting
variable {setting : Setting} {own : String → Prop} {earlier later body : List Stmt}
  {assignment : Assignment} {name key : String} {value : Value} {object : Attribute}
  {before after : Attributes}

/-- Evaluating code leaves every name alone that the code cannot bind, but for the class's own. -/
def Leaves (setting : Setting) (own : String → Prop) (codes : List Code)
    (before after : Attributes) : Prop :=
  ∀ key, after key = before key ∨
    (∃ code ∈ codes, code.Binds setting.normal (some setting.className) key) ∨
    own key ∧ ∀ marker, after key ≠ some (.marker marker)

inductive MayYield (setting : Setting) (value : Value) : Attribute → Prop
  | marker {viewId : Nat} (marks : value.Marks setting.profile viewId) :
      MayYield setting value (.marker { viewId })
  | other {object : Attribute} (unmarked : ∀ viewId, ¬value.Marks setting.profile viewId)
      (comes : setting.comesTo value object) : MayYield setting value object

/-- A body runs to its end. Where a call of the marker is assigned to a name, the name is bound to
what the call comes to; the annotation is evaluated last. -/
inductive Runs (setting : Setting) (own : String → Prop) :
    List Stmt → Attributes → Attributes → Prop
  | nil (attributes : Attributes) : Runs setting own [] attributes attributes
  | marked {assignment : Assignment} {name : String} {value : Value} {object : Attribute}
      {rest : List Stmt} {before evaluated annotated after : Attributes}
      (gives : assignment.Gives [name] value) (called : value.IsMarkerCall setting.profile)
      (yields : setting.MayYield value object)
      (evaluates : setting.Leaves own value.parts before evaluated)
      (annotates : setting.Leaves own [.hint assignment.hint]
        (setting.store [name] object evaluated) annotated)
      (more : Runs setting own rest annotated after) :
      Runs setting own (.assignment assignment :: rest) before after
  | other {statement : Stmt} {rest : List Stmt} {before middle after : Attributes}
      (unmarked : ∀ assignment name value, statement = .assignment assignment →
        assignment.Gives [name] value → ¬value.IsMarkerCall setting.profile)
      (leaves : setting.Leaves own [.stmt statement] before middle)
      (more : Runs setting own rest middle after) :
        Runs setting own (statement :: rest) before after

/-- A marker with a literal records what it is called with. -/
theorem MayYield.eq_marker {viewId : Nat} (h : setting.MayYield value object)
    (hmarks : value.Marks setting.profile viewId) : object = .marker { viewId } := by
  cases h with
  | marker marks =>
    obtain ⟨_, _, _, rfl, -, hliteral⟩ := marks
    obtain ⟨_, _, _, hvalue, -, hliteral'⟩ := hmarks
    cases hvalue
    cases hliteral with
    | positional reads =>
      cases hliteral' with
      | positional reads' => rw [Option.some.inj (reads.symm.trans reads')]
    | keyword reads =>
      cases hliteral' with
      | keyword reads' => rw [Option.some.inj (reads.symm.trans reads')]
  | other unmarked => exact absurd hmarks (unmarked viewId)

theorem Leaves.eq {codes : List Code} (h : setting.Leaves own codes before after)
    (hcodes : ∀ code ∈ codes, ¬code.Binds setting.normal (some setting.className) key)
    (hkey : ¬own key) : after key = before key := by
  rcases h key with hsame | ⟨code, hcode, hbinds⟩ | ⟨hown, -⟩
  · exact hsame
  · exact absurd hbinds (hcodes code hcode)
  · exact absurd hown hkey

theorem Runs.eq (h : setting.Runs own body before after)
    (hbody : ∀ statement ∈ body, ¬(Code.stmt statement).Binds setting.normal
      (some setting.className) key) (hkey : ¬own key) : after key = before key := by
  induction h with
  | nil => rfl
  | @marked assignment name value object rest before evaluated annotated after gives called yields
      evaluates annotates more ih =>
    have hparts : ∀ code ∈ Code.parts (.stmt (.assignment assignment)),
        ¬code.Binds setting.normal (some setting.className) key :=
      fun code hcode hbinds => hbody _ List.mem_cons_self (.of_part hcode hbinds)
    obtain ⟨hnamed, -, hvalue⟩ := gives.of_single
    have hassigned : assignment.parts = value.parts ++ assignment.target.items.map .target ++
        [.hint assignment.hint] := by
      rw [Assignment.parts, hvalue]
    have hevaluated := evaluates.eq (fun code hcode => hparts code (by
      simp [Code.parts, Stmt.parts, hassigned, hcode])) hkey
    -- The marker is bound to another key, since its target is part of the statement.
    have hstored : setting.store [name] object evaluated key = evaluated key := by
      refine Function.update_of_ne (fun heq => hparts (.target (.name name)) ?_ ?_) _ _
      · have hitems : assignment.target.items = [.name name] := by
          unfold Target.name? at hnamed
          split at hnamed
          · rename_i hitems
            rw [hitems, Option.some.inj hnamed]
          · simp at hnamed
        simp [Code.parts, Stmt.parts, hassigned, hitems]
      · exact ⟨_, name, .refl, .target name, heq.symm⟩
    have hannotated := annotates.eq (fun code hcode => hparts code (by
      simp [Code.parts, Stmt.parts, hassigned, List.mem_singleton.mp hcode])) hkey
    rw [ih fun statement hstatement => hbody statement (List.mem_cons_of_mem _ hstatement),
      hannotated, hstored, hevaluated]
  | other unmarked leaves more ih =>
    rw [ih fun statement hstatement => hbody statement (List.mem_cons_of_mem _ hstatement)]
    exact leaves.eq (by simpa using hbody _ List.mem_cons_self) hkey

theorem Runs.of_append (h : setting.Runs own (earlier ++ later) before after) :
    ∃ middle, setting.Runs own later middle after := by
  induction earlier generalizing before with
  | nil => exact ⟨before, h⟩
  | cons statement more ih =>
    cases h with
    | marked _ _ _ _ _ rest => exact ih rest
    | other _ _ rest => exact ih rest

end Setting

/-- The scan read a field from an assignment, in front of which and behind which there are
others. -/
structure FieldSite (context : ScanContext) (body : List Stmt) (field : Field) where
  earlier : List Stmt
  assignment : Assignment
  later : List Stmt
  function : Expr
  arguments : List Argument
  line : Nat
  stands : body = earlier ++ .assignment assignment :: later
  gives : assignment.Gives [field.name] (.single (.call function arguments) line)
  marker : isMarker context.profile function
  reads : ∃ viewId : Nat, context.viewId line arguments = .ok viewId ∧ field.viewId = viewId

namespace FieldSite
variable {context : ScanContext} {body : List Stmt} {field : Field}

def value (site : FieldSite context body field) : Value :=
  .single (.call site.function site.arguments) site.line

/-- Nothing binds the key behind the assignment, and it is none of the class's own. -/
structure Keeps (site : FieldSite context body field) (normal : String → String)
    (own : String → Prop) (className key : String) : Prop where
  free : ¬own key
  hint : ¬(Code.hint site.assignment.hint).Binds normal (some className) key
  later : ∀ statement ∈ site.later, ¬(Code.stmt statement).Binds normal (some className) key

theorem holds (site : FieldSite context body field) {setting : Setting} {own : String → Prop}
    (hcontext : context.profile = setting.profile) {before after : Attributes}
    (hruns : setting.Runs own body before after) {key : String}
    (hkey : key = Code.key setting.normal (some setting.className) field.name)
    (hkeeps : site.Keeps setting.normal own setting.className key) :
    ∃ object, setting.MayYield site.value object ∧ after key = some object := by
  rw [site.stands] at hruns
  obtain ⟨middle, hruns⟩ := hruns.of_append
  have hmarked : site.value.IsMarkerCall setting.profile :=
    ⟨site.function, site.arguments, site.line, rfl, hcontext ▸ site.marker⟩
  cases hruns with
  | @marked _ name value object _ _ evaluated annotated _ gives called yields evaluates annotates
      more =>
    obtain ⟨rfl, rfl⟩ : name = field.name ∧ value = site.value := by
      obtain ⟨hname, -, hvalue⟩ := gives.of_single
      obtain ⟨hname', -, hvalue'⟩ := site.gives.of_single
      exact ⟨Option.some.inj (hname.symm.trans hname'), Option.some.inj (hvalue.symm.trans hvalue')⟩
    refine ⟨object, yields, ?_⟩
    rw [more.eq hkeeps.later hkeeps.free, annotates.eq (by simpa using hkeeps.hint) hkeeps.free,
      hkey]
    exact Function.update_self ..
  | other unmarked => exact absurd hmarked (unmarked _ _ _ rfl site.gives)

end FieldSite

/-- Whenever the body of a class has run, the class has under a key what the marker of a field came
to, unless something has bound the key after it. -/
def ClassStatement.HoldsMarker (normal : String → String) (context : ScanContext)
    (statement : ClassStatement) (field : Field) (key : String) : Prop :=
  ∃ site : FieldSite context statement.body field,
    ∀ (setting : Setting) (own : String → Prop) (before after : Attributes),
      setting.normal = normal → setting.className = statement.name →
      setting.profile = context.profile → setting.Runs own statement.body before after →
      site.Keeps normal own statement.name key →
      ∃ object, setting.MayYield site.value object ∧ after key = some object

theorem exists_fieldSite {context : ScanContext} {isPackage : Bool} {statement : ClassStatement}
    {field : Field} (h : field ∈ (context.declared isPackage statement).fields) :
    Nonempty (FieldSite context statement.body field) := by
  obtain ⟨inner, hinner, hfinding⟩ := ScanContext.finding_of_field h
  obtain ⟨⟨line, target, hint, operator, assigned⟩, function, arguments, valueLine, viewId, rfl,
    hplain, hname, hvalue, hmarker, hread, hid⟩ := ScanContext.call_of_field hfinding
  obtain ⟨earlier, later, hstands⟩ := List.append_of_mem hinner
  obtain rfl : operator = "=" := by simpa [Assignment.isPlain] using hplain
  obtain rfl : assigned = some (.single (.call function arguments) valueLine) := hvalue
  have hcalled : isMarker context.profile function := by
    rw [markerArguments?_call] at hmarker
    exact (Option.ite_none_right_eq_some.mp hmarker).1
  exact ⟨⟨earlier, _, later, function, arguments, valueLine, hstands, .one hname (by simp), hcalled,
    viewId, hread, hid⟩⟩

/-- The marker of a field is held under the name that the class knows the field by. -/
theorem holdsMarker_of_declared {context : ScanContext} {isPackage : Bool}
    {statement : ClassStatement} {field : Field}
    (h : field ∈ (context.declared isPackage statement).fields) (normal : String → String) :
    statement.HoldsMarker normal context field
      (Code.key normal (some statement.name) field.name) := by
  obtain ⟨site⟩ := exists_fieldSite h
  refine ⟨site, fun setting own before after hnormal hname hprofile hruns hkeeps => ?_⟩
  subst hnormal
  rw [← hname] at hkeeps ⊢
  exact site.holds hprofile.symm hruns rfl hkeeps

end ElementBinding
