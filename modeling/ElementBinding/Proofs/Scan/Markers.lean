import ElementBinding.Proofs.Scan

/-!
# What is a marker

A marker is an assignment of a call of the marker's name to a single name, directly in the body of a
class. It is used as documented if what is passed to the call is one argument that stands for an
integer. The scan gives every class one entry: its markers as fields, or the error of the first
one that is used otherwise.

A continued line between the brackets of a call is no argument, but the scan counts it among them.
-/
namespace ElementBinding
open ElementBinding.Naming ElementBinding.Grammar

namespace Grammar

/-- The assignments at the top level of a module that give a single name a value, in source
order. -/
def Module.rebindings (module : Module) : List Assignment :=
  module.statements.filterMap fun
    | .assignment assignment =>
      if assignment.target.name?.isSome && assignment.value.isSome then some assignment else none
    | _ => none

def rebindingsOf (rebindings : List Assignment) (name : String) : List Assignment :=
  rebindings.filter (·.target.name? = some name)

def Assignment.Assigns (assignment : Assignment) (value : Nat) : Prop :=
  assignment.isPlain ∧ ∃ digits line, assignment.value = some (.single (.integer digits) line) ∧
    Text.literalValue? digits.toList = some value

/-- An expression on some line stands for an integer: it is a literal, or a name that the module
binds once, on no later line, to a literal. -/
inductive Denotes (rebindings : List Assignment) (line : Nat) : Expr → Nat → Prop
  | literal {digits : String} {value : Nat}
      (reads : Text.literalValue? digits.toList = some value) :
      Denotes rebindings line (.integer digits) value
  | constant {name : String} {assignment : Assignment} {value : Nat}
      (once : rebindingsOf rebindings name = [assignment]) (above : assignment.line ≤ line)
      (assigns : assignment.Assigns value) : Denotes rebindings line (.name name) value

/-- Why an expression with some text stands for no integer. -/
inductive Refuses (marker : String) (rebindings : List Assignment) (line : Nat) (text : String) :
    Expr → Cause → Prop
  | integer {digits : String} (unread : Text.literalValue? digits.toList = none) :
      Refuses marker rebindings line text (.integer digits) (.notConstant marker text)
  | other {value : Expr} (noInteger : ∀ digits, value ≠ .integer digits)
      (noName : ∀ name, value ≠ .name name) :
      Refuses marker rebindings line text value (.notConstant marker text)
  | unbound {name : String} (never : rebindingsOf rebindings name = []) :
      Refuses marker rebindings line text (.name name) (.notConstant marker text)
  | later {name : String} {assignment : Assignment}
      (once : rebindingsOf rebindings name = [assignment]) (below : line < assignment.line) :
      Refuses marker rebindings line text (.name name) (.assignedLater name assignment.line)
  | noLiteral {name : String} {assignment : Assignment}
      (once : rebindingsOf rebindings name = [assignment]) (above : assignment.line ≤ line)
      (assigns : ∀ value, ¬assignment.Assigns value) :
      Refuses marker rebindings line text (.name name) (.notConstant marker text)
  | reassigned {name : String} (often : 2 ≤ (rebindingsOf rebindings name).length) :
      Refuses marker rebindings line text (.name name)
        (.reassigned name ((rebindingsOf rebindings name).map (·.line)))

/-- A continued line, which is no argument. -/
def Argument.isContinuation : Argument → Bool
  | .continuation .. => true
  | _ => false

end Grammar

/-- An assignment of a call of the marker to a single name. -/
structure MarkerUse where
  line : Nat
  name : String
  hint : Option String
  callLine : Nat
  arguments : List Argument

def MarkerUse.passed (use : MarkerUse) : List Argument :=
  use.arguments.filter (!·.isContinuation)

def isMarker (profile : Profile) : Expr → Bool
  | .name name => name = profile.markerName
  | .attribute _ name => name = profile.markerName
  | _ => false

theorem markerArguments?_call (profile : Profile) (function : Expr) (arguments : List Argument) :
    markerArguments? profile (.call function arguments) =
      if isMarker profile function then some arguments else none := by
  cases function <;> simp [markerArguments?, isMarker]

/-- The marker that a statement is. -/
def markerUse? (profile : Profile) : Stmt → Option MarkerUse
  | .assignment found =>
    match found.isPlain, found.target.name?, found.value with
    | true, some name, some (.single (.call function arguments) callLine) =>
      if isMarker profile function then
        some ⟨found.line, name, found.hint, callLine, arguments⟩
      else none
    | _, _, _ => none
  | _ => none

def ClassStatement.uses (statement : ClassStatement) (profile : Profile) : List MarkerUse :=
  statement.body.filterMap (markerUse? profile)

/-- No line is continued between the brackets of a marker of the class. -/
def ClassStatement.Unbroken (statement : ClassStatement) (profile : Profile) : Prop :=
  ∀ use ∈ statement.uses profile, ∀ argument ∈ use.arguments, ¬argument.isContinuation

structure Surroundings where
  profile : Profile
  moduleName : String
  isPackage : Bool
  rebindings : List Assignment

namespace Surroundings

/-- The arguments are as documented and stand for an integer: there is one, by position or under the
keyword of the marker. -/
inductive Accepts (around : Surroundings) : List Argument → Nat → Prop
  | positional {expression : Expr} {text : String} {line value : Nat}
      (denotes : Denotes around.rebindings line expression value) :
      Accepts around [.positional expression text line] value
  | keyword {expression : Expr} {text : String} {nameLine line value : Nat}
      (denotes : Denotes around.rebindings line expression value) :
      Accepts around [.keyword around.profile.markerKeyword nameLine expression text line] value

def faultAt (around : Surroundings) (line : Nat) (cause : Cause) : Fault :=
  ⟨cause, around.moduleName, some line⟩

/-- The error of a call on some line whose arguments are not as documented. -/
inductive Rejects (around : Surroundings) (callLine : Nat) : List Argument → Fault → Prop
  | none : Rejects around callLine []
      (around.faultAt callLine (.noArgument around.profile.markerName))
  | many {arguments : List Argument} (several : 2 ≤ arguments.length) :
      Rejects around callLine arguments
        (around.faultAt callLine (.manyArguments around.profile.markerName arguments.length))
  | unknownKeyword {name text : String} {nameLine line : Nat} {expression : Expr}
      (differs : name ≠ around.profile.markerKeyword) :
      Rejects around callLine [.keyword name nameLine expression text line]
        (around.faultAt nameLine (.unknownKeyword around.profile.markerName name))
  | unpacked {expression : Expr} {line : Nat} :
      Rejects around callLine [.unpacked expression line]
        (around.faultAt line (.unpackedArgument around.profile.markerName))
  | clause {clause : Clause} {line : Nat} : Rejects around callLine [.clause clause line]
      (around.faultAt line (.notConstant around.profile.markerName ""))
  | positional {expression : Expr} {text : String} {line : Nat} {cause : Cause}
      (refuses : Refuses around.profile.markerName around.rebindings line text expression cause) :
      Rejects around callLine [.positional expression text line] (around.faultAt line cause)
  | keyword {expression : Expr} {text : String} {nameLine line : Nat} {cause : Cause}
      (refuses : Refuses around.profile.markerName around.rebindings line text expression cause) :
      Rejects around callLine
        [.keyword around.profile.markerKeyword nameLine expression text line]
        (around.faultAt line cause)

def owner (around : Surroundings) (statement : ClassStatement) : Owner :=
  ⟨around.moduleName, statement.name, around.isPackage⟩

inductive IsField (around : Surroundings) (owner : Owner) (use : MarkerUse) : Field → Prop
  | intro {value : Nat} (accepted : around.Accepts use.passed value) :
      IsField around owner use
        ⟨owner.qualifiedName, use.name, use.hint.map TypeHint.normalize, value, use.line⟩

/-- The marker is not used as documented. -/
def Misuses (around : Surroundings) (use : MarkerUse) : Prop :=
  ∀ value, ¬around.Accepts use.passed value

/-- The entry tells what the class statement declares. -/
structure Describes (around : Surroundings) (statement : ClassStatement) (entry : DeclaredClass) :
    Prop where
  owner : entry.owner = around.owner statement
  line : entry.line = statement.line
  isFaulty : entry.fault.isSome ↔ ∃ use ∈ statement.uses around.profile, around.Misuses use
  first : ∀ before use after, statement.uses around.profile = before ++ use :: after →
    (∀ earlier ∈ before, ¬around.Misuses earlier) → around.Misuses use →
      ∃ fault, around.Rejects use.callLine use.passed fault ∧ entry.fault = some fault
  empty : entry.fault.isSome → entry.fields = []
  fields : entry.fault = none →
    List.Forall₂ (around.IsField (around.owner statement)) (statement.uses around.profile)
      entry.fields

def bindings (around : Surroundings) (name : String) : List Binding :=
  (rebindingsOf around.rebindings name).filterMap fun assignment =>
    assignment.binding?.map Prod.snd

def context (around : Surroundings) : ScanContext :=
  ⟨around.profile, around.moduleName, around.bindings⟩

variable {around : Surroundings} {arguments : List Argument} {callLine : Nat}

private theorem exists_binding {assignment : Assignment} {name : String} {value : Value}
    (hname : assignment.target.name? = some name) (hvalue : assignment.value = some value) :
    ∃ binding, assignment.binding? = some (name, binding) ∧ binding.line = assignment.line ∧
      ∀ integer, binding.value = some integer ↔ assignment.Assigns integer := by
  simp only [Assignment.binding?, hname, hvalue, Option.bind_eq_bind, Option.bind_some,
    Option.pure_def, Option.some.injEq, Prod.mk.injEq, true_and, exists_eq_left']
  intro integer
  cases value with
  | single expression line =>
    cases hplain : assignment.isPlain with
    | false => simp [Assignment.Assigns, hplain]
    | true =>
      cases expression <;> simp [Assignment.Assigns, hplain, hvalue, Expr.literal?]
  | several values => simp [Assignment.Assigns, hvalue]
  | nested inner => simp [Assignment.Assigns, hvalue]

/-- The scan sees each assignment to a name as a binding. -/
def Sees (assignment : Assignment) (binding : Binding) : Prop :=
  binding.line = assignment.line ∧
    ∀ integer, binding.value = some integer ↔ assignment.Assigns integer

private theorem sees_bindings {rebindings : List Assignment} (name : String)
    (hvalues : ∀ assignment ∈ rebindings, assignment.value.isSome) :
    List.Forall₂ Sees (rebindingsOf rebindings name)
      ((rebindingsOf rebindings name).filterMap fun assignment =>
        assignment.binding?.map Prod.snd) := by
  unfold rebindingsOf
  induction rebindings with
  | nil => exact .nil
  | cons assignment rest ih =>
    have hrest := ih fun found hfound => hvalues found (List.mem_cons_of_mem _ hfound)
    by_cases hname : assignment.target.name? = some name
    · obtain ⟨value, hvalue⟩ := Option.isSome_iff_exists.mp (hvalues _ List.mem_cons_self)
      obtain ⟨binding, hbinding, hsees⟩ := exists_binding hname hvalue
      rw [List.filter_cons_of_pos (by simp [hname]),
        List.filterMap_cons_some (b := binding) (by rw [hbinding]; rfl)]
      exact List.Forall₂.cons (R := Sees) hsees hrest
    · simpa [hname] using hrest

private theorem map_line_of_sees {rebindings : List Assignment} {bindings : List Binding}
    (h : List.Forall₂ Sees rebindings bindings) :
    bindings.map (·.line) = rebindings.map (·.line) := by
  induction h with
  | nil => rfl
  | cons hsees _ ih => rw [List.map_cons, List.map_cons, hsees.1, ih]

private theorem constant_settles (name text : String) (line : Nat)
    (hvalues : ∀ assignment ∈ around.rebindings, assignment.value.isSome) :
    (∃ value, Denotes around.rebindings line (.name name) value ∧
      around.context.constant name line = .ok (some value)) ∨
    (Refuses around.profile.markerName around.rebindings line text (.name name)
        (.notConstant around.profile.markerName text) ∧
      around.context.constant name line = .ok none) ∨
    ∃ cause, Refuses around.profile.markerName around.rebindings line text (.name name) cause ∧
      around.context.constant name line = .error (around.faultAt line cause) := by
  have hsees := sees_bindings name hvalues
  change List.Forall₂ Sees _ (around.context.bindings name) at hsees
  have hlines := map_line_of_sees hsees
  unfold ScanContext.constant
  -- The scan decides by how many bindings there are, and these are the assignments to the name.
  cases hfound : rebindingsOf around.rebindings name with
  | nil =>
    rw [hfound, List.forall₂_nil_left_iff] at hsees
    rw [hsees]
    exact .inr (.inl ⟨.unbound hfound, rfl⟩)
  | cons assignment more =>
    rw [hfound] at hsees hlines
    obtain ⟨binding, others, hassignment, hmore, hbindings⟩ := List.forall₂_cons_left_iff.mp hsees
    rw [hbindings] at hlines ⊢
    cases hmore with
    | nil =>
      by_cases hlater : line < binding.line
      · rw [hassignment.1] at hlater
        refine .inr (.inr ⟨_, .later hfound hlater, ?_⟩)
        simp only [hassignment.1, hlater, if_true]
        rfl
      · have habove : assignment.line ≤ line := by
          rw [hassignment.1] at hlater
          exact Nat.le_of_not_lt hlater
        simp only [hlater, if_false]
        cases hvalue : binding.value with
        | none =>
          have hnone (value : Nat) : ¬assignment.Assigns value := by
            rw [← hassignment.2, hvalue]
            simp
          exact .inr (.inl ⟨.noLiteral hfound habove hnone, rfl⟩)
        | some value =>
          have hassigns := (hassignment.2 value).mp hvalue
          exact .inl ⟨value, .constant hfound habove hassigns, rfl⟩
    | cons =>
      have hoften : 2 ≤ (rebindingsOf around.rebindings name).length := by simp [hfound]
      refine .inr (.inr ⟨_, .reassigned hoften, ?_⟩)
      simp only [hlines, hfound]
      rfl

private theorem viewId_of_error {context : ScanContext} {fault : Fault}
    (h : context.argument callLine arguments = .error fault) :
    context.viewId callLine arguments = .error fault := by
  simp only [ScanContext.viewId, h, Bind.bind, Except.bind]

private theorem viewId_of_argument {expression : Expr} {text : String} {line : Nat}
    (hvalues : ∀ assignment ∈ around.rebindings, assignment.value.isSome)
    (h : around.context.argument callLine arguments = .ok ⟨some expression, text, line⟩) :
    (∃ value, Denotes around.rebindings line expression value ∧
      around.context.viewId callLine arguments = .ok value) ∨
    ∃ cause, Refuses around.profile.markerName around.rebindings line text expression cause ∧
      around.context.viewId callLine arguments = .error (around.faultAt line cause) := by
  have hliteral (found : Option Nat)
      (hfound : around.context.viewId callLine arguments =
        found.elim (.error (around.faultAt line (.notConstant around.profile.markerName text))) .ok)
      (hsome : ∀ value, found = some value → Denotes around.rebindings line expression value)
      (hnone : found = none → Refuses around.profile.markerName around.rebindings line text
        expression (.notConstant around.profile.markerName text)) :
      (∃ value, Denotes around.rebindings line expression value ∧
        around.context.viewId callLine arguments = .ok value) ∨
      ∃ cause, Refuses around.profile.markerName around.rebindings line text expression cause ∧
        around.context.viewId callLine arguments = .error (around.faultAt line cause) := by
    cases found with
    | some value => exact .inl ⟨value, hsome value rfl, hfound⟩
    | none => exact .inr ⟨_, hnone rfl, hfound⟩
  cases expression with
  | name name =>
    rcases constant_settles name text line hvalues with
      ⟨value, hdenotes, hconstant⟩ | ⟨hrefuses, hconstant⟩ | ⟨cause, hrefuses, hconstant⟩
    · refine .inl ⟨value, hdenotes, ?_⟩
      simp only [ScanContext.viewId, h, hconstant, Bind.bind, Except.bind]
      rfl
    · refine .inr ⟨_, hrefuses, ?_⟩
      simp only [ScanContext.viewId, h, hconstant, Bind.bind, Except.bind]
      rfl
    · refine .inr ⟨cause, hrefuses, ?_⟩
      simp only [ScanContext.viewId, h, hconstant, Bind.bind, Except.bind]
  | integer digits =>
    refine hliteral (Text.literalValue? digits.toList) ?_ (fun value => .literal) .integer
    simp only [ScanContext.viewId, h, Bind.bind, Except.bind, Expr.literal?]
    cases Text.literalValue? digits.toList <;> rfl
  | _ =>
    refine hliteral none ?_ (by simp) fun _ => .other (by simp) (by simp)
    simp only [ScanContext.viewId, h, Bind.bind, Except.bind]
    rfl

/-- Arguments are accepted with a value or rejected with an error, and the scan gives just that. -/
private theorem viewId_settles (callLine : Nat)
    (hvalues : ∀ assignment ∈ around.rebindings, assignment.value.isSome)
    (hunbroken : ∀ argument ∈ arguments, ¬argument.isContinuation) :
    (∃ value, around.Accepts arguments value ∧
      around.context.viewId callLine arguments = .ok value) ∨
    ∃ fault, around.Rejects callLine arguments fault ∧
      around.context.viewId callLine arguments = .error fault := by
  match arguments with
  | [] => exact .inr ⟨_, .none, viewId_of_error rfl⟩
  | [.positional expression text line] =>
    have hargument : around.context.argument callLine [.positional expression text line] =
        .ok ⟨some expression, text, line⟩ := rfl
    rcases viewId_of_argument hvalues hargument with
      ⟨value, hdenotes, hvalue⟩ | ⟨cause, hrefuses, hcause⟩
    · exact .inl ⟨value, .positional hdenotes, hvalue⟩
    · exact .inr ⟨_, .positional hrefuses, hcause⟩
  | [.keyword name nameLine expression text line] =>
    by_cases hname : name = around.profile.markerKeyword
    · subst hname
      have hargument : around.context.argument callLine
          [.keyword around.profile.markerKeyword nameLine expression text line] =
            .ok ⟨some expression, text, line⟩ := if_pos rfl
      rcases viewId_of_argument hvalues hargument with
        ⟨value, hdenotes, hvalue⟩ | ⟨cause, hrefuses, hcause⟩
      · exact .inl ⟨value, .keyword hdenotes, hvalue⟩
      · exact .inr ⟨_, .keyword hrefuses, hcause⟩
    · exact .inr ⟨_, .unknownKeyword hname, viewId_of_error (if_neg hname)⟩
  | [.unpacked expression line] => exact .inr ⟨_, .unpacked, viewId_of_error rfl⟩
  | [.clause clause line] =>
    refine .inr ⟨_, .clause, ?_⟩
    simp only [ScanContext.viewId, ScanContext.argument, Bind.bind, Except.bind]
    rfl
  | [.continuation text line] => simp [Argument.isContinuation] at hunbroken
  | first :: second :: rest =>
    refine .inr ⟨_, .many (by simp), viewId_of_error ?_⟩
    simp [ScanContext.argument]
    rfl

private theorem denotes_not_refuses {marker text : String} {rebindings : List Assignment}
    {line value : Nat} {expression : Expr} {cause : Cause}
    (h : Denotes rebindings line expression value) :
    ¬Refuses marker rebindings line text expression cause := by
  intro hrefuses
  cases h with
  | literal reads =>
    cases hrefuses with
    | integer unread => simp [reads] at unread
    | other noInteger => exact noInteger _ rfl
  | constant once above assigns =>
    cases hrefuses with
    | other _ noName => exact noName _ rfl
    | unbound never => simp [once] at never
    | later again below =>
      obtain rfl := List.singleton_inj.mp (once.symm.trans again)
      omega
    | noLiteral again _ none =>
      obtain rfl := List.singleton_inj.mp (once.symm.trans again)
      exact none _ assigns
    | reassigned often => simp [once] at often

private theorem accepts_not_rejects {value : Nat} {fault : Fault}
    (h : around.Accepts arguments value) : ¬around.Rejects callLine arguments fault := by
  intro hrejects
  cases h with
  | positional denotes =>
    cases hrejects with
    | many several => simp at several
    | positional refuses => exact denotes_not_refuses denotes refuses
  | keyword denotes =>
    cases hrejects with
    | many several => simp at several
    | unknownKeyword differs => exact differs rfl
    | keyword refuses => exact denotes_not_refuses denotes refuses

private theorem accepts_unique {first second : Nat} (hfirst : around.Accepts arguments first)
    (hsecond : around.Accepts arguments second) : first = second := by
  have hdenotes {expression : Expr} {line : Nat}
      (hfirst : Denotes around.rebindings line expression first)
      (hsecond : Denotes around.rebindings line expression second) : first = second := by
    cases hfirst with
    | literal reads =>
      cases hsecond with
      | literal again => exact Option.some.inj (reads.symm.trans again)
    | constant once _ assigns =>
      cases hsecond with
      | constant again _ assigned =>
        obtain rfl := List.singleton_inj.mp (once.symm.trans again)
        obtain ⟨-, digits, line, hvalue, hreads⟩ := assigns
        obtain ⟨-, digits', line', hvalue', hreads'⟩ := assigned
        rw [hvalue, Option.some.injEq, Value.single.injEq, Expr.integer.injEq] at hvalue'
        obtain ⟨rfl, -⟩ := hvalue'
        exact Option.some.inj (hreads.symm.trans hreads')
  cases hfirst with
  | positional denotes =>
    cases hsecond with
    | positional again => exact hdenotes denotes again
  | keyword denotes =>
    cases hsecond with
    | keyword again => exact hdenotes denotes again

/-- The scan takes a value from the arguments exactly if they are accepted with it. -/
theorem viewId_eq_ok_iff (hvalues : ∀ assignment ∈ around.rebindings, assignment.value.isSome)
    {value : Nat} :
    around.context.viewId callLine arguments = .ok value ↔ around.Accepts arguments value := by
  constructor
  · intro h
    -- A continued line counts as an argument, and as the only one it has no value.
    have hunbroken : ∀ argument ∈ arguments, ¬argument.isContinuation := by
      match arguments with
      | [] => simp
      | [.positional ..] | [.keyword ..] | [.unpacked ..] | [.clause ..] =>
        simp [Argument.isContinuation]
      | [.continuation text line] =>
        simp only [ScanContext.viewId, ScanContext.argument, Bind.bind, Except.bind] at h
        cases h
      | first :: second :: rest =>
        rw [viewId_of_error (by simp [ScanContext.argument]; rfl)] at h
        cases h
    rcases viewId_settles callLine hvalues hunbroken with
      ⟨found, haccepts, hfound⟩ | ⟨fault, -, hfault⟩
    · rw [hfound] at h
      exact Except.ok.inj h ▸ haccepts
    · rw [hfault] at h
      cases h
  · intro h
    have hunbroken : ∀ argument ∈ arguments, ¬argument.isContinuation := by
      cases h <;> simp [Argument.isContinuation]
    rcases viewId_settles callLine hvalues hunbroken with
      ⟨found, haccepts, hfound⟩ | ⟨fault, hrejects, -⟩
    · rw [hfound, accepts_unique h haccepts]
    · exact absurd hrejects (accepts_not_rejects h)

private def finding (around : Surroundings) (owner : Owner) (use : MarkerUse) : Finding :=
  match around.context.viewId use.callLine use.arguments with
  | .error fault => .fault fault
  | .ok viewId =>
    .field ⟨owner.qualifiedName, use.name, use.hint.map TypeHint.normalize, viewId, use.line⟩

private theorem finding?_of_use {owner : Owner} {statement : Stmt} {use : MarkerUse}
    (h : markerUse? around.profile statement = some use) :
    around.context.finding? owner statement = some (around.finding owner use) := by
  unfold markerUse? at h
  split at h
  · split at h
    · rename_i arguments callLine hplain hname hvalue
      obtain ⟨hmarker, huse⟩ := Option.ite_none_right_eq_some.mp h
      obtain rfl := Option.some.inj huse
      have hprofile : around.context.profile = around.profile := rfl
      simp only [ScanContext.finding?, hplain, hvalue, hname, markerArguments?_call, hprofile,
        hmarker, if_true, Option.bind_eq_bind, Option.bind_some, finding]
      cases around.context.viewId callLine arguments with
      | error fault => rfl
      | ok viewId => rfl
    · simp at h
  · simp at h

private theorem finding?_of_none (owner : Owner) {statement : Stmt}
    (h : markerUse? around.profile statement = none) :
    around.context.finding? owner statement = none ∨
      ∃ line target, around.context.finding? owner statement = some (.offTarget line target) := by
  unfold ScanContext.finding?
  split
  · rename_i found
    split
    · rename_i value line hplain hvalue
      cases hmarker : markerArguments? around.context.profile value with
      | none => exact .inl rfl
      | some arguments =>
        cases hname : found.target.name? with
        | none => exact .inr ⟨found.line, found.target.text, rfl⟩
        | some name =>
          obtain ⟨function, given, rfl⟩ : ∃ function given, value = .call function given := by
            cases value <;> first | exact ⟨_, _, rfl⟩ | simp [markerArguments?] at hmarker
          rw [markerArguments?_call] at hmarker
          have hcalled := (Option.ite_none_right_eq_some.mp hmarker).1
          have hprofile : around.context.profile = around.profile := rfl
          rw [hprofile] at hcalled
          simp [markerUse?, hplain, hname, hvalue, hcalled] at h
    · exact .inl rfl
  · exact .inl rfl

private theorem firstFault_cons (finding : Finding) (rest : List Finding) :
    firstFault (finding :: rest) = match finding with
      | .fault fault => some fault
      | _ => firstFault rest := by
  cases finding <;> rfl

private theorem fieldsOf_cons (finding : Finding) (rest : List Finding) :
    fieldsOf (finding :: rest) = match finding with
      | .field field => field :: fieldsOf rest
      | _ => fieldsOf rest := by
  cases finding <;> rfl

/-- Nothing but the markers of a class decides about its entry. -/
private theorem findings_of_uses (around : Surroundings) (owner : Owner)
    (statement : ClassStatement) :
    firstFault (around.context.findings owner statement) =
        firstFault ((statement.uses around.profile).map (around.finding owner)) ∧
      fieldsOf (around.context.findings owner statement) =
        fieldsOf ((statement.uses around.profile).map (around.finding owner)) := by
  unfold ScanContext.findings ClassStatement.uses
  induction statement.body with
  | nil => exact ⟨rfl, rfl⟩
  | cons inner rest ih =>
    cases huse : markerUse? around.profile inner with
    | some use =>
      rw [List.filterMap_cons_some (finding?_of_use huse), List.filterMap_cons_some huse,
        List.map_cons, firstFault_cons, firstFault_cons, fieldsOf_cons, fieldsOf_cons, ih.1, ih.2]
      exact ⟨rfl, rfl⟩
    | none =>
      rw [List.filterMap_cons_none huse]
      rcases finding?_of_none owner huse with hnone | ⟨line, target, hoff⟩
      · rw [List.filterMap_cons_none hnone]
        exact ih
      · rw [List.filterMap_cons_some hoff, firstFault_cons, fieldsOf_cons]
        exact ih

private theorem finding_settles (owner : Owner) {use : MarkerUse}
    (hvalues : ∀ assignment ∈ around.rebindings, assignment.value.isSome)
    (hunbroken : ∀ argument ∈ use.arguments, ¬argument.isContinuation) :
    (∃ field, around.IsField owner use field ∧ around.finding owner use = .field field ∧
      ¬around.Misuses use) ∨
    ∃ fault, around.Rejects use.callLine use.passed fault ∧
      around.finding owner use = .fault fault ∧ around.Misuses use := by
  have hpassed : use.passed = use.arguments := by
    refine List.filter_eq_self.mpr fun argument hargument => ?_
    simpa using hunbroken argument hargument
  unfold finding Misuses
  rw [hpassed]
  rcases viewId_settles use.callLine hvalues hunbroken with
    ⟨value, haccepts, hvalue⟩ | ⟨fault, hrejects, hfault⟩
  · rw [hvalue]
    exact .inl ⟨_, .intro (hpassed ▸ haccepts), rfl, fun hmisuses => hmisuses value haccepts⟩
  · rw [hfault]
    exact .inr ⟨fault, hrejects, rfl, fun value haccepts => accepts_not_rejects haccepts hrejects⟩

section

variable (owner : Owner) {uses : List MarkerUse}
  (hvalues : ∀ assignment ∈ around.rebindings, assignment.value.isSome)
  (hunbroken : ∀ use ∈ uses, ∀ argument ∈ use.arguments, ¬argument.isContinuation)

include hvalues hunbroken

private theorem firstFault_first {before after : List MarkerUse} {use : MarkerUse}
    (huses : uses = before ++ use :: after) (hbefore : ∀ earlier ∈ before, ¬around.Misuses earlier)
    (hmisuses : around.Misuses use) :
    ∃ fault, around.Rejects use.callLine use.passed fault ∧
      firstFault (uses.map (around.finding owner)) = some fault := by
  induction before generalizing uses with
  | nil =>
    subst huses
    rcases finding_settles owner hvalues (hunbroken use List.mem_cons_self) with
      ⟨field, -, -, hused⟩ | ⟨fault, hrejects, hfinding, -⟩
    · exact absurd hmisuses hused
    · refine ⟨fault, hrejects, ?_⟩
      rw [List.nil_append, List.map_cons, firstFault_cons, hfinding]
  | cons earlier more ih =>
    subst huses
    have hmore := ih (fun found hfound => hunbroken found (List.mem_cons_of_mem _ hfound)) rfl
      fun found hfound => hbefore found (List.mem_cons_of_mem _ hfound)
    rcases finding_settles owner hvalues (hunbroken earlier List.mem_cons_self) with
      ⟨field, -, hfinding, -⟩ | ⟨fault, -, -, hmisused⟩
    · rw [List.cons_append, List.map_cons, firstFault_cons, hfinding]
      exact hmore
    · exact absurd hmisused (hbefore earlier List.mem_cons_self)

private theorem fields_of_used (h : ∀ use ∈ uses, ¬around.Misuses use) :
    firstFault (uses.map (around.finding owner)) = none ∧
      List.Forall₂ (around.IsField owner) uses (fieldsOf (uses.map (around.finding owner))) := by
  induction uses with
  | nil => exact ⟨rfl, .nil⟩
  | cons use rest ih =>
    have hrest := ih (fun found hfound => hunbroken found (List.mem_cons_of_mem _ hfound))
      fun found hfound => h found (List.mem_cons_of_mem _ hfound)
    rcases finding_settles owner hvalues (hunbroken use List.mem_cons_self) with
      ⟨field, hfield, hfinding, -⟩ | ⟨fault, -, -, hmisuses⟩
    · rw [List.map_cons, firstFault_cons, fieldsOf_cons, hfinding]
      exact ⟨hrest.1, .cons hfield hrest.2⟩
    · exact absurd hmisuses (h use List.mem_cons_self)

end

private theorem exists_first_misuse {uses : List MarkerUse} (h : ∃ use ∈ uses, around.Misuses use) :
    ∃ before use after, uses = before ++ use :: after ∧
      (∀ earlier ∈ before, ¬around.Misuses earlier) ∧ around.Misuses use := by
  classical
  obtain ⟨found, hfound⟩ : ∃ use, uses.find? (around.Misuses ·) = some use := by
    simpa [← Option.isSome_iff_exists] using h
  obtain ⟨hmisuses, before, after, huses, hbefore⟩ := List.find?_eq_some_iff_append.mp hfound
  exact ⟨before, found, after, huses, by simpa using hbefore, by simpa using hmisuses⟩

/-- The entry that the scan gives a class. -/
def entry (around : Surroundings) (statement : ClassStatement) : DeclaredClass :=
  around.context.declared around.isPackage statement

private theorem entry_eq (around : Surroundings) (statement : ClassStatement) :
    let owner := around.owner statement
    let findings := (statement.uses around.profile).map (around.finding owner)
    around.entry statement = match firstFault findings with
      | some fault => { owner, line := statement.line, fault := some fault }
      | none => { owner, line := statement.line, fields := fieldsOf findings } := by
  obtain ⟨hfault, hfields⟩ := findings_of_uses around (around.owner statement) statement
  dsimp only
  rw [← hfault, ← hfields]
  rfl

private theorem entry_describes {statement : ClassStatement}
    (hvalues : ∀ assignment ∈ around.rebindings, assignment.value.isSome)
    (hunbroken : statement.Unbroken around.profile) :
    around.Describes statement (around.entry statement) := by
  have hentry := entry_eq around statement
  dsimp only at hentry
  by_cases hmisused : ∃ use ∈ statement.uses around.profile, around.Misuses use
  · obtain ⟨before, use, after, huses, hbefore, hmisuses⟩ := exists_first_misuse hmisused
    obtain ⟨fault, -, hfault⟩ := firstFault_first (around.owner statement) hvalues
      hunbroken huses hbefore hmisuses
    rw [hfault] at hentry
    rw [hentry]
    refine ⟨rfl, rfl, by simp [hmisused], ?_, fun _ => rfl, by simp⟩
    intro before use after huses hbefore hmisuses
    obtain ⟨found, hrejects, hfound⟩ := firstFault_first (around.owner statement) hvalues
      hunbroken huses hbefore hmisuses
    exact ⟨found, hrejects, hfault.symm.trans hfound⟩
  · obtain ⟨hnone, hfields⟩ := fields_of_used (around.owner statement) hvalues hunbroken
      fun use huse hmisuses => hmisused ⟨use, huse, hmisuses⟩
    rw [hnone] at hentry
    rw [hentry]
    refine ⟨rfl, rfl, by simp [hmisused], ?_, by simp, fun _ => hfields⟩
    intro before use after huses _ hmisuses
    exact absurd ⟨use, by simp [huses], hmisuses⟩ hmisused

end Surroundings

/-- What the scan of a module looks at besides the class at hand. -/
def Grammar.Module.surroundings (module : Module) (moduleName : String) (profile : Profile)
    (isPackage : Bool) : Surroundings :=
  ⟨profile, moduleName, isPackage, module.rebindings⟩

theorem Grammar.Module.rebindings_value (module : Module) :
    ∀ assignment ∈ module.rebindings, assignment.value.isSome := by
  intro assignment hassignment
  obtain ⟨statement, -, hstatement⟩ := List.mem_filterMap.mp hassignment
  split at hstatement
  · obtain ⟨hboth, heq⟩ := Option.ite_none_right_eq_some.mp hstatement
    obtain rfl := Option.some.inj heq
    simp_all
  · simp at hstatement

private theorem bindings_eq (module : Module) (moduleName : String) (profile : Profile)
    (isPackage : Bool) :
    (module.surroundings moduleName profile isPackage).bindings = module.bindings := by
  funext name
  change ((module.statements.filterMap _).filter _).filterMap _ = module.statements.filterMap _
  rw [List.filterMap_filter, List.filterMap_filterMap]
  refine List.filterMap_congr fun statement _ => ?_
  cases statement with
  | assignment found =>
    cases hname : found.target.name? with
    | none => simp [Assignment.binding?, hname]
    | some bound =>
      cases hvalue : found.value with
      | none => simp [Assignment.binding?, hname, hvalue]
      | some value =>
        obtain ⟨binding, hbinding, -⟩ := Surroundings.exists_binding hname hvalue
        simp [hbinding, hname, hvalue]
  | _ => rfl

theorem Grammar.Module.surroundings_context (module : Module) (moduleName : String)
    (profile : Profile) (isPackage : Bool) :
    (module.surroundings moduleName profile isPackage).context =
      module.scanContext moduleName profile := by
  rw [Surroundings.context, bindings_eq]
  rfl

/-- The scan gives each class of a module one entry, in source order, which depends on the class and
the rebindings of the module only, and tells what the class declares. -/
theorem Grammar.Module.scan_describes (moduleName : String) (profile : Profile) (isPackage : Bool) :
    ∃ entry : List Assignment → ClassStatement → DeclaredClass, ∀ module : Module,
      module.scan moduleName profile isPackage = module.classes.map (entry module.rebindings) ∧
      ∀ statement ∈ module.classes, statement.Unbroken profile →
        (module.surroundings moduleName profile isPackage).Describes statement
          (entry module.rebindings statement) := by
  refine ⟨fun rebindings => (Surroundings.mk profile moduleName isPackage rebindings).entry,
    fun module => ⟨?_, fun statement _ hunbroken => ?_⟩⟩
  · unfold scan
    rw [← module.surroundings_context moduleName profile isPackage]
    rfl
  · exact Surroundings.entry_describes module.rebindings_value hunbroken

private def markedClass (line : Nat) (continued : List Argument) : ClassStatement where
  line := 0
  name := "A"
  body := [.assignment (.mk 1 ⟨false, [.name "f"], "f"⟩ none "=" (some (.single
    (.call (.name "bind_view") (continued ++ [.positional (.integer "1") "1" line])) 1)))]

private def moduleOf (statement : ClassStatement) : Module :=
  ⟨[.declaration statement.line statement.name none [] statement.body]⟩

private theorem markedClass_uses (line : Nat) (continued : List Argument) :
    (markedClass line continued).uses .standard =
      [⟨1, "f", none, 1, continued ++ [.positional (.integer "1") "1" line]⟩] := rfl

theorem Grammar.Module.scan_describes_sample :
    ∃ (module : Module) (statement : ClassStatement) (entry : DeclaredClass),
    statement ∈ module.classes ∧ statement.Unbroken .standard ∧
      module.scan "m" .standard false = [entry] ∧
      (module.surroundings "m" .standard false).Describes statement entry ∧
      entry.fields = [⟨"m.A", "f", none, 1, 1⟩] := by
  obtain ⟨entry, hentry⟩ := scan_describes "m" .standard false
  obtain ⟨hscan, hdescribes⟩ := hentry (moduleOf (markedClass 1 []))
  have hunbroken : (markedClass 1 []).Unbroken .standard := by
    intro use huse argument hargument
    rw [markedClass_uses, List.mem_singleton] at huse
    subst huse
    obtain rfl := List.mem_singleton.mp hargument
    simp [Argument.isContinuation]
  have hmem : markedClass 1 [] ∈ (moduleOf (markedClass 1 [])).classes := List.mem_cons_self
  refine ⟨_, _, _, hmem, hunbroken, hscan, hdescribes _ hmem hunbroken, ?_⟩
  have hfound : (moduleOf (markedClass 1 [])).scan "m" .standard false =
      [{ owner := ⟨"m", "A", false⟩, line := 0, fields := [⟨"m.A", "f", none, 1, 1⟩] }] := rfl
  have heq := List.singleton_inj.mp (hscan.symm.trans hfound)
  rw [heq]

/-- The text of a class whose marker is called with an integer literal on a continued line. -/
def continuedText : String := "class A:\n    f = bind_view(\\\n        1)\n"

private def isContinued : Option Module → Bool
  | some ⟨[.declaration 0 "A" none [] [.assignment (.mk 1 ⟨false, [.name "f"], "f"⟩ none "="
      (some (.single (.call (.name "bind_view")
        [.continuation "\\\n" 1, .positional (.integer "1") "1" 2]) 1)))]]⟩ => true
  | _ => false

private def continuedClass : ClassStatement := markedClass 2 [.continuation "\\\n" 1]

private theorem eq_of_isContinued {found : Option Module} (h : isContinued found) :
    found = some (moduleOf continuedClass) := by
  unfold isContinued at h
  split at h
  · rfl
  · simp at h

private theorem parse?_continued :
    Module.parse? continuedText.toList = some (moduleOf continuedClass) :=
  eq_of_isContinued (by decide +kernel)

/-- The only argument of a marker is an integer literal, but the scan takes the continued line
before it for another. -/
theorem Grammar.Module.scan_misreads_continued :
    ∃ (module : Module) (statement : ClassStatement) (entry : DeclaredClass),
      Module.parse? continuedText.toList = some module ∧ module.classes = [statement] ∧
      module.scan "m" .standard false = [entry] ∧
      ¬(module.surroundings "m" .standard false).Describes statement entry := by
  refine ⟨moduleOf continuedClass, continuedClass, _, parse?_continued, rfl, rfl, ?_⟩
  intro hdescribes
  obtain ⟨use, huse, hmisuses⟩ := hdescribes.isFaulty.mp rfl
  obtain rfl := List.mem_singleton.mp huse
  exact hmisuses 1 (.positional (.literal rfl))

end ElementBinding
