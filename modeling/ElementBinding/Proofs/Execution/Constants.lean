import ElementBinding.Proofs.Execution.Run
import ElementBinding.Proofs.Scan

/-!
# Markers that are called with constants

The scan follows a name to the only literal that a top-level assignment binds it to. A run of the
module reads the same integer at the marker, if nothing that the scan does not look at binds the
name in between: neither the body of the class nor any statement but an assignment to one name.
-/
namespace ElementBinding
open ElementBinding.Naming ElementBinding.Grammar

namespace Grammar.Stmt

def header : Stmt → Code
  | .declaration _ _ _ bases _ => .header [] bases
  | .decorated decorators (.declaration _ _ _ bases _) => .header decorators bases
  | _ => .header [] []

def typeParameters : Stmt → Option String
  | .declaration _ _ typeParameters _ _ => typeParameters
  | .decorated _ (.declaration _ _ typeParameters _ _) => typeParameters
  | _ => none

/-- What a statement runs besides the assignment that the scan sees in it. -/
def unseen (statement : Stmt) : List Code :=
  match statement with
  | .assignment found =>
    match found.binding?, found.value with
    | some _, some value => value.parts ++ [.hint found.hint]
    | _, _ => [.stmt statement]
  | _ => [.stmt statement]

/-- A statement of the module may bind a name in a way that the scan does not see. -/
inductive BindsUnseen (normal : String → String) (name : String) : Stmt → Prop
  | piece {statement : Stmt} {piece : Code} (among : piece ∈ statement.unseen)
      (affects : piece.Affects normal none (normal name)) : BindsUnseen normal name statement
  /-- The name is spelled in another way. -/
  | spelling {found : Assignment} {other : String} {binding : Binding}
      (bound : found.binding? = some (other, binding)) (differs : other ≠ name)
      (same : normal other = normal name) : BindsUnseen normal name (.assignment found)

end Grammar.Stmt

section

variable {normal : String → String} {name : String}

private theorem unseen_of_binding? {found : Assignment} {other : String} {binding : Binding}
    (h : found.binding? = some (other, binding)) : ∃ assigned, found.value = some assigned ∧
      Stmt.unseen (.assignment found) = assigned.parts ++ [.hint found.hint] := by
  obtain ⟨-, -, assigned, hvalue⟩ := Assignment.of_binding? h
  exact ⟨assigned, hvalue, by simp [Stmt.unseen, h, hvalue]⟩

private theorem hint_mem_unseen {found : Assignment} {other : String} {binding : Binding}
    (h : found.binding? = some (other, binding)) :
    Code.hint found.hint ∈ Stmt.unseen (.assignment found) := by
  obtain ⟨assigned, -, hseen⟩ := unseen_of_binding? h
  simp [hseen]

private theorem affects_target {level : Option String} {other bound : String}
    (h : (Code.target (.name other)).Affects normal level bound) :
    Code.key normal level other = bound := by
  rcases h.of_loose (by simp) with ⟨found, hbinds, hkey⟩ | ⟨piece, hpiece, -⟩
  · cases hbinds
    exact hkey
  · simp [Code.parts, Expr.targetParts] at hpiece

private theorem not_affects_of_unseen {statement : Stmt}
    (hunseen : ¬statement.BindsUnseen normal name)
    (hname : ∀ found binding, statement = .assignment found →
      found.binding? ≠ some (name, binding)) :
    ¬(Code.stmt statement).Affects normal none (normal name) := by
  intro haffects
  have hwhole (h : statement.unseen = [.stmt statement]) : False :=
    hunseen (.piece (h ▸ List.mem_singleton.mpr rfl) haffects)
  cases statement with
  | assignment found =>
    cases hbinding : found.binding? with
    | none => exact hwhole (by simp [Stmt.unseen, hbinding])
    | some bound =>
      obtain ⟨other, binding⟩ := bound
      have hother : other ≠ name := fun heq => hname found binding rfl (heq ▸ hbinding)
      obtain ⟨assigned, hvalue, hseen⟩ := unseen_of_binding? hbinding
      have htarget := Target.items_of_name? (Assignment.of_binding? hbinding).1
      rcases haffects.of_loose (by simp) with ⟨_, hbinds, -⟩ | ⟨piece, hpiece, hpart⟩
      · cases hbinds
      · -- What is assigned and the annotation are unseen; the target is another name.
        change piece ∈ found.parts at hpiece
        simp only [Assignment.parts, hvalue, htarget, List.map_cons,
          List.map_nil, List.mem_append, List.mem_singleton] at hpiece
        rcases hpiece with (hpiece | rfl) | rfl
        · exact hunseen (.piece (by simp [hseen, hpiece]) hpart)
        · exact hunseen (.spelling hbinding hother (affects_target hpart))
        · exact hunseen (.piece (by simp [hseen]) hpart)
  | _ => exact hwhole rfl

end

/-- A call that is assigned in the body of a class at the top level of a module, and what stands
around it. -/
structure CallSite (module : Module) where
  above : List Stmt
  source : Stmt
  below : List Stmt
  statement : ClassStatement
  first : List Stmt
  assignment : Assignment
  rest : List Stmt
  function : Expr
  arguments : List Argument
  line : Nat
  stands : module.statements = above ++ source :: below
  declares : ClassStatement.of? source = some statement
  assigns : statement.body = first ++ .assignment assignment :: rest
  calls : assignment.value = some (.single (.call function arguments) line)

namespace CallSite

variable {module : Module}

theorem exists_callSite {moduleName : String} {profile : Profile} {isPackage : Bool}
    {declared : DeclaredClass} {field : Field}
    (hdeclared : declared ∈ module.scan moduleName profile isPackage)
    (hfield : field ∈ declared.fields) : ∃ site : CallSite module,
      site.statement.name = declared.owner.name ∧
      (module.scanContext moduleName profile).finding? declared.owner
        (.assignment site.assignment) = some (.field field) := by
  obtain ⟨statement, hstatement, rfl⟩ := List.mem_map.mp hdeclared
  obtain ⟨source, hsource, hdeclares⟩ := List.mem_filterMap.mp hstatement
  obtain ⟨above, below, hstands⟩ := List.append_of_mem hsource
  have howner := ScanContext.declared_owner (module.scanContext moduleName profile) isPackage
    statement
  obtain ⟨inner, hinner, hfinding⟩ := ScanContext.finding_of_field hfield
  obtain ⟨found, function, arguments, line, value, rfl, -, -, hcalls, -⟩ :=
    ScanContext.call_of_field hfinding
  obtain ⟨first, rest, hassigns⟩ := List.append_of_mem hinner
  refine ⟨⟨above, source, below, statement, first, found, rest, function, arguments, line, hstands,
    hdeclares, hassigns, hcalls⟩, ?_⟩
  rw [howner]
  exact ⟨rfl, hfinding⟩

def reached (site : CallSite module) : List Stmt := site.above ++ [site.source]

/-- Code runs to its end on the way to the call. -/
def Runs (normal : String → String) (site : CallSite module) (level : Option String) (code : Code)
    (before after : Scopes) : Prop :=
  Run normal (Code.BindsLater normal site.reached) level code before after true

/-- A run from the beginning of the module to the arguments of the call. -/
inductive Reaches (normal : String → String) (site : CallSite module) (start now : Scopes) : Prop
  | intro {reached opened entered inside : Scopes}
      (above : site.Runs normal none (.block site.above) start reached)
      (header : site.Runs normal none site.source.header reached opened)
      (enters : Scopes.Enters normal site.statement.name site.source.typeParameters
        site.statement.body opened entered)
      (first : site.Runs normal (some site.statement.name) (.block site.first) entered inside)
      (function : site.Runs normal (some site.statement.name) (.expr site.function) inside now)

/-- Nothing that the scan does not see binds a name between its assignment and the call. -/
structure Undisturbed (normal : String → String) (site : CallSite module) (name : String) :
    Prop where
  /-- The name is neither private nor one that every class has. -/
  isPlain : (normal name).toList.take 2 ≠ ['_', '_']
  later : ¬Code.BindsLater normal site.reached (normal name)
  above : ∀ earlier assignment between,
    site.above = earlier ++ .assignment assignment :: between →
    assignment.target.name? = some name →
    ∀ statement ∈ Stmt.assignment assignment :: between, ¬statement.BindsUnseen normal name
  header : ¬site.source.header.Affects normal none (normal name)
  parameters : ∀ text other, site.source.typeParameters = some text → Code.Occurs other text →
    Code.key normal (some site.statement.name) other ≠ normal name
  first : ¬(Code.block site.first).Affects normal (some site.statement.name) (normal name)
  function : ¬(Code.expr site.function).Affects normal (some site.statement.name) (normal name)

variable {normal : String → String} {site : CallSite module} {name : String}

section

variable {moduleName text : String} {profile : Profile} {owner : Owner} {nameLine : Nat}
  {field : Field}

private theorem viewId_of_field {context : ScanContext}
    (h : context.finding? owner (.assignment site.assignment) = some (.field field)) :
    ∃ value : Nat, context.viewId site.line site.arguments = .ok value ∧ field.viewId = value := by
  obtain ⟨found, function, arguments, line, value, hfound, -, -, hcalls, -, hvalue, hfield⟩ :=
    ScanContext.call_of_field h
  obtain rfl := Stmt.assignment.inj hfound
  rw [site.calls, Option.some.injEq, Value.single.injEq, Expr.call.injEq] at hcalls
  obtain ⟨⟨-, rfl⟩, rfl⟩ := hcalls
  exact ⟨value, hvalue, hfield⟩

private theorem constant_of_viewId {context : ScanContext} {line value : Nat}
    {arguments : List Argument} (h : context.viewId line arguments = .ok value)
    (hargument : context.argument line arguments = .ok ⟨some (.name name), text, nameLine⟩) :
    context.constant name nameLine = .ok (some value) := by
  simp only [ScanContext.viewId, hargument, Bind.bind, Except.bind] at h
  cases hconstant : context.constant name nameLine with
  | error fault => simp [hconstant] at h
  | ok found =>
    cases found with
    | none => simp [hconstant, throw, throwThe, MonadExceptOf.throw] at h
    | some literal =>
      simp only [hconstant, pure, Except.pure, Except.ok.injEq] at h
      rw [h]

private theorem binding_of_constant {context : ScanContext} {value : Nat}
    (h : context.constant name nameLine = .ok (some value)) :
    ∃ binding, context.bindings name = [binding] ∧ binding.value = some value ∧
      ¬nameLine < binding.line := by
  unfold ScanContext.constant at h
  split at h
  · simp at h
  · rename_i binding hbinding
    split at h
    · simp at h
    · exact ⟨binding, hbinding, Except.ok.inj h, ‹_›⟩
  · simp at h

private theorem exists_assignment {binding : Binding} (h : module.bindings name = [binding]) :
    ∃ earlier constant later, module.statements = earlier ++ .assignment constant :: later ∧
      constant.binding? = some (name, binding) ∧
      ∀ found other, .assignment found ∈ later → found.binding? ≠ some (name, other) := by
  unfold Module.bindings at h
  obtain ⟨earlier, statement, later, hstatements, -, hstatement, hlater⟩ :=
    List.filterMap_eq_cons_iff.mp h
  cases statement with
  | assignment constant =>
    refine ⟨earlier, constant, later, hstatements, ?_, ?_⟩
    · simp only [Option.bind_eq_bind, Option.bind_eq_some_iff, Prod.exists] at hstatement
      obtain ⟨bound, found, hfound, hbound⟩ := hstatement
      split at hbound
      · rename_i heq
        rw [hfound, heq, Option.some.inj hbound]
      · simp at hbound
    · intro found other hmem hother
      have hnone := List.filterMap_eq_nil_iff.mp hlater _ hmem
      simp [hother] at hnone
  | _ => simp at hstatement

/-- A field whose marker is called with a name has the value that an assignment above the class
binds the name to, and no assignment below that one binds the name. -/
private theorem exists_literal
    (hargument : (module.scanContext moduleName profile).argument site.line site.arguments =
      .ok ⟨some (.name name), text, nameLine⟩)
    (hfield : (module.scanContext moduleName profile).finding? owner (.assignment site.assignment) =
      some (.field field))
    (hbelow : ∀ found, .assignment found ∈ site.below → nameLine < found.line) :
    ∃ (earlier between : List Stmt) (constant : Assignment) (value : Nat),
      site.above = earlier ++ .assignment constant :: between ∧
      constant.literal? = some (name, value) ∧ field.viewId = value ∧
      ∀ found binding, .assignment found ∈ between → found.binding? ≠ some (name, binding) := by
  obtain ⟨value, hviewId, hfieldId⟩ := viewId_of_field hfield
  have hconstant := constant_of_viewId hviewId hargument
  obtain ⟨binding, hbindings, hvalue, hline⟩ := binding_of_constant hconstant
  obtain ⟨earlier, constant, later, hstatements, hbinding, hlater⟩ := exists_assignment hbindings
  have hliteral := Assignment.literal?_eq_some_iff.mpr ⟨binding, hbinding, hvalue⟩
  have hsource : site.source ≠ .assignment constant := by
    intro heq
    have hdeclares := site.declares
    simp [heq, ClassStatement.of?] at hdeclares
  rw [site.stands] at hstatements
  -- The assignment is above the class: one below would begin below the marker's argument.
  rcases List.append_eq_append_iff.mp hstatements with
    ⟨more, -, hrest⟩ | ⟨more, habove, hrest⟩
  · cases more with
    | nil => exact absurd (List.cons.inj hrest).1 hsource
    | cons _ more =>
      have hmem : Stmt.assignment constant ∈ site.below := by simp [(List.cons.inj hrest).2]
      have hafter := hbelow constant hmem
      rw [← (Assignment.of_binding? hbinding).2.1] at hafter
      exact absurd hafter hline
  · cases more with
    | nil => exact absurd (List.cons.inj hrest).1.symm hsource
    | cons statement between =>
      obtain ⟨rfl, rfl⟩ := List.cons.inj hrest
      exact ⟨earlier, between, constant, value, habove, hliteral, hfieldId,
        fun found other hmem => hlater found other (List.mem_append_left _ hmem)⟩

private theorem not_affects_of_forall {statements : List Stmt}
    (hunseen : ∀ statement ∈ statements, ¬statement.BindsUnseen normal name)
    (hname : ∀ found binding, .assignment found ∈ statements →
      found.binding? ≠ some (name, binding)) :
    ¬(Code.block statements).Affects normal none (normal name) := by
  intro haffects
  rcases haffects.of_loose (by simp) with ⟨_, hbinds, -⟩ | ⟨piece, hpiece, hpart⟩
  · cases hbinds
  · obtain ⟨statement, hmem, rfl⟩ := List.mem_map.mp hpiece
    refine not_affects_of_unseen (hunseen statement hmem) ?_ hpart
    rintro found binding rfl
    exact hname found binding hmem

/-- Above the class, a literal stays what the module binds the name to. -/
private theorem module_of_run {later : String → Prop} {earlier between : List Stmt}
    {constant : Assignment} {value : Nat} {start reached : Scopes}
    (hrun : Run normal later none (.block (earlier ++ .assignment constant :: between)) start
      reached true)
    (hstart : ¬start.isOwn (normal name)) (hlater : ¬later (normal name))
    (hliteral : constant.literal? = some (name, value))
    (hhint : ¬(Code.hint constant.hint).Affects normal none (normal name))
    (hbetween : ¬(Code.block between).Affects normal none (normal name)) :
    reached.module (normal name) = some (.integer value) := by
  obtain ⟨before, hearlier, hrest⟩ := hrun.of_append
  obtain ⟨assigned, hassignment, hmore⟩ := hrest.of_cons
  obtain ⟨stored, hstored, hannotated⟩ := hassignment.of_literal hliteral
  have hbefore : ¬before.isOwn (normal name) := by
    rw [(hearlier.frame hlater).isOwn]
    exact hstart
  have hvalue : stored.module (normal name) = some (.integer value) := hstored.module_self hbefore
  calc reached.module (normal name)
      = assigned.module (normal name) := (hmore.frame hlater).module_eq hbetween
    _ = stored.module (normal name) := (hannotated.frame hlater).module_eq hhint
    _ = some (.integer value) := hvalue

/-- A marker that is called with a name stands for the integer that the name is bound to when the
call is reached, whatever the names of the module are bound to at its start. -/
theorem reads_viewId (builtins : Namespace) (now : Scopes)
    (hargument : (module.scanContext moduleName profile).argument site.line site.arguments =
      .ok ⟨some (.name name), text, nameLine⟩)
    (hfield : (module.scanContext moduleName profile).finding? owner (.assignment site.assignment) =
      some (.field field))
    (hbelow : ∀ found, .assignment found ∈ site.below → nameLine < found.line)
    (hundisturbed : site.Undisturbed normal name)
    (hreaches : site.Reaches normal { module := builtins } now) (object : Object) :
    now.Reads (Code.key normal (some site.statement.name) name) object ↔
      object = .integer field.viewId := by
  obtain ⟨earlier, between, constant, value, habove, hliteral, hvalue, hname⟩ :=
    exists_literal hargument hfield hbelow
  obtain ⟨binding, hbinding, -⟩ := Assignment.literal?_eq_some_iff.mp hliteral
  have hunseen := hundisturbed.above earlier constant between habove
    (Assignment.of_binding? hbinding).1
  have hbetween : ¬(Code.block between).Affects normal none (normal name) :=
    not_affects_of_forall (fun statement hmem => hunseen statement (.tail _ hmem)) hname
  have hhint : ¬(Code.hint constant.hint).Affects normal none (normal name) := by
    intro haffects
    exact hunseen _ List.mem_cons_self (.piece (hint_mem_unseen hbinding) haffects)
  have hlater := hundisturbed.later
  cases hreaches with
  | @intro reached opened entered inside above header enters first function =>
    rw [habove] at above
    have hreached := module_of_run above (by simp) hlater hliteral hhint hbetween
    have hopened := (header.frame hlater).module_eq hundisturbed.header
    have hinside := (first.frame hlater).module_eq hundisturbed.first
    have hnow := (function.frame hlater).module_eq hundisturbed.function
    have hmodule : now.module (normal name) = some (.integer field.viewId) := by
      rw [hnow, hinside, enters.module, hopened, hreached, hvalue]
    have hentered : entered.own (normal name) = none := by
      by_contra hsome
      rcases enters.own _ hsome with hreserved | ⟨parameters, other, htext, hoccurs, hkey⟩
      · exact hundisturbed.isPlain hreserved
      · exact hundisturbed.parameters parameters other htext hoccurs hkey
    have hown : now.own (normal name) = none := by
      rw [(function.frame hlater).own_eq hundisturbed.function,
        (first.frame hlater).own_eq hundisturbed.first, hentered]
    rw [Code.key_of_plain hundisturbed.isPlain]
    exact Scopes.reads_iff hown hmodule object

end

def literalAt (line : Nat) (name digits : String) : Assignment :=
  .mk line ⟨false, [.name name], name⟩ none "=" (some (.single (.integer digits) line))

/-- The assignment of a marker that is called with the constant `N`. -/
def sampleField : Assignment :=
  .mk 3 ⟨false, [.name "f"], "f"⟩ none "="
    (some (.single (.call (.name "bind_view") [.positional (.name "N") "N" 3]) 3))

/-- The constant `N` is one, and a class assigns two to a name before it calls the marker. -/
def sampleModule (inner : String) : Module :=
  ⟨[.assignment (literalAt 0 "N" "1"),
    .declaration 1 "A" none [] [.assignment (literalAt 2 inner "2"), .assignment sampleField]]⟩

def sample (inner : String) : CallSite (sampleModule inner) where
  above := [.assignment (literalAt 0 "N" "1")]
  source := .declaration 1 "A" none []
    [.assignment (literalAt 2 inner "2"), .assignment sampleField]
  below := []
  statement := ⟨1, "A", [.assignment (literalAt 2 inner "2"), .assignment sampleField]⟩
  first := [.assignment (literalAt 2 inner "2")]
  assignment := sampleField
  rest := []
  function := .name "bind_view"
  arguments := [.positional (.name "N") "N" 3]
  line := 3
  stands := rfl
  declares := rfl
  assigns := rfl
  calls := rfl

variable {inner : String} {normal : String → String}

/-- What runs when the module runs. -/
private def sampleCodes (inner : String) : List (Option String × Code) :=
  [(none, .block (sampleModule inner).statements),
    (none, .stmt (.assignment (literalAt 0 "N" "1"))),
    (none, .expr (.integer "1")), (none, .target (.name "N")), (none, .hint none),
    (none, .stmt (sample inner).source), (none, .header [] []),
    (some "A", .block (sample inner).statement.body),
    (some "A", .stmt (.assignment (literalAt 2 inner "2"))),
    (some "A", .expr (.integer "2")), (some "A", .target (.name inner)), (some "A", .hint none),
    (some "A", .stmt (.assignment sampleField)),
    (some "A", .expr (.call (.name "bind_view") [.positional (.name "N") "N" 3])),
    (some "A", .expr (.name "bind_view")),
    (some "A", .argument (.positional (.name "N") "N" 3)), (some "A", .expr (.name "N")),
    (some "A", .target (.name "f"))]

private theorem eq_of_declaration {level typeParameters : Option String} {line : Nat}
    {name : String} {bases : List Argument} {body : List Stmt}
    (h : (level, .stmt (.declaration line name typeParameters bases body)) ∈ sampleCodes inner) :
    name = "A" ∧ body = (sample inner).statement.body := by
  simp_all [sampleCodes, sample]

private theorem sampleCodes_parts :
    ∀ outer ∈ sampleCodes inner, ∀ piece ∈ outer.2.parts, (outer.1, piece) ∈ sampleCodes inner := by
  simp [sampleCodes, sampleModule, sample, sampleField, literalAt, Code.parts, Stmt.parts,
    Assignment.parts, Assignment.target, Assignment.value, Assignment.hint, Value.parts, Expr.parts,
    Expr.targetParts, Argument.parts]

private theorem sampleCodes_closed {functions : Bool} {outer piece : Option String × Code}
    (houter : outer ∈ sampleCodes inner) (h : Code.Encloses functions outer piece) :
    piece ∈ sampleCodes inner := by
  cases h with
  | part among => exact sampleCodes_parts _ houter _ among
  | classBody line name typeParameters bases body =>
    obtain ⟨rfl, rfl⟩ := eq_of_declaration houter
    simp [sampleCodes]
  | functionBody => simp [sampleCodes, sample] at houter

private theorem mem_sampleCodes {functions : Bool} {outer piece : Option String × Code}
    (houter : outer ∈ sampleCodes inner) (h : Code.Contains functions outer piece) :
    piece ∈ sampleCodes inner := by
  induction h with
  | refl => exact houter
  | tail _ hencloses ih => exact sampleCodes_closed ih hencloses

private theorem sample_later (normal : String → String) (bound : String) :
    ¬Code.BindsLater normal (sample inner).reached bound := by
  have hmodule : (none, Code.block (sample inner).reached) ∈ sampleCodes inner :=
    List.mem_cons_self
  rintro (⟨level, isAsync, function, parameters, hint, body, outer, names, hfunction, -⟩ |
    ⟨level, name, value, hnamed, -⟩)
  · have hmem := mem_sampleCodes hmodule hfunction
    simp [sampleCodes, sample] at hmem
  · have hmem := mem_sampleCodes hmodule hnamed
    simp [sampleCodes] at hmem

private theorem sample_shares (normal : String → String) (bound : String) :
    ¬Code.Shares normal "A" (sample inner).statement.body bound := by
  rintro ⟨names, hwithin, -⟩
  have hbody : (some "A", Code.block (sample inner).statement.body) ∈ sampleCodes inner := by
    simp [sampleCodes]
  have hmem := mem_sampleCodes hbody (hwithin.contains : Code.Contains false _ _)
  simp [sampleCodes, sample] at hmem

theorem sample_reaches (builtins : Namespace) :
    ∃ now, (sample inner).Reaches id { module := builtins } now := by
  let reached : Scopes := { module := Function.update builtins "N" (some (.integer 1)) }
  let entered : Scopes :=
    { reached with isOwn := fun key => ¬Code.Shares id "A" (sample inner).statement.body key }
  have habove : (sample inner).Runs id none (.block (sample inner).above) { module := builtins }
      reached :=
    .next (.literal rfl (.module (fun h => h)) (.ends rfl reached true)) (.empty reached)
  have henters : Scopes.Enters id "A" none (sample inner).statement.body reached entered :=
    ⟨rfl, rfl, fun key hsome => absurd rfl hsome⟩
  have hstored : entered.Stores (Code.key id (some "A") inner) (some (.integer 2)) _ :=
    .own (sample_shares id _)
  exact ⟨_, .intro habove (.ends rfl reached true) henters
    (.next (.literal rfl hstored (.ends rfl _ true)) (.empty _)) (.ends rfl _ true)⟩

private theorem not_affects_of_leaf {level : Option String} {code : Code} {bound : String}
    (hparts : code.parts = []) (hbinds : ∀ name, ¬code.MayBind name) :
    ¬code.Affects normal level bound := by
  intro haffects
  rcases haffects.of_loose (by rintro _ _ _ _ _ rfl; simp [Code.parts, Stmt.parts] at hparts) with
    ⟨name, hname, -⟩ | ⟨piece, hpiece, -⟩
  · exact hbinds name hname
  · simp [hparts] at hpiece

private theorem not_affects_hint {level : Option String} {bound : String} :
    ¬(Code.hint none).Affects normal level bound :=
  not_affects_of_leaf rfl fun _ hbinds => by cases hbinds

private theorem sample_unseen :
    ¬(Stmt.assignment (literalAt 0 "N" "1")).BindsUnseen normal "N" := by
  intro hunseen
  cases hunseen with
  | piece among affects =>
    have hpieces : Stmt.unseen (.assignment (literalAt 0 "N" "1")) =
        [.expr (.integer "1"), .hint none] := rfl
    simp only [hpieces, List.mem_cons, List.not_mem_nil, or_false] at among
    rcases among with rfl | rfl
    · exact not_affects_of_leaf rfl (fun _ hbinds => by cases hbinds) affects
    · exact not_affects_hint affects
  | spelling bound differs =>
    have hname := (Assignment.of_binding? bound).1
    exact differs (Option.some.inj hname).symm

private theorem sample_not_affects {code : Code} (hcode : (some "A", code) ∈ sampleCodes "K") :
    ¬code.Affects id (some "A") "N" := by
  rintro (⟨piece, name, hwithin, hbinds, hkey⟩ |
    ⟨outer, line, name, typeParameters, bases, body, hcontains, hshares, -⟩)
  · have hmem := mem_sampleCodes hcode (hwithin.contains : Code.Contains false _ _)
    cases hbinds with
    | target name =>
      obtain rfl | rfl : name = "K" ∨ name = "f" := by simpa [sampleCodes] using hmem
      · exact absurd hkey (by decide)
      · exact absurd hkey (by decide)
    | _ => simp [sampleCodes, sample] at hmem
  · have hmem := mem_sampleCodes hcode hcontains
    obtain ⟨rfl, rfl⟩ := eq_of_declaration hmem
    exact sample_shares id "N" hshares

private theorem sample_undisturbed : (sample "K").Undisturbed id "N" where
  isPlain := by decide
  later := sample_later id "N"
  parameters := by simp [sample, Stmt.typeParameters]
  above := by
    intro earlier found between habove _ statement hmem
    have hin : statement ∈ (sample "K").above := habove ▸ List.mem_append_right _ hmem
    obtain rfl := List.mem_singleton.mp hin
    exact sample_unseen
  header := not_affects_of_leaf rfl nofun
  function := sample_not_affects (by simp [sampleCodes, sample])
  first := by
    intro haffects
    rcases haffects.of_loose (by simp) with ⟨_, hbinds, -⟩ | ⟨piece, hpiece, hpart⟩
    · cases hbinds
    · obtain rfl := List.mem_singleton.mp hpiece
      exact sample_not_affects (by simp [sampleCodes]) hpart

theorem reads_viewId_sample : ∃ now field,
    ((sampleModule "K").scanContext "m" .standard).finding? ⟨"m", "A", false⟩
      (.assignment (sample "K").assignment) = some (.field field) ∧ (sample "K").Reaches id {} now ∧
    ∀ object, now.Reads (Code.key id (some "A") "N") object ↔ object = .integer field.viewId := by
  obtain ⟨now, hreaches⟩ : ∃ now, (sample "K").Reaches id {} now := sample_reaches _
  have hfield : ((sampleModule "K").scanContext "m" .standard).finding? ⟨"m", "A", false⟩
      (.assignment sampleField) = some (.field ⟨"m.A", "f", none, 1, 3⟩) := rfl
  refine ⟨now, _, hfield, hreaches, fun object => ?_⟩
  exact reads_viewId _ now rfl hfield (by simp [sample]) sample_undisturbed hreaches object

/-- The text of the module in which the class assigns to the constant's own name. -/
def shadowingText : String := "N = 1\nclass A:\n    N = 2\n    f = bind_view(N)\n"

private def isShadowing : Option Module → Bool
  | some ⟨[.assignment (.mk 0 ⟨false, [.name "N"], "N"⟩ none "=" (some (.single (.integer "1") 0))),
      .declaration 1 "A" none [] [
        .assignment (.mk 2 ⟨false, [.name "N"], "N"⟩ none "=" (some (.single (.integer "2") 2))),
        .assignment (.mk 3 ⟨false, [.name "f"], "f"⟩ none "="
          (some (.single (.call (.name "bind_view") [.positional (.name "N") "N" 3]) 3)))]]⟩ => true
  | _ => false

private theorem eq_of_isShadowing {found : Option Module} (h : isShadowing found) :
    found = some (sampleModule "N") := by
  unfold isShadowing at h
  split at h
  · rfl
  · simp at h

theorem parse?_shadowing : Module.parse? shadowingText.toList = some (sampleModule "N") :=
  eq_of_isShadowing (by decide +kernel)

private theorem shadowed_reads {start now : Scopes} (h : (sample "N").Reaches id start now)
    (object : Object) : now.Reads "N" object ↔ object = .integer 2 := by
  have hlater : ¬Code.BindsLater id (sample "N").reached "N" := sample_later id "N"
  cases h with
  | @intro reached opened entered inside above header enters first function =>
    obtain ⟨assigned, hassignment, hrest⟩ := Run.of_cons first
    obtain ⟨stored, hstored, hannotated⟩ := hassignment.of_literal rfl
    rw [Code.key_of_plain (by decide)] at hstored
    have hentered : entered.isOwn "N" := by
      rw [enters.isOwn]
      exact sample_shares id "N"
    have hannotation := hannotated.frame hlater
    have hempty := hrest.frame hlater
    have hfunction := function.frame hlater
    have hbelongs : now.isOwn "N" := by
      rw [hfunction.isOwn, hempty.isOwn, hannotation.isOwn, hstored.isOwn]
      exact hentered
    have hown : now.own "N" = some (.integer 2) := by
      rw [hfunction.own_eq (not_affects_of_leaf rfl fun _ hbinds => by cases hbinds),
        hempty.own_eq (not_affects_of_leaf rfl fun _ hbinds => by cases hbinds),
        hannotation.own_eq not_affects_hint]
      exact hstored.own_self hentered
    exact Scopes.reads_own_iff hbelongs hown object

/-- The scan follows a name past the body of the class to the module, while every run reads what the
body assigns to the name. -/
theorem misreads_shadowed : ∃ now field,
    Module.parse? shadowingText.toList = some (sampleModule "N") ∧
    ((sampleModule "N").scanContext "m" .standard).finding? ⟨"m", "A", false⟩
      (.assignment (sample "N").assignment) = some (.field field) ∧
    field.viewId = 1 ∧ (sample "N").Reaches id {} now ∧
    (∀ now, (sample "N").Reaches id {} now → ∀ object,
      now.Reads (Code.key id (some "A") "N") object ↔ object = .integer 2) := by
  obtain ⟨now, hreaches⟩ : ∃ now, (sample "N").Reaches id {} now := sample_reaches _
  have hfield : ((sampleModule "N").scanContext "m" .standard).finding? ⟨"m", "A", false⟩
      (.assignment sampleField) = some (.field ⟨"m.A", "f", none, 1, 3⟩) := rfl
  exact ⟨now, _, parse?_shadowing, hfield, rfl, hreaches, fun now => shadowed_reads⟩

end CallSite

end ElementBinding
