import ElementBinding.Proofs.Execution.Code

/-!
# Runs of code

A module keeps what its names are bound to, and so does the body of a class while it runs. Blocks
run from top to bottom, the body of a class in names of its own, and an integer literal that is
assigned to a name is what the name is bound to. Of all other code it is only said which of its
parts may run and which names it may bind, in any order and any number of times, so whatever the
code does is among its runs. Names are reached by name only, not through objects that hold them.

What a run leaves of a name that it cannot affect is what was there before.
-/
namespace ElementBinding.Grammar

inductive Object where
  | integer (value : Int)
  | other
deriving DecidableEq

abbrev Namespace := String → Option Object

structure Scopes where
  module : Namespace := fun _ => none
  /-- The names of the class whose body is running. -/
  own : Namespace := fun _ => none
  /-- The keys that are bound in the class rather than in the module. -/
  isOwn : String → Prop := fun _ => False

namespace Scopes

/-- Binds a key in the scope it belongs to, or unbinds it. -/
inductive Stores (scopes : Scopes) (key : String) (object : Option Object) : Scopes → Prop
  | own (belongs : scopes.isOwn key) :
      Stores scopes key object { scopes with own := Function.update scopes.own key object }
  | module (belongs : ¬scopes.isOwn key) :
      Stores scopes key object { scopes with module := Function.update scopes.module key object }

/-- A key is looked up in the class first, unless it does not belong there, and then in the
module. -/
inductive Reads (scopes : Scopes) (key : String) (object : Object) : Prop
  | own (belongs : scopes.isOwn key) (found : scopes.own key = some object)
  | module (passed : scopes.isOwn key → scopes.own key = none)
      (found : scopes.module key = some object)

/-- The body of a class starts with the names that every class has, which begin with two
underscores, and sees the names in the parameters of the class. -/
structure Enters (normal : String → String) (className : String) (typeParameters : Option String)
    (body : List Stmt) (before after : Scopes) : Prop where
  module : after.module = before.module
  isOwn : after.isOwn = fun key => ¬Code.Shares normal className body key
  own : ∀ key, after.own key ≠ none → key.toList.take 2 = ['_', '_'] ∨
    ∃ text name, typeParameters = some text ∧ Code.Occurs name text ∧
      Code.key normal (some className) name = key

end Scopes

def Assignment.literal? (assignment : Assignment) : Option (String × Nat) := do
  let (name, binding) ← assignment.binding?
  return (name, ← binding.value)

/-- Code of which it is not said in which order its parts run. -/
def Code.isLoose : Code → Bool
  | .block _ => false
  | .stmt (.assignment found) => found.literal?.isNone
  | .stmt (.declaration ..) => false
  | _ => true

/-- A run of a piece of code: the scopes before and after it, and whether the code after it is
reached. Any run of loose code may bind a key that belongs to functions. -/
inductive Run (normal : String → String) (later : String → Prop) :
    Option String → Code → Scopes → Scopes → Bool → Prop
  | empty {level : Option String} (scopes : Scopes) :
      Run normal later level (.block []) scopes scopes true
  | next {level : Option String} {statement : Stmt} {rest : List Stmt}
      {before middle after : Scopes} {done : Bool}
      (first : Run normal later level (.stmt statement) before middle true)
      (more : Run normal later level (.block rest) middle after done) :
      Run normal later level (.block (statement :: rest)) before after done
  | stop {level : Option String} {statement : Stmt} {rest : List Stmt} {before after : Scopes}
      (first : Run normal later level (.stmt statement) before after false) :
      Run normal later level (.block (statement :: rest)) before after false
  /-- The annotation is evaluated after the assignment. -/
  | literal {level : Option String} {assignment : Assignment} {name : String} {value : Nat}
      {before middle after : Scopes} {done : Bool}
      (isLiteral : assignment.literal? = some (name, value))
      (stored : before.Stores (Code.key normal level name) (some (.integer value)) middle)
      (annotated : Run normal later level (.hint assignment.hint) middle after done) :
      Run normal later level (.stmt (.assignment assignment)) before after done
  | unopened {level : Option String} {line : Nat} {name : String} {typeParameters : Option String}
      {bases : List Argument} {body : List Stmt} {before after : Scopes}
      (header : Run normal later level (.header [] bases) before after false) :
      Run normal later level (.stmt (.declaration line name typeParameters bases body)) before after
        false
  | unfinished {level : Option String} {line : Nat} {name : String}
      {typeParameters : Option String} {bases : List Argument} {body : List Stmt}
      {before opened entered left : Scopes}
      (header : Run normal later level (.header [] bases) before opened true)
      (enters : Scopes.Enters normal name typeParameters body opened entered)
      (ran : Run normal later (some name) (.block body) entered left false) :
      Run normal later level (.stmt (.declaration line name typeParameters bases body)) before
        { opened with module := left.module } false
  | declared {level : Option String} {line : Nat} {name : String} {typeParameters : Option String}
      {bases : List Argument} {body : List Stmt} {before opened entered left after : Scopes}
      {object : Object}
      (header : Run normal later level (.header [] bases) before opened true)
      (enters : Scopes.Enters normal name typeParameters body opened entered)
      (ran : Run normal later (some name) (.block body) entered left true)
      (stored : Scopes.Stores { opened with module := left.module } (Code.key normal level name)
        (some object) after) :
      Run normal later level (.stmt (.declaration line name typeParameters bases body)) before after
        true
  | ends {level : Option String} {code : Code} (loose : code.isLoose) (scopes : Scopes)
      (done : Bool) : Run normal later level code scopes scopes done
  | part {level : Option String} {code piece : Code} {before middle after : Scopes}
      {partDone done : Bool} (loose : code.isLoose) (among : piece ∈ code.parts)
      (first : Run normal later level piece before middle partDone)
      (more : Run normal later level code middle after done) :
      Run normal later level code before after done
  | binds {level : Option String} {code : Code} {name : String} {object : Option Object}
      {before middle after : Scopes} {done : Bool} (loose : code.isLoose)
      (bound : code.MayBind name)
      (stored : before.Stores (Code.key normal level name) object middle)
      (more : Run normal later level code middle after done) :
      Run normal later level code before after done
  | meanwhile {level : Option String} {code : Code} {key : String} {object : Option Object}
      {before after : Scopes} {done : Bool} (loose : code.isLoose) (bound : later key)
      (more : Run normal later level code
        { before with module := Function.update before.module key object } after done) :
      Run normal later level code before after done

section

variable {normal : String → String} {later : String → Prop} {level : Option String} {code : Code}
  {before middle after : Scopes} {key : String} {object : Option Object} {done : Bool}

theorem Scopes.Stores.isOwn (h : before.Stores key object after) : after.isOwn = before.isOwn := by
  cases h <;> rfl

theorem Scopes.Stores.module_eq {other : String} (h : before.Stores key object after)
    (hother : ¬before.isOwn other → key ≠ other) : after.module other = before.module other := by
  cases h with
  | own belongs => rfl
  | module belongs =>
    apply Function.update_of_ne
    intro heq
    subst heq
    exact hother belongs rfl

theorem Scopes.Stores.module_self (h : before.Stores key object after)
    (hbelongs : ¬before.isOwn key) : after.module key = object := by
  cases h with
  | own belongs => exact absurd belongs hbelongs
  | module => exact Function.update_self ..

theorem Scopes.Stores.own_self (h : before.Stores key object after)
    (hbelongs : before.isOwn key) : after.own key = object := by
  cases h with
  | own => exact Function.update_self ..
  | module passed => exact absurd hbelongs passed

theorem Scopes.Stores.own_eq {other : String} (h : before.Stores key object after)
    (hother : before.isOwn other → key ≠ other) : after.own other = before.own other := by
  cases h with
  | own belongs =>
    apply Function.update_of_ne
    intro heq
    subst heq
    exact hother belongs rfl
  | module belongs => rfl

/-- A name that the class does not have is read from the module. -/
theorem Scopes.reads_iff {found : Object} (hown : before.own key = none)
    (hmodule : before.module key = some found) (object : Object) :
    before.Reads key object ↔ object = found := by
  constructor
  · rintro (⟨-, hfound⟩ | ⟨-, hfound⟩)
    · simp [hown] at hfound
    · rw [hmodule] at hfound
      exact (Option.some.inj hfound).symm
  · rintro rfl
    exact .module (fun _ => hown) hmodule

theorem Scopes.reads_own_iff {found : Object} (hbelongs : before.isOwn key)
    (hown : before.own key = some found) (object : Object) :
    before.Reads key object ↔ object = found := by
  constructor
  · rintro (⟨-, hfound⟩ | ⟨hpassed, -⟩)
    · rw [hown] at hfound
      exact (Option.some.inj hfound).symm
    · simp [hown] at hpassed
      exact absurd hbelongs hpassed
  · rintro rfl
    exact .own hbelongs hown

/-- What a run leaves alone, if the key is none of those that are bound at any time. -/
structure Frame (normal : String → String) (level : Option String) (code : Code)
    (before after : Scopes) (bound : String) : Prop where
  isOwn : after.isOwn = before.isOwn
  module : ¬Code.BindsGlobally normal level code bound →
    (¬before.isOwn bound → ¬Code.Binds normal level code bound) →
    after.module bound = before.module bound
  own : (before.isOwn bound → ¬Code.Binds normal level code bound) →
    after.own bound = before.own bound

namespace Frame
variable {bound : String} {piece : Code}

theorem refl (scopes : Scopes) : Frame normal level code scopes scopes bound :=
  ⟨rfl, fun _ _ => rfl, fun _ => rfl⟩

theorem trans (h : Frame normal level code before middle bound)
    (h' : Frame normal level code middle after bound) :
    Frame normal level code before after bound where
  isOwn := h'.isOwn.trans h.isOwn
  module := by
    intro hglobal hbinds
    have hmiddle := h.module hglobal hbinds
    rw [← h.isOwn] at hbinds
    exact (h'.module hglobal hbinds).trans hmiddle
  own := by
    intro hbinds
    have hmiddle := h.own hbinds
    rw [← h.isOwn] at hbinds
    exact (h'.own hbinds).trans hmiddle

theorem mono (h : Frame normal level piece before after bound)
    (hbinds : Code.Binds normal level piece bound → Code.Binds normal level code bound)
    (hglobal : Code.BindsGlobally normal level piece bound →
      Code.BindsGlobally normal level code bound) :
    Frame normal level code before after bound where
  isOwn := h.isOwn
  module := fun hcode hown => h.module (mt hglobal hcode) fun hnot => mt hbinds (hown hnot)
  own := fun hown => h.own fun hyes => mt hbinds (hown hyes)

theorem of_part (h : Frame normal level piece before after bound) (hpiece : piece ∈ code.parts) :
    Frame normal level code before after bound :=
  h.mono (.of_part hpiece) (.of_encloses (.part hpiece))

theorem of_stores (h : before.Stores key object after) (hbinds : Code.Binds normal level code key) :
    Frame normal level code before after bound where
  isOwn := h.isOwn
  module := fun _ hown => h.module_eq fun hnot heq => hown hnot (heq ▸ hbinds)
  own := fun hown => h.own_eq fun hyes heq => hown hyes (heq ▸ hbinds)

theorem module_eq (h : Frame normal level code before after bound)
    (hcode : ¬Code.Affects normal level code bound) : after.module bound = before.module bound :=
  h.module (not_or.mp hcode).2 fun _ => (not_or.mp hcode).1

theorem own_eq (h : Frame normal level code before after bound)
    (hcode : ¬Code.Affects normal level code bound) : after.own bound = before.own bound :=
  h.own fun _ => (not_or.mp hcode).1

end Frame

theorem Code.Binds.of_mayBind {name : String} (h : code.MayBind name) :
    code.Binds normal level (Code.key normal level name) :=
  ⟨code, name, .refl, h, rfl⟩

theorem Code.Binds.of_tail {statement : Stmt} {rest : List Stmt} {bound : String}
    (h : Code.Binds normal level (.block rest) bound) :
    Code.Binds normal level (.block (statement :: rest)) bound := by
  obtain ⟨piece, name, hwithin, hbinds, hkey⟩ := h
  rcases Relation.ReflTransGen.cases_head hwithin with rfl | ⟨part, hpart, hrest⟩
  · cases hbinds
  · have hpart' : part ∈ (Code.block (statement :: rest)).parts := List.mem_cons_of_mem _ hpart
    exact ⟨piece, name, .head hpart' hrest, hbinds, hkey⟩

theorem Code.BindsGlobally.of_tail {statement : Stmt} {rest : List Stmt} {bound : String}
    (h : Code.BindsGlobally normal level (.block rest) bound) :
    Code.BindsGlobally normal level (.block (statement :: rest)) bound := by
  obtain ⟨outer, line, name, typeParameters, bases, body, hcontains, hrest⟩ := h
  refine ⟨outer, line, name, typeParameters, bases, body, ?_, hrest⟩
  rcases Relation.ReflTransGen.cases_head hcontains with heq | ⟨⟨inner, part⟩, hencloses, hmore⟩
  · simp at heq
  · cases hencloses with
    | part among => exact .head (.part (List.mem_cons_of_mem _ among)) hmore

theorem Target.items_of_name? {target : Target} {name : String} (h : target.name? = some name) :
    target.items = [.name name] := by
  unfold name? at h
  split at h
  · rename_i heq
    rw [heq, Option.some.inj h]
  · simp at h

theorem Assignment.of_binding? {assignment : Assignment} {name : String} {binding : Binding}
    (h : assignment.binding? = some (name, binding)) :
    assignment.target.name? = some name ∧ binding.line = assignment.line ∧
      ∃ value, assignment.value = some value := by
  simp only [binding?, Option.bind_eq_bind, Option.bind_eq_some_iff] at h
  obtain ⟨bound, hname, value, hvalue, hfound⟩ := h
  simp only [Option.pure_def, Option.some.injEq, Prod.mk.injEq] at hfound
  obtain ⟨rfl, rfl⟩ := hfound
  exact ⟨hname, rfl, value, hvalue⟩

theorem Assignment.literal?_eq_some_iff {assignment : Assignment} {name : String} {value : Nat} :
    assignment.literal? = some (name, value) ↔
      ∃ binding, assignment.binding? = some (name, binding) ∧ binding.value = some value := by
  simp only [literal?, Option.bind_eq_bind, Option.bind_eq_some_iff, Option.pure_def,
    Option.some.injEq, Prod.mk.injEq, Prod.exists]
  constructor
  · rintro ⟨found, binding, hbinding, literal, hliteral, rfl, rfl⟩
    exact ⟨binding, hbinding, hliteral⟩
  · rintro ⟨binding, hbinding, hvalue⟩
    exact ⟨name, binding, hbinding, value, hvalue, rfl, rfl⟩

theorem Code.Binds.of_literal {assignment : Assignment} {name : String} {value : Nat}
    (h : assignment.literal? = some (name, value)) :
    Code.Binds normal level (.stmt (.assignment assignment)) (Code.key normal level name) := by
  obtain ⟨binding, hbinding, -⟩ := Assignment.literal?_eq_some_iff.mp h
  obtain ⟨hname, -, assigned, hassigned⟩ := Assignment.of_binding? hbinding
  have hpart : Code.target (.name name) ∈ assignment.parts := by
    simp only [Assignment.parts, hassigned, Target.items_of_name? hname, List.map_cons,
      List.map_nil, List.mem_append, List.mem_singleton, true_or, or_true]
  exact .of_part hpart (.of_mayBind (.target name))

private theorem frame_of_body {line : Nat} {className bound : String}
    {typeParameters : Option String} {bases : List Argument} {body : List Stmt}
    {opened entered left : Scopes}
    (enters : Scopes.Enters normal className typeParameters body opened entered)
    (ran : Frame normal (some className) (.block body) entered left bound) :
    Frame normal level (.stmt (.declaration line className typeParameters bases body)) opened
      { opened with module := left.module } bound where
  isOwn := rfl
  own := fun _ => rfl
  module := by
    intro hglobal _
    have hinner : ¬Code.BindsGlobally normal (some className) (.block body) bound :=
      mt (.of_encloses (.classBody line className typeParameters bases body)) hglobal
    have hbinds : ¬entered.isOwn bound →
        ¬Code.Binds normal (some className) (.block body) bound := by
      intro hshared hbinds
      rw [enters.isOwn, not_not] at hshared
      exact hglobal ⟨level, line, className, typeParameters, bases, body, .refl, hshared, hbinds⟩
    exact (ran.module hinner hbinds).trans (congrFun enters.module bound)

private theorem stmt_mem_parts (statement : Stmt) (rest : List Stmt) :
    Code.stmt statement ∈ (Code.block (statement :: rest)).parts := List.mem_cons_self

private theorem header_mem_parts (line : Nat) (name : String) (typeParameters : Option String)
    (bases : List Argument) (body : List Stmt) : Code.header [] bases ∈
      (Code.stmt (.declaration line name typeParameters bases body)).parts := List.mem_cons_self

private theorem hint_mem_parts (assignment : Assignment) :
    Code.hint assignment.hint ∈ (Code.stmt (.assignment assignment)).parts := by
  change Code.hint assignment.hint ∈ assignment.parts
  unfold Assignment.parts
  split <;> simp

/-- A run leaves every key alone that its code cannot affect. -/
theorem Run.frame {bound : String} (h : Run normal later level code before after done)
    (hlater : ¬later bound) : Frame normal level code before after bound := by
  -- On the run: what a part leaves alone the whole does, since what a part affects the whole does.
  induction h with
  | empty scopes => exact .refl scopes
  | ends _ scopes _ => exact .refl scopes
  | @next level statement rest _ _ _ _ _ _ ihfirst ihmore =>
    have hfirst := ihfirst.of_part (stmt_mem_parts statement rest)
    exact hfirst.trans (ihmore.mono .of_tail .of_tail)
  | stop _ ih => exact ih.of_part (stmt_mem_parts _ _)
  | @literal _ assignment _ _ _ _ _ _ isLiteral stored _ ih =>
    have hannotated := ih.of_part (hint_mem_parts assignment)
    exact (Frame.of_stores stored (.of_literal isLiteral)).trans hannotated
  | unopened _ ih => exact ih.of_part (header_mem_parts _ _ _ _ _)
  | @unfinished _ line name typeParameters bases body _ _ _ _ _ enters _ ihheader ihbody =>
    have hheader := ihheader.of_part (header_mem_parts line name typeParameters bases body)
    exact hheader.trans (frame_of_body enters ihbody)
  | @declared _ line name typeParameters bases body _ _ _ _ _ _ _ enters _ stored ihheader
      ihbody =>
    have hheader := ihheader.of_part (header_mem_parts line name typeParameters bases body)
    have hbody := (frame_of_body enters ihbody).trans <|
      .of_stores stored (.of_mayBind (.declaration line name typeParameters bases body))
    exact hheader.trans hbody
  | part _ among _ _ ihfirst ihmore => exact (ihfirst.of_part among).trans ihmore
  | binds _ found stored _ ih =>
    exact (Frame.of_stores stored (.of_mayBind found)).trans ih
  | @meanwhile level code key object before _ _ _ reached _ ih =>
    have hupdate : Frame normal level code before
        { before with module := Function.update before.module key object } bound := by
      refine ⟨rfl, fun _ _ => ?_, fun _ => rfl⟩
      apply Function.update_of_ne
      intro heq
      exact hlater (heq ▸ reached)
    exact hupdate.trans ih

theorem Run.of_cons {statement : Stmt} {rest : List Stmt}
    (h : Run normal later level (.block (statement :: rest)) before after true) :
    ∃ middle, Run normal later level (.stmt statement) before middle true ∧
      Run normal later level (.block rest) middle after true := by
  cases h with
  | @next _ _ _ _ middle _ _ hfirst hmore => exact ⟨middle, hfirst, hmore⟩
  | ends loose => simp [Code.isLoose] at loose
  | part loose => simp [Code.isLoose] at loose
  | binds loose => simp [Code.isLoose] at loose
  | meanwhile loose => simp [Code.isLoose] at loose

theorem Run.of_append {first rest : List Stmt}
    (h : Run normal later level (.block (first ++ rest)) before after true) :
    ∃ middle, Run normal later level (.block first) before middle true ∧
      Run normal later level (.block rest) middle after true := by
  induction first generalizing before with
  | nil => exact ⟨before, .empty before, h⟩
  | cons statement more ih =>
    obtain ⟨reached, hstatement, hmore⟩ := h.of_cons
    obtain ⟨middle, hmiddle, hrest⟩ := ih hmore
    exact ⟨middle, .next hstatement hmiddle, hrest⟩

/-- What a literal is assigned to is bound to it before the annotation is evaluated. -/
theorem Run.of_literal {assignment : Assignment} {name : String} {value : Nat}
    (h : Run normal later level (.stmt (.assignment assignment)) before after done)
    (hliteral : assignment.literal? = some (name, value)) : ∃ middle,
      before.Stores (Code.key normal level name) (some (.integer value)) middle ∧
        Run normal later level (.hint assignment.hint) middle after done := by
  have hstrict : Code.isLoose (.stmt (.assignment assignment)) = false := by
    simp [Code.isLoose, hliteral]
  cases h with
  | @literal _ _ found integer _ middle _ _ isLiteral stored annotated =>
    rw [hliteral, Option.some.injEq, Prod.mk.injEq] at isLiteral
    obtain ⟨rfl, rfl⟩ := isLiteral
    exact ⟨middle, stored, annotated⟩
  | ends loose => simp [hstrict] at loose
  | part loose => simp [hstrict] at loose
  | binds loose => simp [hstrict] at loose
  | meanwhile loose => simp [hstrict] at loose

end

end ElementBinding.Grammar
