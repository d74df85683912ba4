import ElementBinding.Proofs.Execution.Code

/-!
# What names refer to

A name of a module refers to what the last statement that binds it has put there. In the body of a
function a name refers to a parameter that is called so, and otherwise to what the module has under
it, since the function runs after the module; the names of a class around the function are passed
over. A name is known by its key, so a private name is another one in every class.
-/
namespace ElementBinding.Grammar

inductive Referent where
  | imported (dots : Nat) (source : List String) (name : String)
  | declared (name : String)
  | parameter (key : String)
deriving DecidableEq

/-- The key refers to something once the statement has run. -/
inductive Stmt.Introduces (normal : String → String) : Stmt → String → Referent → Prop
  | importFrom (dots : Nat) (source : List String) (name : String) (given : Option String) :
      Introduces normal (.importFrom dots source [([name], given)])
        (Code.key normal none (given.getD name)) (.imported dots source name)
  | declaration (line : Nat) (name : String) (typeParameters : Option String)
      (bases : List Argument) (body : List Stmt) :
      Introduces normal (.declaration line name typeParameters bases body)
        (Code.key normal none name) (.declared name)

/-- The key refers to something once the statements have run: one of them introduces it, and none
behind that one binds it, nor anything that runs later. -/
structure Refers (normal : String → String) (statements : List Stmt) (key : String)
    (referent : Referent) : Prop where
  introduced : ∃ before statement after, statements = before ++ statement :: after ∧
    statement.Introduces normal key referent ∧
    ∀ later ∈ after, ¬Code.Affects normal none (.stmt later) key
  lasting : ¬Code.BindsLater normal statements key

inductive Parameter.Binds (normal : String → String) (level : Option String) :
    Parameter → String → Prop
  | plain (name : String) (hint : Option String) (default : Option Expr) :
      Binds normal level (.plain name hint default) (Code.key normal level name)
  | grouped {target : Expr} {default : Option Expr} {key : String}
      (bound : Code.Binds normal level (.target target) key) :
      Binds normal level (.grouped target default) key
  | rest {target : Expr} {hint : Option String} {key : String}
      (bound : Code.Binds normal level (.target target) key) :
      Binds normal level (.rest target hint) key
  | keywords {target : Expr} {hint : Option String} {key : String}
      (bound : Code.Binds normal level (.target target) key) :
      Binds normal level (.keywords target hint) key

theorem Parameter.binds_plain {normal : String → String} {level : Option String}
    {name key : String} {hint : Option String} {default : Option Expr} :
    (Parameter.plain name hint default).Binds normal level key ↔
      Code.key normal level name = key := by
  constructor
  · intro h
    cases h
    rfl
  · rintro rfl
    exact .plain name hint default

/-- The key refers to something in the body of a function of a module, within a class or none. The
body binds no name itself. -/
inductive RefersInside (normal : String → String) (level : Option String) (statements : List Stmt)
    (parameters : List Parameter) (body : List Stmt) (key : String) : Referent → Prop
  | parameter {parameter : Parameter} (among : parameter ∈ parameters)
      (binds : parameter.Binds normal level key)
      (unbound : ¬Code.Binds normal level (.block body) key) :
      RefersInside normal level statements parameters body key (.parameter key)
  | module {referent : Referent}
      (free : ∀ parameter ∈ parameters, ¬parameter.Binds normal level key)
      (unbound : ¬Code.Binds normal level (.block body) key)
      (refers : Refers normal statements key referent) :
      RefersInside normal level statements parameters body key referent

section

variable {normal : String → String} {key : String} {referent other : Referent}
  {statement : Stmt} {statements before after : List Stmt}

theorem Stmt.Introduces.unique (h : statement.Introduces normal key referent)
    (h' : statement.Introduces normal key other) : referent = other := by
  cases h <;> cases h' <;> rfl

theorem Stmt.Introduces.affects (h : statement.Introduces normal key referent) :
    Code.Affects normal none (.stmt statement) key := by
  cases h with
  | importFrom dots source name given =>
    have hbinds : Code.MayBind (.stmt (.importFrom dots source [([name], given)]))
        (given.getD name) := .importFrom List.mem_cons_self rfl
    exact .inl ⟨_, _, .refl, hbinds, rfl⟩
  | declaration line name typeParameters bases body =>
    exact .inl ⟨_, _, .refl, .declaration line name typeParameters bases body, rfl⟩

theorem Refers.unique (h : Refers normal statements key referent)
    (h' : Refers normal statements key other) : referent = other := by
  obtain ⟨before, statement, after, hsplit, hintroduces, hafter⟩ := h.introduced
  obtain ⟨before', statement', after', hsplit', hintroduces', hafter'⟩ := h'.introduced
  rw [hsplit] at hsplit'
  rcases List.append_eq_append_iff.mp hsplit' with ⟨between, hbefore, hrest⟩ |
    ⟨between, hbefore, hrest⟩
  · cases between with
    | nil =>
      obtain ⟨rfl, -⟩ := List.cons.inj hrest
      exact hintroduces.unique hintroduces'
    | cons first more =>
      obtain ⟨-, hmore⟩ := List.cons.inj hrest
      exact absurd hintroduces'.affects (hafter _ (by simp [hmore]))
  · cases between with
    | nil =>
      obtain ⟨rfl, -⟩ := List.cons.inj hrest
      exact hintroduces.unique hintroduces'
    | cons first more =>
      obtain ⟨-, hmore⟩ := List.cons.inj hrest
      exact absurd hintroduces.affects (hafter' _ (by simp [hmore]))

end

namespace Code
variable {P : Code → Prop} {code : Code}

/-- Everything in a piece of code is of some kind, what runs later too. -/
def Everywhere (P : Code → Prop) (code : Code) : Prop :=
  ∀ level inner piece, Contains true (level, code) (inner, piece) → P piece

/-- The code neither declares a name global nor names a value in passing. -/
def IsStill (code : Code) : Prop :=
  (∀ names, code ≠ .stmt (.global names)) ∧ ∀ name value, code ≠ .expr (.named name value)

/-- The code binds no name, and declares none global. -/
def IsInert (code : Code) : Prop :=
  (∀ names, code ≠ .stmt (.global names)) ∧ ∀ name, ¬code.MayBind name

theorem IsInert.isStill (h : code.IsInert) : code.IsStill := by
  refine ⟨h.1, fun name value heq => h.2 name ?_⟩
  rw [heq]
  exact .named name value

namespace Everywhere

theorem of_encloses (hself : P code)
    (h : ∀ level inner piece, Encloses true (level, code) (inner, piece) → Everywhere P piece) :
    Everywhere P code := by
  intro level inner piece hcontains
  rcases Relation.ReflTransGen.cases_head hcontains with heq | ⟨⟨outer, next⟩, hencloses, hmore⟩
  · cases heq
    exact hself
  · exact h level outer next hencloses outer inner piece hmore

/-- Nothing but its parts is in code that declares no class and defines no function. -/
theorem of_parts (hself : P code)
    (hclass : ∀ line name typeParameters bases body,
      code ≠ .stmt (.declaration line name typeParameters bases body))
    (hfunction : ∀ isAsync name parameters hint body,
      code ≠ .stmt (.function isAsync name parameters hint body))
    (h : ∀ piece ∈ code.parts, Everywhere P piece) : Everywhere P code := by
  refine of_encloses hself fun level inner piece hencloses => ?_
  cases hencloses with
  | part among => exact h piece among
  | classBody => exact absurd rfl (hclass _ _ _ _ _)
  | functionBody => exact absurd rfl (hfunction _ _ _ _ _)

theorem mono {Q : Code → Prop} (h : Everywhere P code) (h' : ∀ code, P code → Q code) :
    Everywhere Q code := fun level inner piece hcontains => h' piece (h level inner piece hcontains)

theorem of_expr {e : Expr} (hnamed : ∀ name value, e ≠ .named name value)
    (h : ∀ piece ∈ e.parts, Everywhere IsInert piece) : Everywhere IsInert (.expr e) := by
  refine .of_parts ⟨by simp, fun name hbinds => ?_⟩ (by simp) (by simp) h
  cases hbinds with
  | named name value => exact hnamed name value rfl

theorem of_positional {value : Expr} {text : String} {line : Nat}
    (h : Everywhere IsInert (.expr value)) :
    Everywhere IsInert (.argument (.positional value text line)) := by
  refine .of_parts ⟨by simp, fun name hbinds => nomatch hbinds⟩ (by simp) (by simp) ?_
  simpa [parts, Argument.parts] using h

theorem of_assignment {line valueLine : Nat} {object value : Expr} {written name : String}
    (hobject : Everywhere IsInert (.expr object)) (hvalue : Everywhere IsInert (.expr value)) :
    Everywhere IsInert (.stmt (.assignment (.mk line ⟨false, [.attribute object name], written⟩ none
      "=" (some (.single value valueLine))))) := by
  have hattribute : Everywhere IsInert (.expr (.attribute object name)) :=
    .of_expr (by simp) (by simpa [Expr.parts] using hobject)
  have htarget : Everywhere IsInert (.target (.attribute object name)) := by
    refine .of_parts ⟨by simp, fun _ hbinds => nomatch hbinds⟩ (by simp) (by simp) ?_
    simpa [parts, Expr.targetParts] using hattribute
  have hhint : Everywhere IsInert (.hint none) :=
    .of_parts ⟨by simp, fun _ hbinds => nomatch hbinds⟩ (by simp) (by simp) (by simp [parts])
  refine .of_parts ⟨by simp, fun _ hbinds => nomatch hbinds⟩ (by simp) (by simp) ?_
  simpa [parts, Stmt.parts, Assignment.parts, Assignment.value, Assignment.target, Assignment.hint,
    Value.parts] using ⟨hvalue, htarget, hhint⟩

theorem of_expression {e : Expr} (h : Everywhere IsInert (.expr e)) :
    Everywhere IsInert (.stmt (.expression [e])) := by
  refine .of_parts ⟨by simp, fun _ hbinds => nomatch hbinds⟩ (by simp) (by simp) ?_
  simpa [parts, Stmt.parts] using h

theorem of_block {statements : List Stmt} (hself : P (.block statements))
    (h : ∀ statement ∈ statements, Everywhere P (.stmt statement)) :
    Everywhere P (.block statements) := by
  refine .of_parts hself (by simp) (by simp) fun piece hpiece => ?_
  obtain ⟨statement, hstatement, rfl⟩ := List.mem_map.mp hpiece
  exact h statement hstatement

theorem of_importFrom (dots : Nat) (source : List String)
    (names : List (List String × Option String)) :
    Everywhere IsStill (.stmt (.importFrom dots source names)) :=
  .of_parts ⟨by simp, by simp⟩ (by simp) (by simp) (by simp [parts, Stmt.parts])

theorem of_plain (name : String) (hint : Option String) :
    Everywhere IsStill (.parameter (.plain name hint none)) := by
  have hhint : Everywhere IsStill (.hint hint) :=
    .of_parts ⟨by simp, by simp⟩ (by simp) (by simp) (by simp [parts])
  refine .of_parts ⟨by simp, by simp⟩ (by simp) (by simp) ?_
  simpa [parts, Parameter.parts] using hhint

theorem of_function {isAsync : Bool} {name : String} {parameters : List Parameter}
    {hint : Option String} {body : List Stmt}
    (hparameters : ∀ parameter ∈ parameters, Everywhere IsStill (.parameter parameter))
    (hbody : ∀ statement ∈ body, Everywhere IsStill (.stmt statement)) :
    Everywhere IsStill (.stmt (.function isAsync name parameters hint body)) := by
  have hhint : Everywhere IsStill (.hint hint) :=
    .of_parts ⟨by simp, by simp⟩ (by simp) (by simp) (by simp [parts])
  refine .of_encloses ⟨by simp, by simp⟩ fun level inner piece hencloses => ?_
  cases hencloses with
  | part among =>
    simp only [parts, Stmt.parts, List.mem_append, List.mem_map, List.mem_singleton] at among
    rcases among with ⟨parameter, hparameter, rfl⟩ | rfl
    · exact hparameters parameter hparameter
    · exact hhint
  | functionBody => exact .of_block ⟨by simp, by simp⟩ hbody

theorem of_declaration {line : Nat} {name : String} {typeParameters : Option String}
    {body : List Stmt} (hbody : ∀ statement ∈ body, Everywhere IsStill (.stmt statement)) :
    Everywhere IsStill (.stmt (.declaration line name typeParameters [] body)) := by
  refine .of_encloses ⟨by simp, by simp⟩ fun level inner piece hencloses => ?_
  cases hencloses with
  | part among =>
    obtain rfl : piece = .header [] [] := by simpa [parts, Stmt.parts] using among
    exact .of_parts ⟨by simp, by simp⟩ (by simp) (by simp) (by simp [parts])
  | classBody => exact .of_block ⟨by simp, by simp⟩ hbody

end Everywhere

variable {normal : String → String} {level : Option String} {key : String}

theorem Binds.of_importFrom {dots : Nat} {source : List String} {name : String}
    {given : Option String}
    (h : Binds normal level (.stmt (.importFrom dots source [([name], given)])) key) :
    key = Code.key normal level (given.getD name) := by
  obtain ⟨piece, bound, hwithin, hbinds, rfl⟩ := h
  rcases Relation.ReflTransGen.cases_head hwithin with rfl | ⟨next, hnext, -⟩
  · cases hbinds with
    | importFrom among bound =>
      obtain rfl := List.mem_singleton.mp among
      rw [bound, List.headD_cons]
  · simp [parts, Stmt.parts] at hnext

theorem Binds.of_declaration {line : Nat} {name : String} {typeParameters : Option String}
    {body : List Stmt}
    (h : Binds normal level (.stmt (.declaration line name typeParameters [] body)) key) :
    key = Code.key normal level name := by
  obtain ⟨piece, bound, hwithin, hbinds, rfl⟩ := h
  rcases Relation.ReflTransGen.cases_head hwithin with rfl | ⟨next, hnext, hmore⟩
  · cases hbinds
    rfl
  · obtain rfl : next = .header [] [] := by simpa [parts, Stmt.parts] using hnext
    rcases Relation.ReflTransGen.cases_head hmore with rfl | ⟨_, hempty, -⟩
    · nomatch hbinds
    · simp [parts] at hempty

theorem Contains.mono {outer inner : Option String × Code} (h : Contains false outer inner) :
    Contains true outer inner := by
  refine Relation.ReflTransGen.mono (fun first second hencloses => ?_) _ _ h
  cases hencloses with
  | part among => exact .part among
  | classBody line name typeParameters bases body =>
    exact .classBody line name typeParameters bases body
  | functionBody isAsync name parameters hint body allowed => simp at allowed

theorem Everywhere.not_binds (h : Everywhere IsInert code) : ¬Binds normal level code key := by
  rintro ⟨piece, name, hwithin, hbinds, -⟩
  have hcontains : Contains true (level, code) (level, piece) := hwithin.contains
  exact (h _ _ _ hcontains).2 name hbinds

/-- Where no name is declared global, a piece of code affects what it binds. -/
theorem Everywhere.not_affects (h : Everywhere IsStill code)
    (hbinds : ¬Binds normal level code key) : ¬Affects normal level code key := by
  rintro (hbinds' | ⟨outer, line, name, typeParameters, bases, body, hcontains, hshares, -⟩)
  · exact hbinds hbinds'
  · obtain ⟨names, hwithin, -⟩ := hshares
    have hbody := hcontains.mono.tail (.classBody line name typeParameters bases body)
    exact (h _ _ _ (hbody.trans hwithin.contains)).1 names rfl

/-- Where no name is declared global and none is named in passing, none is bound later. -/
theorem not_bindsLater {statements : List Stmt}
    (h : ∀ statement ∈ statements, Everywhere IsStill (.stmt statement)) :
    ¬BindsLater normal statements key := by
  have hblock : Everywhere IsStill (.block statements) := .of_block ⟨by simp, by simp⟩ h
  rintro (⟨level, isAsync, function, parameters, hint, body, inner, names, hfunction, hglobal, -⟩ |
    ⟨level, name, value, hnamed, -⟩)
  · have hbody := hfunction.tail (.functionBody isAsync function parameters hint body rfl)
    exact (hblock _ _ _ (hbody.trans hglobal)).1 names rfl
  · exact (hblock _ _ _ hnamed.mono).2 name value rfl

end Code

/-- Where no name is declared global and none is named in passing, a key refers to what the last
statement that binds it introduces. -/
theorem Refers.of_still {normal : String → String} {before after : List Stmt} {statement : Stmt}
    {key : String} {referent : Referent}
    (hstill : ∀ other ∈ before ++ statement :: after, Code.Everywhere Code.IsStill (.stmt other))
    (hintroduces : statement.Introduces normal key referent)
    (hafter : ∀ later ∈ after, ¬Code.Binds normal none (.stmt later) key) :
    Refers normal (before ++ statement :: after) key referent where
  introduced := ⟨before, statement, after, rfl, hintroduces, fun later hlater =>
    (hstill later (by simp [hlater])).not_affects (hafter later hlater)⟩
  lasting := Code.not_bindsLater hstill

end ElementBinding.Grammar
