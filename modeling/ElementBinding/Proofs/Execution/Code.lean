import ElementBinding.Installation
import ElementBinding.Scan
import Mathlib

/-!
# Code that binds names

A module is run piece by piece. A piece of code has parts, which run when it runs, in an order and
as often as the piece determines, and names that it may bind itself. The body of a class has names
of its own, but for those it declares global. The body of a function runs whenever the function is
called, so what it declares global may be bound at any time.

A name is known by its key: its normal form, and within a class the form of a private name. The
normal form is a parameter, since spellings of one name may differ in their characters.
-/
namespace ElementBinding.Grammar

inductive Code where
  | expr (e : Expr)
  | clause (clause : Clause)
  | argument (argument : Argument)
  | parameter (parameter : Parameter)
  /-- An expression that is assigned to or deleted. -/
  | target (e : Expr)
  | pattern (pattern : Pattern)
  /-- An annotation, by its source text. -/
  | hint (text : Option String)
  | stmt (statement : Stmt)
  | block (statements : List Stmt)
  /-- What is evaluated before the body of a class runs. -/
  | header (decorators : List Expr) (bases : List Argument)

def Expr.parts : Expr → List Code
  | .name _ | .integer _ | .real _ | .constant _ => []
  | .string _ holes => holes.map .expr
  | .parenthesized inner => [.expr inner]
  | .display _ elements => elements.map .expr
  | .comprehension _ body clauses => .expr body :: clauses.map .clause
  | .pair key value => [.expr key, .expr value]
  | .attribute object _ => [.expr object]
  | .subscript object items => .expr object :: items.map .expr
  | .slice bounds => bounds.map .expr
  | .call function arguments => .expr function :: arguments.map .argument
  | .unary _ operand => [.expr operand]
  | .chain first rest => .expr first :: rest.map (.expr ·.2)
  | .comparison first rest => .expr first :: rest.map (.expr ·.2)
  | .negation operand => [.expr operand]
  | .junction _ left right => [.expr left, .expr right]
  | .conditional value test otherwise => [.expr value, .expr test, .expr otherwise]
  -- The body of a lambda expression runs later and binds no name of another scope.
  | .lambda parameters _ => parameters.map .parameter
  | .named _ value => [.expr value]
  | .aliased value target => [.expr value, .target target]
  | .awaited operand => [.expr operand]
  | .yielded _ values => values.map .expr
  | .splat operand => [.expr operand]
  | .doubleSplat operand => [.expr operand]

def Clause.parts : Clause → List Code
  -- The targets of a comprehension are names of its own.
  | .forIn _ targets sources => targets.map .expr ++ sources.map .expr
  | .onlyIf test => [.expr test]

def Argument.parts : Argument → List Code
  | .positional value _ _ => [.expr value]
  | .keyword _ _ value _ _ => [.expr value]
  | .unpacked value _ => [.expr value]
  | .clause found _ => [.clause found]
  | .continuation _ _ => []

def Parameter.parts : Parameter → List Code
  | .plain _ hint default => .hint hint :: default.toList.map .expr
  | .grouped _ default => default.toList.map .expr
  | .rest _ hint => [.hint hint]
  | .keywords _ hint => [.hint hint]
  | .keywordOnly | .positionalOnly => []

def Expr.targetParts : Expr → List Code
  | .name _ => []
  | .parenthesized inner => [.target inner]
  | .display _ elements => elements.map .target
  | .splat operand => [.target operand]
  | e => [.expr e]

def Pattern.parts : Pattern → List Code
  | .wildcard | .capture _ | .splat _ => []
  | .literal value => [.expr value]
  | .sequence parts => parts.map .pattern
  | .mapping entries => entries.map .pattern
  | .entry key value => [.pattern key, .pattern value]
  | .construct _ parts => parts.map .pattern
  | .keyword _ value => [.pattern value]
  | .oneOf choices => choices.map .pattern
  | .aliased inner _ => [.pattern inner]

def Value.parts : Value → List Code
  | .single value _ => [.expr value]
  | .several values => values.map .expr
  | .nested inner => [.stmt (.assignment inner)]

/-- An annotation without a value binds nothing. -/
def Assignment.parts (assignment : Assignment) : List Code :=
  match assignment.value with
  | none => assignment.target.items.map .expr ++ [.hint assignment.hint]
  | some value =>
    value.parts ++ assignment.target.items.map .target ++ [.hint assignment.hint]

def Stmt.parts : Stmt → List Code
  | .expression values => values.map .expr
  | .assignment found => found.parts
  | .importNames _ | .importFrom .. | .importAll .. => []
  | .print values => values.map .expr
  | .execute values => values.map .expr
  | .assertion values => values.map .expr
  | .returning values => values.map .expr
  | .deleting values => values.map .target
  | .raising values cause => values.map .expr ++ cause.toList.map .expr
  | .pass | .breaking | .continuing | .global _ | .nonlocal _ | .typeAlias _ => []
  | .branches tests otherwise =>
    tests.flatMap (fun (test, body) => [.expr test, .block body]) ++ [.block otherwise]
  | .forLoop _ targets sources body otherwise =>
    targets.map .target ++ sources.map .expr ++ [.block body, .block otherwise]
  | .whileLoop test body otherwise => [.expr test, .block body, .block otherwise]
  | .guarded body handlers otherwise cleanup =>
    handlers.flatMap (fun (errors, body) => errors.map .expr ++ [.block body]) ++
      [.block body, .block otherwise, .block cleanup]
  | .withItems _ items body => items.map .expr ++ [.block body]
  | .matching subjects cases =>
    subjects.map .expr ++ cases.flatMap fun (patterns, guard, body) =>
      patterns.map .pattern ++ guard.toList.map .expr ++ [.block body]
  | .function _ _ parameters hint _ => parameters.map .parameter ++ [.hint hint]
  | .declaration _ _ _ bases _ => [.header [] bases]
  | .decorated decorators definition => decorators.map .expr ++ [.stmt definition]

namespace Code

def parts : Code → List Code
  | expr e => e.parts
  | clause found => found.parts
  | argument found => found.parts
  | parameter found => found.parts
  | target e => e.targetParts
  | pattern found => found.parts
  | hint _ => []
  | stmt statement => statement.parts
  | block statements => statements.map stmt
  | header decorators bases => decorators.map expr ++ bases.map argument

def Occurs (name text : String) : Prop := name.toList <:+: text.toList

/-- A piece of code may bind a name itself. Of an annotation and of the statement that names a type
only the text is known. -/
inductive MayBind : Code → String → Prop
  | named (name : String) (value : Expr) : MayBind (expr (.named name value)) name
  | target (name : String) : MayBind (target (.name name)) name
  | capture (name : String) : MayBind (pattern (.capture [name])) name
  | splat (name : String) : MayBind (pattern (.splat name)) name
  | aliased (inner : Pattern) (name : String) : MayBind (pattern (.aliased inner name)) name
  | hint {text name : String} (assigns : Occurs ":=" text) (occurs : Occurs name text) :
      MayBind (hint (some text)) name
  | importNames {names : List (List String × Option String)} {found : List String × Option String}
      {name : String} (among : found ∈ names) (bound : name = found.2.getD (found.1.headD "")) :
      MayBind (stmt (.importNames names)) name
  | importFrom {dots : Nat} {source : List String} {names : List (List String × Option String)}
      {found : List String × Option String} {name : String} (among : found ∈ names)
      (bound : name = found.2.getD (found.1.headD "")) :
      MayBind (stmt (.importFrom dots source names)) name
  | importAll (dots : Nat) (source : List String) (name : String) :
      MayBind (stmt (.importAll dots source)) name
  | execute (values : List Expr) (name : String) : MayBind (stmt (.execute values)) name
  | typeAlias {text name : String} (occurs : Occurs name text) :
      MayBind (stmt (.typeAlias text)) name
  | function (isAsync : Bool) (name : String) (parameters : List Parameter)
      (hint : Option String) (body : List Stmt) :
      MayBind (stmt (.function isAsync name parameters hint body)) name
  | declaration (line : Nat) (name : String) (typeParameters : Option String)
      (bases : List Argument) (body : List Stmt) :
      MayBind (stmt (.declaration line name typeParameters bases body)) name
  | decorated {definition : Stmt} {name : String} (decorators : List Expr)
      (bound : MayBind (stmt definition) name) :
      MayBind (stmt (.decorated decorators definition)) name

/-- A piece of code in its class, if it is in one, and what is enclosed in it. -/
inductive Encloses (functions : Bool) :
    Option String × Code → Option String × Code → Prop
  | part {level : Option String} {code piece : Code} (among : piece ∈ code.parts) :
      Encloses functions (level, code) (level, piece)
  | classBody {level : Option String} (line : Nat) (name : String)
      (typeParameters : Option String) (bases : List Argument) (body : List Stmt) :
      Encloses functions (level, stmt (.declaration line name typeParameters bases body))
        (some name, block body)
  | functionBody {level : Option String} (isAsync : Bool) (name : String)
      (parameters : List Parameter) (hint : Option String) (body : List Stmt)
      (allowed : functions = true) :
      Encloses functions (level, stmt (.function isAsync name parameters hint body))
        (level, block body)

/-- What is enclosed in a piece of code at any depth; in the bodies of functions only if they are
to be looked into. -/
def Contains (functions : Bool) : Option String × Code → Option String × Code → Prop :=
  Relation.ReflTransGen (Encloses functions)

/-- The parts of a piece of code, and their parts, at any depth. -/
def Within : Code → Code → Prop := Relation.ReflTransGen fun code piece => piece ∈ code.parts

section

variable (normal : String → String)

/-- The key by which a name is known within a class, or outside of all. -/
def key (level : Option String) (name : String) : String :=
  match level with
  | none => normal name
  | some className => privateName (normal className) (normal name)

def Binds (level : Option String) (code : Code) (bound : String) : Prop :=
  ∃ piece name, Within code piece ∧ MayBind piece name ∧ key normal level name = bound

/-- The body of a class declares the key global. -/
def Shares (className : String) (body : List Stmt) (shared : String) : Prop :=
  ∃ names, Within (block body) (stmt (.global names)) ∧
    ∃ name ∈ names, key normal (some className) name = shared

/-- Running the code runs the body of a class that may bind the key for the module. -/
def BindsGlobally (level : Option String) (code : Code) (bound : String) : Prop :=
  ∃ outer line name typeParameters bases body,
    Contains false (level, code) (outer, stmt (.declaration line name typeParameters bases body)) ∧
      Shares normal name body bound ∧ Binds normal (some name) (block body) bound

def Affects (level : Option String) (code : Code) (bound : String) : Prop :=
  Binds normal level code bound ∨ BindsGlobally normal level code bound

/-- Code among the statements that runs at any time, once it is reached, may bind the key for the
module: a function declares it global, or it is named by an assignment expression, which may be part
of a generator. -/
def BindsLater (statements : List Stmt) (bound : String) : Prop :=
  (∃ level isAsync function parameters hint body inner names,
    Contains true (none, block statements)
      (level, stmt (.function isAsync function parameters hint body)) ∧
    Contains true (level, block body) (inner, stmt (.global names)) ∧
    ∃ name ∈ names, key normal inner name = bound) ∨
  ∃ level name value, Contains false (none, block statements) (level, expr (.named name value)) ∧
    key normal level name = bound

variable {normal} {level : Option String} {code piece : Code} {bound : String}

theorem Binds.of_part (hpiece : piece ∈ code.parts) (h : Binds normal level piece bound) :
    Binds normal level code bound := by
  obtain ⟨inner, name, hwithin, hbinds⟩ := h
  exact ⟨inner, name, .head hpiece hwithin, hbinds⟩

theorem BindsGlobally.of_encloses {outer : Option String}
    (hencloses : Encloses false (level, code) (outer, piece))
    (h : BindsGlobally normal outer piece bound) : BindsGlobally normal level code bound := by
  obtain ⟨found, line, name, typeParameters, bases, body, hcontains, hrest⟩ := h
  exact ⟨found, line, name, typeParameters, bases, body, .head hencloses hcontains, hrest⟩

theorem Within.contains {functions : Bool} (h : Within code piece) :
    Contains functions (level, code) (level, piece) := by
  induction h with
  | refl => exact .refl
  | tail _ among ih => exact ih.tail (.part among)

theorem Affects.of_loose (h : Affects normal level code bound)
    (hcode : ∀ line name typeParameters bases body,
      code ≠ stmt (.declaration line name typeParameters bases body)) :
    (∃ name, MayBind code name ∧ key normal level name = bound) ∨
      ∃ piece ∈ code.parts, Affects normal level piece bound := by
  rcases h with ⟨inner, name, hwithin, hbinds, hkey⟩ |
    ⟨outer, line, name, typeParameters, bases, body, hcontains, hrest⟩
  · rcases Relation.ReflTransGen.cases_head hwithin with rfl | ⟨piece, hpiece, hmore⟩
    · exact .inl ⟨name, hbinds, hkey⟩
    · exact .inr ⟨piece, hpiece, .inl ⟨inner, name, hmore, hbinds, hkey⟩⟩
  · rcases Relation.ReflTransGen.cases_head hcontains with heq | ⟨⟨next, piece⟩, hencloses, hmore⟩
    · exact absurd (congrArg Prod.snd heq) (hcode line name typeParameters bases body)
    · cases hencloses with
      | part among =>
        have hglobal : BindsGlobally normal level piece bound :=
          ⟨outer, line, name, typeParameters, bases, body, hmore, hrest⟩
        exact .inr ⟨piece, among, .inr hglobal⟩
      | classBody line name typeParameters bases body =>
        exact absurd rfl (hcode line name typeParameters bases body)
      | functionBody isAsync name parameters hint body allowed => simp at allowed

/-- A name that is not private is known by its normal form everywhere. -/
theorem key_of_plain {name : String} (h : (normal name).toList.take 2 ≠ ['_', '_']) :
    key normal level name = normal name := by
  cases level with
  | none => rfl
  | some className => simp [key, privateName, h]

end

end Code

end ElementBinding.Grammar
