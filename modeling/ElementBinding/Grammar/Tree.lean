/-!
# Syntax trees of Python modules

Expressions, statements and modules as the grammar groups them. The tree keeps what the scanner of
markers reads: the source text of annotations, targets and arguments, and the line on which a node
begins, counted from zero. It keeps besides whatever may bind a name when the module runs, and the
source text of string literals. Binary operators stand in chains in source order, without
precedence.
-/
namespace ElementBinding.Grammar

/-- Values with a keyword or sign of their own. -/
inductive Constant where
  | true
  | false
  | none
  | ellipsis
deriving DecidableEq

/-- The brackets around a display of elements. -/
inductive Display where
  | tuple
  | list
  | set
  | dictionary
  | generator
deriving DecidableEq

mutual

inductive Expr where
  | name (id : String)
  | integer (digits : String)
  | real (digits : String)
  | constant (value : Constant)
  /-- One or more adjacent string literals and their source text; `holes` are the expressions
  embedded in them, each followed by those of its format. -/
  | string (text : String) (holes : List Expr)
  | parenthesized (inner : Expr)
  | display (kind : Display) (elements : List Expr)
  | comprehension (kind : Display) (body : Expr) (clauses : List Clause)
  | pair (key value : Expr)
  | attribute (object : Expr) (name : String)
  | subscript (object : Expr) (items : List Expr)
  | slice (bounds : List Expr)
  | call (function : Expr) (arguments : List Argument)
  | unary (operator : String) (operand : Expr)
  | chain (first : Expr) (rest : List (String × Expr))
  | comparison (first : Expr) (rest : List (String × Expr))
  | negation (operand : Expr)
  | junction (operator : String) (left right : Expr)
  | conditional (value test otherwise : Expr)
  | lambda (parameters : List Parameter) (body : Expr)
  | named (name : String) (value : Expr)
  | aliased (value target : Expr)
  | awaited (operand : Expr)
  | yielded (delegated : Bool) (values : List Expr)
  | splat (operand : Expr)
  | doubleSplat (operand : Expr)

inductive Clause where
  | forIn (isAsync : Bool) (targets sources : List Expr)
  | onlyIf (test : Expr)

/-- A child of an argument list: an argument, or a line continuation between arguments. -/
inductive Argument where
  | positional (value : Expr) (text : String) (line : Nat)
  | keyword (name : String) (line : Nat) (value : Expr) (text : String) (valueLine : Nat)
  | unpacked (value : Expr) (line : Nat)
  | clause (clause : Clause) (line : Nat)
  | continuation (text : String) (line : Nat)

inductive Parameter where
  | plain (name : String) (hint : Option String) (default : Option Expr)
  | grouped (target : Expr) (default : Option Expr)
  | rest (target : Expr) (hint : Option String)
  | keywords (target : Expr) (hint : Option String)
  | keywordOnly
  | positionalOnly

end

/-- The left side of an assignment, with its source text. -/
structure Target where
  /-- Several targets, or one that a comma follows. -/
  isList : Bool
  items : List Expr
  text : String

/-- The name a target consists of, if it is nothing but a name. -/
def Target.name? (target : Target) : Option String :=
  match target.isList, target.items with
  | false, [.name id] => some id
  | _, _ => none

mutual

/-- An assignment; `operator` is a plain equals sign or an augmented one. -/
inductive Assignment where
  | mk (line : Nat) (target : Target) (hint : Option String) (operator : String)
      (value : Option Value)

/-- What an assignment assigns: expressions beginning on some line, or a further assignment. -/
inductive Value where
  | single (value : Expr) (line : Nat)
  | several (values : List Expr)
  | nested (inner : Assignment)

end

namespace Assignment

def line : Assignment → Nat
  | mk line .. => line

def target : Assignment → Target
  | mk _ target .. => target

def hint : Assignment → Option String
  | mk _ _ hint .. => hint

/-- A plain assignment, or an annotation without one. -/
def isPlain : Assignment → Bool
  | mk _ _ _ operator _ => operator = "="

def value : Assignment → Option Value
  | mk _ _ _ _ value => value

end Assignment

inductive Pattern where
  | wildcard
  | capture (dotted : List String)
  | literal (value : Expr)
  | splat (name : String)
  | sequence (parts : List Pattern)
  | mapping (entries : List Pattern)
  | entry (key value : Pattern)
  | construct (dotted : List String) (parts : List Pattern)
  | keyword (name : String) (value : Pattern)
  | oneOf (choices : List Pattern)
  | aliased (inner : Pattern) (name : String)

mutual

inductive Stmt where
  | expression (values : List Expr)
  | assignment (assignment : Assignment)
  | importNames (names : List (List String × Option String))
  | importFrom (dots : Nat) (source : List String) (names : List (List String × Option String))
  | importAll (dots : Nat) (source : List String)
  | print (values : List Expr)
  | execute (values : List Expr)
  | assertion (values : List Expr)
  | returning (values : List Expr)
  | deleting (values : List Expr)
  | raising (values : List Expr) (cause : Option Expr)
  | pass
  | breaking
  | continuing
  | global (names : List String)
  | nonlocal (names : List String)
  | typeAlias (text : String)
  | branches (tests : List (Expr × List Stmt)) (otherwise : List Stmt)
  | forLoop (isAsync : Bool) (targets sources : List Expr) (body otherwise : List Stmt)
  | whileLoop (test : Expr) (body otherwise : List Stmt)
  | guarded (body : List Stmt) (handlers : List (List Expr × List Stmt))
      (otherwise cleanup : List Stmt)
  | withItems (isAsync : Bool) (items : List Expr) (body : List Stmt)
  | matching (subjects : List Expr) (cases : List (List Pattern × Option Expr × List Stmt))
  | function (isAsync : Bool) (name : String) (parameters : List Parameter) (hint : Option String)
      (body : List Stmt)
  | declaration (line : Nat) (name : String) (typeParameters : Option String)
      (bases : List Argument) (body : List Stmt)
  | decorated (decorators : List Expr) (definition : Stmt)

end

/-- A module: its statements in source order. -/
structure Module where
  statements : List Stmt

end ElementBinding.Grammar
