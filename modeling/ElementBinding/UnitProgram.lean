import ElementBinding.Grammar.Module
import ElementBinding.Host
/-!
# Programs of units

What a binder module does when it is run, read from its syntax tree. It imports names; it defines
a class whose constructor takes an instance and assigns to its fields what a method of it finds,
passed through `cast` or not; and it calls `register_binder` with the owner, that class, and the
fields with their view identifiers. What the names denote is only known when the module runs, so
an import may stand in the place of a function. A module of another form is none that is
generated, and has no program here.
-/
namespace ElementBinding
open ElementBinding.Grammar

/-- A statement of a constructor: it assigns to a field what a method of the instance finds, which
may be passed through `cast` first. -/
structure Population where
  field : String
  casts : Bool
  finder : String
  viewId : Int
deriving DecidableEq

structure UnitProgram where
  /-- The imported names, each with the module it is imported from. -/
  imports : List (List String × String)
  className : String
  /-- The parameter of the constructor, which the owner annotates. -/
  parameter : String
  populations : List Population
  owner : String
  entries : List (String × Int)
deriving DecidableEq

/-- Reads a quoted text from behind its opening quote: what it quotes, and what follows it. -/
def readQuoted : List Char → Option (List Char × List Char)
  | [] => none
  | '"' :: rest => some ([], rest)
  | '\\' :: c :: rest => do
    let (text, rest) ← readQuoted rest
    return (c :: text, rest)
  | c :: rest => do
    let (text, rest) ← readQuoted rest
    return (c :: text, rest)

namespace Grammar

namespace Expr

/-- What a string literal between double quotes stands for. -/
def text? : Expr → Option String
  | .string text [] =>
    match text.toList with
    | '"' :: inner =>
      match readQuoted inner with
      | some (quoted, []) => some (String.ofList quoted)
      | _ => none
    | _ => none
  | _ => none

def integer? : Expr → Option Int
  | .integer digits => (Text.literalValue? digits.toList).map Int.ofNat
  | .unary "-" (.integer digits) =>
    (Text.literalValue? digits.toList).map fun value : Nat => -(value : Int)
  | _ => none

/-- The method and the view identifier of a look-up by the parameter. -/
def lookUp? (parameter : String) : Expr → Option (String × Int)
  | .call (.attribute (.name object) finder) [.positional viewId _ _] =>
    if object = parameter then viewId.integer?.map fun viewId => (finder, viewId) else none
  | _ => none

/-- What is assigned to a field: a look-up by the parameter, and whether it is cast. -/
def found? (parameter : String) : Expr → Option (Bool × String × Int)
  | .call (.name "cast") [.positional (.string _ []) _ _, .positional found _ _] =>
    (found.lookUp? parameter).map fun found => (true, found)
  | found => (found.lookUp? parameter).map fun found => (false, found)

def entry? : Expr → Option (String × Int)
  | .display .tuple [field, viewId] => do return (← field.text?, ← viewId.integer?)
  | _ => none

end Expr

/-- The population that a statement is, for the parameter of its constructor. -/
def Stmt.population? (parameter : String) : Stmt → Option Population
  | .assignment (.mk _ ⟨false, [.attribute (.name object) field], _⟩ none "="
      (some (.single value _))) =>
    if object = parameter then
      (value.found? parameter).map fun (casts, finder, viewId) => ⟨field, casts, finder, viewId⟩
    else none
  | _ => none

end Grammar

namespace UnitProgram

/-- The program of a class and a call, if they have the form of a binder and its registration. -/
def ofBinder? : Stmt → Stmt → Option UnitProgram
  | .declaration _ className none []
      [.function false "__init__" [.plain _ none none, .plain parameter (some hint) none] _ body],
    .expression [.call (.name "register_binder")
      [.positional (.name owner) _ _, .positional (.name binder) _ _,
        .positional (.display .tuple entries) _ _]] =>
    if hint = owner && binder = className then do
      return {
        imports := []
        className
        parameter
        populations := ← body.mapM (Stmt.population? parameter)
        owner
        entries := ← entries.mapM Expr.entry? }
    else none
  | _, _ => none

/-- The program of some statements, if they have the form of a binder module. -/
def of? : List Stmt → Option UnitProgram
  | [binder, registration] => ofBinder? binder registration
  | .importFrom 0 source [([name], none)] :: more =>
    (of? more).map fun program => { program with imports := (source, name) :: program.imports }
  | _ => none

end UnitProgram

/-- A name as it is understood within a class: a private name, which begins with two underscores and
does not end with two, has the name of the class put before it. -/
def privateName (className name : String) : String :=
  let chars := name.toList
  let plain := className.toList.dropWhile (· = '_')
  let isPrivate := chars.take 2 = ['_', '_'] && chars.reverse.take 2 ≠ ['_', '_']
  if isPrivate && plain ≠ [] then String.ofList ('_' :: plain ++ chars) else name

/-- What a name of a binder module denotes. -/
inductive Meaning where
  /-- The function that the language or this library has under the name. -/
  | function
  | type (type : Class)
  /-- The class that the module defines itself. -/
  | binder

/-- The error when a class is called with arguments that its constructor does not take. -/
def Class.refusal (type : Class) (given : Nat) : Raised :=
  .of "TypeError" <| some <|
    match type.constructor? with
    | some (.written signature _) =>
      let taken := signature.parameters.length + 1
      type.path ++ ".__init__() takes " ++ toString taken ++ " positional argument" ++
        (if taken = 1 then "" else "s") ++ " but " ++ toString (given + 1) ++ " were given"
    | _ => type.name ++ "() takes no arguments"

/-- The error when a name stands for nothing. -/
def notDefined (name : String) : Raised :=
  .of "NameError" (some ("name " ++ Text.quoted name ++ " is not defined"))

namespace UnitProgram
variable (normal : String → String) (unit : UnitProgram)

/-- A name within the class of the unit. -/
def inner (name : String) : String := privateName (normal unit.className) (normal name)

/-- The class of the unit with the steps of its constructor. -/
def binderClass (moduleName : String) (identity : Identity) (steps : List ConstructorStep) :
    Class where
  identity
  name := normal unit.className
  path := normal unit.className
  moduleName
  constructor := some (.written ⟨[{ name := unit.inner normal unit.parameter }]⟩ steps)

/-- What a statement of the constructor does. A class in the place of `cast` does not take a type
and an element; `itself` is the class of the unit. -/
def steps (names : List (String × Meaning)) (itself : Class) (found : Population) :
    List ConstructorStep :=
  let populate := .populate (unit.inner normal found.field) (unit.inner normal found.finder)
    found.viewId
  let refuse (type : Class) : List ConstructorStep :=
    [.lookUp (unit.inner normal found.finder) found.viewId, .fail (type.refusal 2)]
  if found.casts then
    match Pairs.get? names (unit.inner normal "cast") with
    | some .function => [populate]
    | some (.type type) => refuse type
    | some .binder => refuse itself
    | none => [.fail (notDefined (unit.inner normal "cast"))]
  else [populate]

def bindings : Json :=
  .array (unit.entries.map fun (name, viewId) => .array [.text name, .integer viewId])

end UnitProgram

end ElementBinding
