import ElementBinding.Grammar.Pattern
import ElementBinding.Grammar.Statement
/-!
# Compound statements

Statements with a body behind a colon, and the blocks that indentation forms. A body may be empty:
then the next statement is no further indented than the one with the colon.
-/
namespace ElementBinding.Grammar

variable {whole : List Char}

section

variable (g : Rules whole)

/-- Moves to the next statement of the block the cursor is in, and gives its first token; nothing if
the block ends. -/
def nextStatement : Rule whole (Option Token) := fun c =>
  match c.opening (!c.indents.isEmpty) with
  | some (.statement start) => some (some start.token.1, start)
  | some _ => some (none, c)
  | none => none

/-- A further part of a compound statement, with one of the given keywords. -/
def furtherPart (keyword : String) (part : Rule whole α) : Rule whole (Option α) := do
  let here ← Rule.cursor
  if (← nextStatement) = some (.name keyword) then
    Rule.word .more keyword
    return some (← part)
  else
    set here
    return none

def body : Rule whole (List Stmt) := do
  Rule.symbol .more ":"
  g.suite

def furtherBody (keyword : String) : Rule whole (Option (List Stmt)) := furtherPart keyword (body g)

/-- Repeats a part of a compound statement as long as it comes. -/
def furtherParts (keyword : String) (part : Rule whole α) : Rule whole (List α) :=
  Rule.loop (fun parts => do
    match ← furtherPart keyword part with
    | some next => return .inl (parts ++ [next])
    | none => return .inr parts) []

def headExpressions : Rule whole (List Expr) := do
  let (values, _) ← expressionList (fun before => g.expression true before .more) .more .more
  return values

def branch : Rule whole (Expr × List Stmt) := do
  let test ← g.expression true .more .more
  return (test, ← body g)

def branches : Rule whole Stmt := do
  let first ← branch g
  let more ← furtherParts "elif" (branch g)
  return .branches (first :: more) ((← furtherBody g "else").getD [])

def forLoop (isAsync : Bool) : Rule whole Stmt := do
  let targets ← loopTargets g
  Rule.word .more "in"
  let sources ← headExpressions g
  let block ← body g
  return .forLoop isAsync targets sources block ((← furtherBody g "else").getD [])

def whileLoop : Rule whole Stmt := do
  let (test, block) ← branch g
  return .whileLoop test block ((← furtherBody g "else").getD [])

/-- A handler of errors behind its keyword, which an asterisk may follow at once. -/
def handler : Rule whole (List Expr × List Stmt) := do
  let here ← Rule.cursor
  let grouped := here.rest.head? = some '*'
  if grouped then set here.next
  if (← Rule.peek .more) = .symbol ":" then return ([], ← body g)
  let errors ← commaSeparated (g.expression true .more .more) false .more
  return (errors, ← body g)

def guarded : Rule whole Stmt := do
  let block ← body g
  let handlers ← furtherParts "except" (handler g)
  let otherwise ← if handlers.isEmpty then pure none else furtherBody g "else"
  let cleanup ← furtherBody g "finally"
  if handlers.isEmpty && cleanup.isNone then failure
  return .guarded block handlers (otherwise.getD []) (cleanup.getD [])

/-- A statement with context managers, behind its keyword. -/
def withItems (isAsync : Bool) : Rule whole Stmt := do
  let items ← headExpressions g
  return .withItems isAsync items (← body g)

def parameters : Rule whole (List Parameter) := do
  Rule.symbol .more "("
  bracketed (parameter g true .bracket) ")" []

def optionalTypeParameters : Rule whole (Option String) := do
  if (← Rule.peek .more) = .symbol "[" then
    let ((), text, _) ← Rule.spanned .more do
      Rule.symbol .more "["
      typeParameters g
    return some text
  else return none

def optionalResult : Rule whole (Option String) := do
  if ← Rule.symbol? .more "->" then
    let ((), text, _) ← Rule.spanned .more (g.hint false .more .more)
    return some text
  else return none

def function (isAsync : Bool) : Rule whole Stmt := do
  let name ← Rule.identifier .more
  let _ ← optionalTypeParameters g
  let parameters ← parameters g
  let hint ← optionalResult g
  return .function isAsync name parameters hint (← body g)

/-- An argument that a class cannot be given: a clause of a generator. -/
def isClause : Argument → Bool
  | .clause .. => true
  | _ => false

/-- A class behind its keyword, which stands on the given line. -/
def declaration (line : Nat) : Rule whole Stmt := do
  let name ← Rule.identifier .more
  let typeParameters ← optionalTypeParameters g
  let bases ← if ← Rule.symbol? .more "(" then callArguments g else pure []
  if bases.any isClause then failure
  return .declaration line name typeParameters bases (← body g)

def matchCase : Rule whole (List Pattern × Option Expr × List Stmt) := do
  let first ← g.pattern .more .more
  let patterns ← Rule.loop (fun patterns => do
    if ← Rule.symbol? .more "," then
      match ← Rule.peek .more with
      | .symbol ":" => return .inr patterns
      | .name "if" => return .inr patterns
      | _ => return .inl (patterns ++ [← g.pattern .more .more])
    else return .inr patterns) [first]
  let guard ←
    if ← Rule.word? .more "if" then pure (some (← g.expression true .more .more))
    else pure none
  return (patterns, guard, ← body g)

def matching : Rule whole Stmt := do
  Rule.word .more "match"
  let subjects ← headExpressions g
  Rule.symbol .more ":"
  match (← Rule.cursor).suiteStart with
  | some (.empty after) =>
    set after
    return .matching subjects []
  | some (.block inside) =>
    set inside
    Rule.loop (fun cases => do
      match (← Rule.cursor).opening true with
      | some (.statement start) =>
        set start
        Rule.word .more "case"
        return .inl (cases ++ [← matchCase g])
      | some (.blockEnd after) =>
        set after
        return .inr (.matching subjects cases)
      | _ => failure) []
  | _ => failure

/-- A function, loop or managed block that may be suspended, if the word for it is followed by
one. -/
def asynchronous : Rule whole Stmt := do
  Rule.word .more "async"
  match ← Rule.take .more with
  | .name "def" => function g true
  | .name "for" => forLoop g true
  | .name "with" => withItems g true
  | _ => failure

/-- A class or function with decorators, each of which ends its line. -/
def decorated : Rule whole Stmt := do
  Rule.loop (fun decorators => do
    let line := (← Rule.cursor).line
    match ← Rule.take .more with
    | .symbol "@" =>
      let decorator ← g.expression true .more .line
      if (← Rule.peek .line) ≠ .lineEnd then failure
      match ← nextStatement with
      | some _ => return .inl (decorators ++ [decorator])
      | none => failure
    | .name "class" => return .inr (.decorated decorators (← declaration g line))
    | .name "def" => return .inr (.decorated decorators (← function g false))
    | .name "async" =>
      Rule.word .more "def"
      return .inr (.decorated decorators (← function g true))
    | _ => failure) []

/-- The statement, or the simple statements of one line, that begin where the cursor is. -/
def statements : Rule whole (List Stmt) := do
  let line := (← Rule.cursor).line
  let single (keyword : String) (statement : Rule whole Stmt) : Rule whole (List Stmt) := do
    Rule.word .more keyword
    return [← statement]
  match ← Rule.peek .more with
  | .name "if" => single "if" (branches g)
  | .name "for" => single "for" (forLoop g false)
  | .name "while" => single "while" (whileLoop g)
  | .name "try" => single "try" (guarded g)
  | .name "with" => single "with" (withItems g false)
  | .name "def" => single "def" (function g false)
  | .name "class" => single "class" (declaration g line)
  | .name "async" => Rule.either (do return [← asynchronous g]) (simpleStatements g true)
  | .name "match" => Rule.either (do return [← matching g]) (simpleStatements g true)
  | .symbol "@" => return [← decorated g]
  | _ => simpleStatements g true

/-- The statements of a block up to its end, or of a module up to the end of the text. -/
def block (inBlock : Bool) : Rule whole (List Stmt) :=
  Rule.loop (fun collected => do
    match (← Rule.cursor).opening inBlock with
    | some (.statement start) =>
      set start
      return .inl (collected ++ (← statements g))
    | some (.blockEnd after) =>
      set after
      return .inr collected
    | some .textEnd => if inBlock then failure else return .inr collected
    | none => failure) []

/-- The body of a compound statement, from behind its colon. -/
def suite : Rule whole (List Stmt) := do
  match (← Rule.cursor).suiteStart with
  | some (.sameLine start) =>
    set start
    simpleStatements g false
  | some (.block inside) =>
    set inside
    block g true
  | some (.empty after) =>
    set after
    return []
  | none => failure

end

end ElementBinding.Grammar
