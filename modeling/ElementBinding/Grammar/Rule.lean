import ElementBinding.Grammar.Token
import ElementBinding.Grammar.Tree
/-!
# Rules of a grammar

A rule reads from a cursor and may fail. Rules that contain each other are kept in one record, and
each level of nesting uses the record one level below, so that no rule calls itself. The steps that
every rule is made of stand here: looking at a token, taking one, repeating.
-/
namespace ElementBinding.Grammar

/-- A rule of the grammar: reads a value and moves on, or fails. -/
abbrev Rule (whole : List Char) := StateT (Cursor whole) Option

/-- The rules for what may be nested in other things. -/
structure Rules (whole : List Char) where
  /-- An expression; `conditional` allows it to be a conditional one, and the two places tell what
  a line end means before and after it. -/
  expression : (conditional : Bool) → (before after : Place) → Rule whole Expr
  operand : (conditional : Bool) → (before after : Place) → Rule whole Expr
  factor : (before after : Place) → Rule whole Expr
  /-- A name, literal or display with the attributes, subscripts and calls that trail it. -/
  primary : (before after : Place) → Rule whole Expr
  /-- A type annotation; `bounded` allows a bound behind a colon. -/
  hint : (bounded : Bool) → (before after : Place) → Rule whole Unit
  /-- A value embedded in a formatted string, from behind its opening brace, and those embedded in
  its format. -/
  hole : Rule whole (List Expr)
  value : Rule whole Value
  pattern : (before after : Place) → Rule whole Pattern
  /-- The body of a compound statement, from behind its colon. -/
  suite : Rule whole (List Stmt)

variable {whole : List Char}

/-- The rules at the deepest level allowed, which all fail. -/
def Rules.none : Rules whole where
  expression _ _ _ := failure
  operand _ _ _ := failure
  factor _ _ := failure
  primary _ _ := failure
  hint _ _ _ := failure
  hole := failure
  value := failure
  pattern _ _ := failure
  suite := failure

namespace Rule

def cursor : Rule whole (Cursor whole) := get

/-- Notes where the operand begins that was read last. -/
def noteOperand (offset : Nat) : Rule whole Unit := modify fun c => { c with operand := offset }

/-- Crosses the space before a token; fails at the end of a statement's line. -/
def reach (place : Place) : Rule whole Unit := do
  match (← get).gap place with
  | some gap => if gap.lineEnds then failure else set gap.stop
  | none => failure

def peek (place : Place) : Rule whole Token := do
  match (← get).gap place with
  | some gap => return if gap.lineEnds then .lineEnd else gap.stop.token.1
  | none => failure

def take (place : Place) : Rule whole Token := do
  reach place
  let here ← get
  let (token, length) := here.token
  set (here.skip length)
  return token

/-- Takes the next token, which must be the given symbol. -/
def symbol (place : Place) (text : String) : Rule whole Unit := do
  if (← take place) = .symbol text then return else failure

def word (place : Place) (text : String) : Rule whole Unit := do
  if (← take place) = .name text then return else failure

/-- Takes the given symbol if it is next. -/
def symbol? (place : Place) (text : String) : Rule whole Bool := do
  if (← peek place) = .symbol text then
    let _ ← take place
    return true
  else return false

def word? (place : Place) (text : String) : Rule whole Bool := do
  if (← peek place) = .name text then
    let _ ← take place
    return true
  else return false

/-- Takes a name that is not reserved. -/
def identifier (place : Place) : Rule whole String := do
  match ← take place with
  | .name text => if isReserved text then failure else return text
  | _ => failure

/-- Repeats a step until it gives a result. -/
def iterate (step : σ → Rule whole (σ ⊕ α)) : (fuel : Nat) → σ → Rule whole α
  | 0, _ => failure
  | fuel + 1, state => do
    match ← step state with
    | .inl state => iterate step fuel state
    | .inr result => return result

/-- Repeats a step of which each but the last moves on. -/
def loop (step : σ → Rule whole (σ ⊕ α)) (state : σ) : Rule whole α := do
  iterate step ((← get).size + 2) state

/-- A rule together with the source text and the line of what it reads. -/
def spanned (place : Place) (rule : Rule whole α) : Rule whole (α × String × Nat) := do
  reach place
  let start ← get
  let result ← rule
  return (result, start.textTo (← get), start.line)

/-- The first of two rules that succeeds. -/
def either (first second : Rule whole α) : Rule whole α := fun c =>
  match first c with
  | some result => some result
  | none => second c

end Rule

/-- A token that an expression may begin with. -/
def startsExpression : Token → Bool
  | .quote => true
  | .integer _ => true
  | .real _ => true
  | .name text =>
    !isReserved text ||
      ["True", "False", "None", "not", "lambda", "await", "async"].contains text
  | .symbol text => ["(", "[", "\x7b", "-", "+", "~", "*", "..."].contains text
  | _ => false

/-- A token that an operand of arithmetic may begin with. -/
def startsFactor : Token → Bool
  | .name "not" => false
  | .name "lambda" => false
  | token => startsExpression token

/-- Expressions separated by commas, and whether there is a comma after the last. -/
def expressionList (item : (before : Place) → Rule whole Expr) (before after : Place) :
    Rule whole (List Expr × Bool) := do
  let first ← item before
  Rule.loop (fun items => do
    if ← Rule.symbol? after "," then
      if startsExpression (← Rule.peek after) then
        return .inl (items ++ [← item after])
      else return .inr (items, true)
    else return .inr (items, false)) [first]

/-- Items separated by commas up to a closing bracket, which is taken; a comma may follow the
last. -/
def bracketed (item : (before : Place) → Rule whole α) (closing : String) (items : List α) :
    Rule whole (List α) :=
  Rule.loop (fun items => do
    if ← Rule.symbol? .bracket closing then return .inr items
    let items := items ++ [← item .bracket]
    if ← Rule.symbol? .bracket "," then return .inl items
    Rule.symbol .bracket closing
    return .inr items) items

end ElementBinding.Grammar
