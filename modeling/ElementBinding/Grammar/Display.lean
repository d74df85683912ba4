import ElementBinding.Grammar.StringLiteral
/-!
# Names, displays and calls

What an expression is built from: names and constants, displays in brackets with or without
comprehension clauses, and the attributes, subscripts and calls that trail them.
-/
namespace ElementBinding.Grammar

variable {whole : List Char}

def isValueName (word : String) : Bool :=
  !isReserved word || word = "async" || word = "await"

def constant? (word : String) : Option Constant :=
  if word = "True" then some .true
  else if word = "False" then some .false
  else if word = "None" then some .none
  else none

/-- A value spread over the elements around it: any expression behind an asterisk. -/
def spread (g : Rules whole) (before after : Place) : Rule whole Expr := do
  Rule.symbol before "*"
  return .splat (← g.expression true .more after)

/-- A value that a generator function hands out, behind its keyword. -/
def yielded (g : Rules whole) (after : Place) : Rule whole Expr := do
  if ← Rule.word? after "from" then
    return .yielded true [← g.expression true .more after]
  else if startsExpression (← Rule.peek after) then
    let (values, _) ← expressionList (fun before => g.expression true before after) after after
    return .yielded false values
  else return .yielded false []

def element (g : Rules whole) (before : Place) : Rule whole Expr := do
  match ← Rule.peek before with
  | .symbol "*" => spread g before .bracket
  | .name "yield" =>
    Rule.word before "yield"
    yielded g .bracket
  | _ => g.expression true before .bracket

mutual

def isAssignable : Expr → Bool
  | .name _ => true
  | .attribute .. => true
  | .subscript .. => true
  | .splat (.name _) => true
  | .splat (.attribute ..) => true
  | .splat (.subscript ..) => true
  | .parenthesized inner => isAssignable inner
  | .display .tuple elements => areAssignable elements
  | .display .list elements => areAssignable elements
  | _ => false

def areAssignable : List Expr → Bool
  | [] => true
  | first :: rest => isAssignable first && areAssignable rest

end

/-- An expression an asterisk may stand before wherever an operand may. -/
def takesAsterisk : Expr → Bool
  | .name _ => true
  | .attribute .. => true
  | .subscript .. => true
  | .call function _ => takesAsterisk function
  | _ => false

section

variable (g : Rules whole)

def loopTargets : Rule whole (List Expr) := do
  let (targets, _) ← expressionList (fun before => g.primary before .more) .more .more
  if areAssignable targets then return targets else failure

/-- The clauses of a comprehension, the first of which must be a loop. -/
def comprehensionClauses : Rule whole (List Clause) := do
  let loopClause (isAsync : Bool) : Rule whole Clause := do
    Rule.word .more "for"
    let targets ← loopTargets g
    Rule.word .more "in"
    let (sources, _) ← expressionList (fun before => g.expression false before .bracket)
      .more .bracket
    return .forIn isAsync targets sources
  Rule.loop (fun clauses => do
    match ← Rule.peek .bracket with
    | .name "for" => return .inl (clauses ++ [← loopClause false])
    | .name "async" =>
      Rule.word .bracket "async"
      return .inl (clauses ++ [← loopClause true])
    | .name "if" =>
      if clauses.isEmpty then failure
      Rule.word .bracket "if"
      return .inl (clauses ++ [.onlyIf (← g.expression false .more .bracket)])
    | _ => return .inr clauses) []

/-- A loop of a comprehension comes next. -/
def startsClause (token : Token) : Bool := token = .name "for" || token = .name "async"

/-- The rest of a display behind its opening bracket, with the closing one. -/
def displayRest (kind : Display) (closing : String) : Rule whole Expr := do
  if ← Rule.symbol? .bracket closing then return .display kind []
  let first ← element g .bracket
  if startsClause (← Rule.peek .bracket) then
    let clauses ← comprehensionClauses g
    Rule.symbol .bracket closing
    return .comprehension kind first clauses
  else if ← Rule.symbol? .bracket "," then
    return .display kind (← bracketed (element g) closing [first])
  else
    Rule.symbol .bracket closing
    return .display kind [first]

/-- What stands in round brackets: a tuple, a generator, or a single value. -/
def parenthesized : Rule whole Expr := do
  Rule.symbol .more "("
  if ← Rule.symbol? .bracket ")" then return .display .tuple []
  let first ← element g .bracket
  if startsClause (← Rule.peek .bracket) then
    let clauses ← comprehensionClauses g
    Rule.symbol .bracket ")"
    return .comprehension .generator first clauses
  else if ← Rule.symbol? .bracket "," then
    return .display .tuple (← bracketed (element g) ")" [first])
  else
    Rule.symbol .bracket ")"
    return .parenthesized first

def dictionaryEntry (before : Place) : Rule whole Expr := do
  if ← Rule.symbol? before "**" then
    return .doubleSplat (← g.expression true .more .bracket)
  let key ← g.expression true before .bracket
  Rule.symbol .bracket ":"
  return .pair key (← g.expression true .more .bracket)

def braced : Rule whole Expr := do
  Rule.symbol .more "\x7b"
  match ← Rule.peek .bracket with
  | .symbol "\x7d" =>
    Rule.symbol .bracket "\x7d"
    return .display .dictionary []
  | .symbol "," =>
    Rule.symbol .bracket ","
    Rule.symbol .bracket "\x7d"
    return .display .dictionary []
  | .symbol "**" =>
    return .display .dictionary (← bracketed (dictionaryEntry g) "\x7d" [])
  | _ =>
    let first ← element g .bracket
    if ← Rule.symbol? .bracket ":" then
      let first := Expr.pair first (← g.expression true .more .bracket)
      if startsClause (← Rule.peek .bracket) then
        let clauses ← comprehensionClauses g
        Rule.symbol .bracket "\x7d"
        return .comprehension .dictionary first clauses
      else if ← Rule.symbol? .bracket "," then
        return .display .dictionary (← bracketed (dictionaryEntry g) "\x7d" [first])
      else
        Rule.symbol .bracket "\x7d"
        return .display .dictionary [first]
    else if startsClause (← Rule.peek .bracket) then
      let clauses ← comprehensionClauses g
      Rule.symbol .bracket "\x7d"
      return .comprehension .set first clauses
    else if ← Rule.symbol? .bracket "," then
      return .display .set (← bracketed (element g) "\x7d" [first])
    else
      Rule.symbol .bracket "\x7d"
      return .display .set [first]

/-- The line continuations in the space ahead, as children of the argument list they stand in. -/
def continuationsAhead : Rule whole (List Argument) := do
  match (← Rule.cursor).gap .bracket with
  | some gap => return gap.continuations.map fun (text, line) => .continuation text line
  | none => failure

def keywordArgument : Rule whole Argument := do
  let (name, _, line) ← Rule.spanned .bracket do
    match ← Rule.take .bracket with
    | .name word => if isValueName word then return word else failure
    | _ => failure
  Rule.symbol .bracket "="
  let (value, text, valueLine) ← Rule.spanned .more (g.expression true .more .bracket)
  return .keyword name line value text valueLine

def positionalArgument : Rule whole Argument := do
  let (value, text, line) ← Rule.spanned .bracket (g.expression true .bracket .bracket)
  return .positional value text line

def argument : Rule whole Argument := do
  Rule.reach .bracket
  let line := (← Rule.cursor).line
  match ← Rule.peek .bracket with
  | .symbol "*" =>
    Rule.symbol .bracket "*"
    return .unpacked (← g.expression true .more .bracket) line
  | .symbol "**" =>
    Rule.symbol .bracket "**"
    return .unpacked (← g.expression true .more .bracket) line
  | _ => Rule.either (keywordArgument g) (positionalArgument g)

/-- The arguments of a call behind the opening bracket, with the closing one. A single argument may
be the body of a generator. -/
def callArguments : Rule whole (List Argument) := do
  let ahead ← continuationsAhead
  if ← Rule.symbol? .bracket "," then
    let ahead := ahead ++ (← continuationsAhead)
    Rule.symbol .bracket ")"
    return ahead
  Rule.loop (fun (arguments, isFirst) => do
    if ← Rule.symbol? .bracket ")" then return .inr arguments
    let next ← argument g
    let arguments := arguments ++ [next] ++ (← continuationsAhead)
    if ← Rule.symbol? .bracket "," then
      return .inl (arguments ++ (← continuationsAhead), false)
    else if isFirst && startsClause (← Rule.peek .bracket) then
      let line := (← Rule.cursor).line
      let clauses ← comprehensionClauses g
      let ahead ← continuationsAhead
      Rule.symbol .bracket ")"
      return .inr (arguments ++ clauses.map (.clause · line) ++ ahead)
    else
      Rule.symbol .bracket ")"
      return .inr arguments) (ahead, true)

def subscriptItem (before : Place) : Rule whole Expr := do
  let bound : Rule whole (List Expr) := do
    if startsExpression (← Rule.peek .bracket) then
      return [← g.expression true .bracket .bracket]
    else return []
  let sliceRest (lower : List Expr) : Rule whole Expr := do
    let upper ← bound
    if ← Rule.symbol? .bracket ":" then return .slice (lower ++ upper ++ (← bound))
    else return .slice (lower ++ upper)
  if ← Rule.symbol? before ":" then sliceRest []
  else
    let first ← g.expression true before .bracket
    if ← Rule.symbol? .bracket ":" then sliceRest [first] else return first

/-- The items of a subscript behind the opening bracket, with the closing one. -/
def subscriptItems : Rule whole (List Expr) := do
  let first ← subscriptItem g .more
  if ← Rule.symbol? .bracket "," then bracketed (subscriptItem g) "]" [first]
  else
    Rule.symbol .bracket "]"
    return [first]

/-- A name, a literal or a display. -/
def atom (before after : Place) : Rule whole Expr := do
  Rule.reach before
  match ← Rule.peek .more with
  | .quote => stringLiterals g .more after
  | .symbol "(" => parenthesized g
  | .symbol "[" =>
    Rule.symbol .more "["
    displayRest g .list "]"
  | .symbol "\x7b" => braced g
  | _ =>
    match ← Rule.take .more with
    | .integer digits => return .integer digits
    | .real digits => return .real digits
    | .symbol "..." => return .constant .ellipsis
    | .name word =>
      match constant? word with
      | some value => return .constant value
      | none => if isValueName word then return .name word else failure
    | _ => failure

/-- What trails an operand that begins at some offset: an attribute, a call or a subscript. -/
def trailer (after : Place) (start : Nat) (base : Expr) : Rule whole (Expr ⊕ Expr) := do
  match ← Rule.peek after with
  | .symbol "." =>
    Rule.symbol after "."
    Rule.reach .more
    let offset := (← Rule.cursor).offset
    let name ← Rule.identifier .more
    Rule.noteOperand offset
    return .inl (.attribute base name)
  | .symbol "(" =>
    Rule.symbol after "("
    let arguments ← callArguments g
    Rule.noteOperand start
    return .inl (.call base arguments)
  | .symbol "[" =>
    Rule.symbol after "["
    let items ← subscriptItems g
    Rule.noteOperand start
    return .inl (.subscript base items)
  | _ => return .inr base

/-- An operand that begins at some offset with all that trails it. -/
def trailing (after : Place) (start : Nat) (base : Expr) : Rule whole Expr := do
  Rule.noteOperand start
  Rule.loop (trailer g after start) base

/-- An operand with what trails it. An asterisk may stand before it. -/
def trailed (before after : Place) : Rule whole Expr := do
  if ← Rule.symbol? before "*" then
    Rule.reach .more
    let start := (← Rule.cursor).offset
    let base ← trailing g after start (← atom g .more after)
    if takesAsterisk base then return .splat base else failure
  else
    Rule.reach before
    let start := (← Rule.cursor).offset
    trailing g after start (← atom g .more after)

end

end ElementBinding.Grammar
