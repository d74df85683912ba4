import ElementBinding.Grammar.Display
/-!
# Expressions

Operators, from the arithmetical ones to the Boolean and conditional ones, and the annotations of
parameters and targets. What matters later is whether an expression is a call, a name or an integer
and nothing more, so operators of different strength may share a chain.
-/
namespace ElementBinding.Grammar

variable {whole : List Char}

/-- The operators between operands of arithmetic. -/
def arithmeticalOperators : List String :=
  ["+", "-", "*", "/", "//", "%", "@", "**", "|", "&", "^", "<<", ">>"]

/-- The signs of comparison; there are words for it besides. -/
def comparisonSigns : List String := ["<", "<=", "==", "!=", ">=", ">", "<>"]

section

variable (g : Rules whole)

/-- An operand of arithmetic. The word for awaiting is a name where no operand follows it. -/
def factor (before after : Place) : Rule whole Expr := do
  match ← Rule.peek before with
  | .symbol "+" =>
    Rule.symbol before "+"
    return .unary "+" (← g.factor .more after)
  | .symbol "-" =>
    Rule.symbol before "-"
    return .unary "-" (← g.factor .more after)
  | .symbol "~" =>
    Rule.symbol before "~"
    return .unary "~" (← g.factor .more after)
  | .name "await" =>
    Rule.reach before
    let named := trailed g .more after
    let awaited : Rule whole Expr := do
      Rule.word .more "await"
      return .awaited (← g.factor after after)
    let start ← Rule.cursor
    Rule.word .more "await"
    match ← Rule.peek after with
    | .symbol "*" => set start; named
    | .symbol "-" => set start; named
    | .symbol "+" => set start; named
    | token =>
      set start
      if startsFactor token then Rule.either awaited named else named
  | _ => trailed g before after

def chain (before after : Place) : Rule whole Expr := do
  let first ← factor g before after
  let rest ← Rule.loop (fun rest => do
    match ← Rule.peek after with
    | .symbol sign =>
      if arithmeticalOperators.contains sign then
        Rule.symbol after sign
        return .inl (rest ++ [(sign, ← factor g .more after)])
      else return .inr rest
    | _ => return .inr rest) []
  return if rest.isEmpty then first else .chain first rest

/-- Takes the operator of comparison that is next, if one is. -/
def comparisonOperator? (after : Place) : Rule whole (Option String) := do
  match ← Rule.peek after with
  | .symbol sign =>
    if comparisonSigns.contains sign then
      Rule.symbol after sign
      return some sign
    else return none
  | .name "in" =>
    Rule.word after "in"
    return some "in"
  | .name "not" =>
    Rule.word after "not"
    Rule.word .more "in"
    return some "not in"
  | .name "is" =>
    Rule.word after "is"
    return some (if ← Rule.word? .more "not" then "is not" else "is")
  | _ => return none

/-- Chains with the signs of comparison between them. -/
def comparison (before after : Place) : Rule whole Expr := do
  let first ← chain g before after
  let rest ← Rule.loop (fun rest => do
    match ← comparisonOperator? after with
    | some sign => return .inl (rest ++ [(sign, ← chain g .more after)])
    | none => return .inr rest) []
  return if rest.isEmpty then first else .comparison first rest

/-- What an asterisk in a list of parameters may stand before. -/
def gatheringTarget (after : Place) : Rule whole Expr := do
  let target ← trailed g .more after
  match target with
  | .name _ => return target
  | .attribute .. => return target
  | .subscript .. => return target
  | _ => failure

/-- A parameter; `annotated` allows annotations. -/
def parameter (annotated : Bool) (after before : Place) : Rule whole Parameter := do
  let hint? : Rule whole (Option String) := do
    if annotated then
      if ← Rule.symbol? after ":" then
        let ((), text, _) ← Rule.spanned .more (g.hint true .more after)
        return some text
    return none
  let default? : Rule whole (Option Expr) := do
    if ← Rule.symbol? after "=" then return some (← g.expression true .more after)
    else return none
  match ← Rule.peek before with
  | .symbol "/" =>
    Rule.symbol before "/"
    return .positionalOnly
  | .symbol "**" =>
    Rule.symbol before "**"
    let target ← gatheringTarget g after
    return .keywords target (← hint?)
  | .symbol "*" =>
    Rule.symbol before "*"
    match ← Rule.peek after with
    | .name _ =>
      let target ← gatheringTarget g after
      return .rest target (← hint?)
    | .symbol "," => return .keywordOnly
    | .symbol ")" => return .keywordOnly
    | .symbol ":" => return .keywordOnly
    | _ =>
      let target ← gatheringTarget g after
      return .rest target (← hint?)
  | .symbol "(" =>
    let target ← g.primary before after
    if isAssignable target then return .grouped target (← default?) else failure
  | _ =>
    let name ← Rule.identifier before
    let hint ← hint?
    return .plain name hint (← default?)

def lambdaParameters : Rule whole (List Parameter) := do
  if ← Rule.symbol? .more ":" then return []
  let first ← parameter g false .more .more
  Rule.loop (fun parameters => do
    if ← Rule.symbol? .more ":" then return .inr parameters
    Rule.symbol .more ","
    if ← Rule.symbol? .more ":" then return .inr parameters
    return .inl (parameters ++ [← parameter g false .more .more])) [first]

def operand (conditional : Bool) (before after : Place) : Rule whole Expr := do
  match ← Rule.peek before with
  | .name "not" =>
    Rule.word before "not"
    return .negation (← g.operand conditional .more after)
  | .name "lambda" =>
    Rule.word before "lambda"
    let parameters ← lambdaParameters g
    return .lambda parameters (← g.expression conditional .more after)
  | _ =>
    let first ← comparison g before after
    match first with
    | .name name =>
      if ← Rule.symbol? after ":=" then
        return .named name (← g.expression conditional .more after)
      else return first
    | _ => return first

/-- An expression: operands of the Boolean operators, renamed or chosen by a condition. -/
def expression (conditional : Bool) (before after : Place) : Rule whole Expr := do
  let first ← operand g conditional before after
  Rule.loop (fun left => do
    match ← Rule.peek after with
    | .name "and" =>
      Rule.word after "and"
      return .inl (.junction "and" left (← g.operand conditional .more after))
    | .name "or" =>
      Rule.word after "or"
      return .inl (.junction "or" left (← g.operand conditional .more after))
    | .name "as" =>
      Rule.word after "as"
      return .inl (.aliased left (← g.operand conditional .more after))
    | .name "if" =>
      if conditional then
        Rule.word after "if"
        let test ← g.expression true .more .more
        Rule.word .more "else"
        return .inl (.conditional left test (← g.expression true .more after))
      else return .inr left
    | _ => return .inr left) first

/-- Words that are names, but not where a generic type may begin. -/
def plainOnlyWords : List String := ["print", "exec", "async", "await", "match"]

/-- What may follow a generic type: alternatives, members, and a bound if `bounded` holds. -/
def hintRest (bounded : Bool) (after : Place) : Rule whole Unit :=
  Rule.loop (fun _ => do
    match ← Rule.peek after with
    | .symbol "|" =>
      Rule.symbol after "|"
      g.hint bounded .more after
      return .inr ()
    | .symbol "." =>
      Rule.symbol after "."
      let _ ← Rule.identifier .more
      return .inl ()
    | .symbol ":" =>
      if bounded then
        Rule.symbol after ":"
        g.hint bounded .more after
        return .inr ()
      else return .inr ()
    | _ => return .inr ()) ()

/-- The parameters of a generic type, behind the opening bracket, with the closing one. -/
def typeParameters : Rule whole Unit := do
  g.hint true .more .bracket
  if ← Rule.symbol? .bracket "," then
    let _ ← bracketed (fun before => g.hint true before .bracket) "]" []
  else Rule.symbol .bracket "]"

def genericType (bounded : Bool) (before after : Place) : Rule whole Unit := do
  let name ← Rule.identifier before
  if plainOnlyWords.contains name then failure
  Rule.symbol after "["
  typeParameters g
  hintRest g bounded after

/-- A name with an opening bracket behind it comes next, so a generic type must be read. -/
def startsGenericType (before after : Place) : Rule whole Bool := fun c =>
  let ahead : Rule whole Bool := do
    let name ← Rule.identifier before
    return !plainOnlyWords.contains name && (← Rule.peek after) = .symbol "["
  match ahead c with
  | some (answer, _) => some (answer, c)
  | none => some (false, c)

def hint (bounded : Bool) (before after : Place) : Rule whole Unit := do
  if ← startsGenericType before after then genericType g bounded before after
  else
    if ← Rule.symbol? before "**" then
      let _ ← Rule.identifier .more
    else
      let _ ← expression g true before after
    if bounded then
      if ← Rule.symbol? after ":" then g.hint bounded .more after

/-- A value embedded in a formatted string, from behind its opening brace, and those embedded in its
format. -/
def hole : Rule whole (List Expr) := do
  let value ←
    if (← Rule.peek .bracket) = .name "yield" then
      Rule.word .bracket "yield"
      yielded g .bracket
    else
      let (values, isList) ← expressionList (fun before => g.expression true before .bracket)
        .bracket .bracket
      match values, isList with
      | [value], false => pure value
      | _, _ => pure (.display .tuple values)
  return value :: (← holeEnd g)

end

end ElementBinding.Grammar
