import ElementBinding.Grammar.Expression
/-!
# Patterns

The patterns of a match statement: literals, names, sequences, mappings and constructors, their
alternatives, and the names they are bound to.
-/
namespace ElementBinding.Grammar

variable {whole : List Char}

section

variable (g : Rules whole)

/-- A number, perhaps with a minus sign, perhaps with a second part. -/
def numberPattern (after : Place) : Rule whole Pattern := do
  let number (before : Place) : Rule whole Expr := do
    match ← Rule.take before with
    | .integer digits => return .integer digits
    | .real digits => return .real digits
    | _ => failure
  let negative ← Rule.symbol? .more "-"
  let first ← number .more
  let value := if negative then .unary "-" first else first
  match ← Rule.peek after with
  | .symbol "+" =>
    Rule.symbol after "+"
    return .literal (.chain value [("+", ← number .more)])
  | .symbol "-" =>
    Rule.symbol after "-"
    return .literal (.chain value [("-", ← number .more)])
  | _ => return .literal value

def namedPattern (after : Place) : Rule whole Pattern := do
  let first ← Rule.identifier .more
  let parts ← Rule.loop (fun parts => do
    if ← Rule.symbol? after "." then return .inl (parts ++ [← Rule.identifier .more])
    else return .inr parts) [first]
  if ← Rule.symbol? after "(" then
    return .construct parts (← bracketed (fun before => g.pattern before .bracket) ")" [])
  else if parts = ["_"] then return .wildcard
  else return .capture parts

/-- The rest of a sequence in brackets; a comma behind the only part makes no difference. -/
def sequencePattern (closing : String) : Rule whole Pattern := do
  return .sequence (← bracketed (fun before => g.pattern before .bracket) closing [])

/-- What follows the asterisks of a pattern. -/
def splatPattern : Rule whole Pattern := do
  return .splat (← Rule.identifier .more)

def singlePattern (before after : Place) : Rule whole Pattern := do
  Rule.reach before
  match ← Rule.peek .more with
  | .quote => return .literal (← stringLiterals g .more after)
  | .integer _ => numberPattern after
  | .real _ => numberPattern after
  | .symbol "-" => numberPattern after
  | .symbol "*" =>
    Rule.symbol .more "*"
    splatPattern
  | .symbol "**" =>
    Rule.symbol .more "**"
    splatPattern
  | .symbol "[" =>
    Rule.symbol .more "["
    sequencePattern g "]"
  | .symbol "(" =>
    Rule.symbol .more "("
    sequencePattern g ")"
  | .symbol "\x7b" =>
    Rule.symbol .more "\x7b"
    let entry (before : Place) : Rule whole Pattern := do
      let pattern ← g.pattern before .bracket
      if ← Rule.symbol? .bracket ":" then return .entry pattern (← g.pattern .more .bracket)
      else match pattern with
        | .splat name => return .splat name
        | _ => failure
    return .mapping (← bracketed entry "\x7d" [])
  | .name word =>
    match constant? word with
    | some value =>
      Rule.word .more word
      return .literal (.constant value)
    | none => namedPattern g after
  | _ => failure

def choicePattern (before after : Place) : Rule whole Pattern := do
  let first ← singlePattern g before after
  let choices ← Rule.loop (fun choices => do
    if ← Rule.symbol? after "|" then return .inl (choices ++ [← singlePattern g .more after])
    else return .inr choices) [first]
  return if choices.length = 1 then first else .oneOf choices

/-- A pattern, perhaps for a keyword, and the names it is bound to. -/
def pattern (before after : Place) : Rule whole Pattern := do
  let first ← choicePattern g before after
  let first ←
    match first with
    | .capture [name] =>
      if ← Rule.symbol? after "=" then pure (.keyword name (← choicePattern g .more after))
      else pure first
    | _ => pure first
  Rule.loop (fun inner => do
    if ← Rule.word? after "as" then return .inl (.aliased inner (← Rule.identifier .more))
    else return .inr inner) first

end

end ElementBinding.Grammar
