import ElementBinding.Grammar.Expression
/-!
# Simple statements

Statements that end with their line or at a semicolon: expressions and assignments, imports, and
the statements with a keyword of their own.
-/
namespace ElementBinding.Grammar

variable {whole : List Char}

/-- The operators of assignment. All but the first compute from the target what they assign. -/
def assigningOperators : List String :=
  ["=", "+=", "-=", "*=", "/=", "@=", "//=", "%=", "**=", ">>=", "<<=", "&=", "^=", "|="]

/-- Items separated by commas that end with the line; a comma may follow the last if `trailing`
holds. -/
def commaSeparated (item : Rule whole α) (trailing : Bool) (after : Place) :
    Rule whole (List α) := do
  let first ← item
  Rule.loop (fun items => do
    if ← Rule.symbol? after "," then
      if trailing then
        match ← Rule.peek after with
        | .name _ => return .inl (items ++ [← item])
        | _ => return .inr items
      else return .inl (items ++ [← item])
    else return .inr items) [first]

section

variable (g : Rules whole)

/-- Expressions up to the end of the line, and whether a comma follows the last. -/
def lineExpressions (before : Place) : Rule whole (List Expr × Bool) :=
  expressionList (fun before => g.expression true before .line) before .line

/-- Expressions or an assignment, as they stand on a line and on the right of an assignment. -/
def assigned (before : Place) : Rule whole Value := do
  if (← Rule.peek before) = .name "yield" then
    let (value, _, line) ← Rule.spanned before do
      Rule.word .more "yield"
      yielded g .line
    return .single value line
  let ((values, trailing), text, line) ← Rule.spanned before (lineExpressions g .more)
  let isList := trailing || values.length ≠ 1
  let assignment (hint : Option String) (operator : String) (value : Option Value) :
      Rule whole Value :=
    if areAssignable values then
      return .nested (.mk line ⟨isList, values, text⟩ hint operator value)
    else failure
  let next ← Rule.peek .line
  match next with
  | .symbol ":" =>
    Rule.symbol .line ":"
    let ((), hint, _) ← Rule.spanned .more (g.hint true .more .line)
    if ← Rule.symbol? .line "=" then
      assignment (some hint) "=" (some (← g.value))
    else assignment (some hint) "=" none
  | _ =>
    match (assigningOperators.find? fun sign => next = .symbol sign), values, isList with
    | some sign, _, _ =>
      Rule.symbol .line sign
      assignment none sign (some (← g.value))
    | none, [value], false => return .single value line
    | none, _, _ => return .several values

def expressionStatement : Rule whole Stmt := do
  match ← assigned g .more with
  | .single value _ => return .expression [value]
  | .several values => return .expression values
  | .nested assignment => return .assignment assignment

def dottedName (before after : Place) : Rule whole (List String) := do
  let first ← Rule.identifier before
  Rule.loop (fun parts => do
    if ← Rule.symbol? after "." then return .inl (parts ++ [← Rule.identifier .more])
    else return .inr parts) [first]

/-- What an import names, and the name it is given. -/
def importedName (before after : Place) : Rule whole (List String × Option String) := do
  let parts ← dottedName before after
  if ← Rule.word? after "as" then return (parts, some (← Rule.identifier .more))
  else return (parts, none)

/-- The names of an import from a module, which may stand in brackets. -/
def importedNames : Rule whole (List (List String × Option String)) := do
  if ← Rule.symbol? .more "(" then
    let first ← importedName .more .bracket
    if ← Rule.symbol? .bracket "," then
      bracketed (fun before => importedName before .bracket) ")" [first]
    else
      Rule.symbol .bracket ")"
      return [first]
  else commaSeparated (importedName .more .line) true .line

def leadingDots : Rule whole Nat :=
  Rule.loop (fun dots => do
    match ← Rule.peek .more with
    | .symbol "." =>
      Rule.symbol .more "."
      return .inl (dots + 1)
    | .symbol "..." =>
      Rule.symbol .more "..."
      return .inl (dots + 3)
    | _ => return .inr dots) 0

def importFrom : Rule whole Stmt := do
  let dots ← leadingDots
  let source ←
    if dots ≠ 0 && (← Rule.peek .more) = .name "import" then pure []
    else dottedName .more .more
  Rule.word .more "import"
  if (← Rule.peek .more) = .symbol "*" && source ≠ ["__future__"] then
    Rule.symbol .more "*"
    return .importAll dots source
  else return .importFrom dots source (← importedNames)

def optionalExpressions : Rule whole (List Expr) := do
  if startsExpression (← Rule.peek .line) then
    let (values, _) ← lineExpressions g .line
    return values
  else return []

/-- A statement that begins with the given keyword, which has been passed. -/
def keywordStatement (keyword : String) : Rule whole Stmt := do
  match keyword with
  | "import" => return .importNames (← commaSeparated (importedName .more .line) true .line)
  | "from" => importFrom
  | "assert" => return .assertion (← commaSeparated (g.expression true .more .line) false .line)
  | "return" => return .returning (← optionalExpressions g)
  | "del" =>
    let (values, _) ← lineExpressions g .more
    return .deleting values
  | "raise" =>
    let values ← optionalExpressions g
    if ← Rule.word? .line "from" then
      return .raising values (some (← g.expression true .more .line))
    else return .raising values none
  | "pass" => return .pass
  | "break" => return .breaking
  | "continue" => return .continuing
  | "global" => return .global (← commaSeparated (Rule.identifier .more) false .line)
  | "nonlocal" => return .nonlocal (← commaSeparated (Rule.identifier .more) false .line)
  | _ => failure

/-- The words that begin a statement of their own kind. -/
def statementKeywords : List String :=
  ["import", "from", "assert", "return", "del", "raise", "pass", "break", "continue", "global",
    "nonlocal"]

def printStatement : Rule whole Stmt := do
  Rule.word .more "print"
  if ← Rule.symbol? .more ">>" then
    let target ← g.expression true .more .line
    if ← Rule.symbol? .line "," then
      let values ← optionalExpressions g
      return .print (target :: values)
    else return .print [target]
  else
    let (values, _) ← lineExpressions g .more
    return .print values

/-- A statement that executes the code in a string or a variable. -/
def executeStatement : Rule whole Stmt := do
  Rule.word .more "exec"
  let code ←
    if (← Rule.peek .more) = .quote then
      let (holes, text, _) ← Rule.spanned .more (stringLiteral g .more)
      pure (Expr.string text holes)
    else pure (.name (← Rule.identifier .more))
  if ← Rule.word? .line "in" then
    return .execute (code :: (← commaSeparated (g.expression true .more .line) false .line))
  else return .execute [code]

def typeAliasStatement : Rule whole Stmt := do
  let ((), text, _) ← Rule.spanned .more do
    Rule.word .more "type"
    g.hint true .more .more
    Rule.symbol .more "="
    g.hint true .more .line
  return .typeAlias text

/-- A token that begins a compound statement. -/
def startsCompound : Token → Bool
  | .name word =>
    ["class", "def", "if", "for", "while", "with", "try", "async"].contains word
  | .symbol text => text = "@"
  | _ => false

/-- The words that begin a statement and cannot continue one. -/
def beginningWords : List String :=
  ["import", "assert", "return", "del", "raise", "pass", "break", "continue", "global", "nonlocal",
    "class", "def", "for", "while", "with", "try"]

/-- What the innermost assignment of a statement assigns, or the expression a statement is. -/
def lastValue? : Stmt → Option Expr
  | .expression [value] => some value
  | .assignment (.mk _ _ _ _ value) => ofValue value
  | _ => none
where
  /-- The expression that is assigned in the end. -/
  ofValue : Option Value → Option Expr
    | some (.single value _) => some value
    | some (.nested (.mk _ _ _ _ value)) => ofValue value
    | _ => none

/-- A text is so long that a missing line end is supposed rather than the text passed over. -/
def isLong (text : String) : Bool := 10 < text.utf8ByteSize

/-- Whether the statement that reaches from `start` to here has ended, though no line end follows.
A word that begins a statement tells so if what was read is long, or if `fresh` does not hold and
a compound statement could not have begun at `start`. A name that is assigned to tells so if the
last operand is long and the name is not itself taken for a slip in a chain of targets. -/
def isCutShort (fresh : Bool) (start : Cursor whole) (statement : Stmt) : Rule whole Bool := do
  let here ← Rule.cursor
  match ← Rule.peek .line with
  | .name word =>
    if beginningWords.contains word then
      return isLong (start.textTo here) || (!fresh && startsCompound (.name word))
    else if isReserved word then return false
    else
      Rule.reach .line
      let _ ← Rule.take .line
      let sign ← Rule.peek .line
      set here
      let operand := start.rest.drop (here.operand - start.offset)
      let assigned := assigningOperators.any (sign = .symbol ·) || sign = .symbol ":"
      let chained := match lastValue? statement with
        | some value => areAssignable [value] && word.utf8ByteSize < 10
        | none => false
      return assigned && !chained &&
        isLong (String.ofList (operand.take (here.offset - here.operand)))
  | _ => return false

/-- A statement that a line end or a semicolon follows, or another statement in whose place none
can be seen. -/
def ended (fresh : Bool) (statement : Rule whole Stmt) : Rule whole Stmt := do
  Rule.reach .more
  let start ← Rule.cursor
  let result ← statement
  match ← Rule.peek .line with
  | .lineEnd => return result
  | .symbol ";" => return result
  | _ => if ← isCutShort fresh start result then return result else failure

def simpleStatement (fresh : Bool) : Rule whole Stmt := do
  let ended := ended fresh
  match ← Rule.peek .more with
  | .name "print" => Rule.either (ended (expressionStatement g)) (ended (printStatement g))
  | .name "exec" => Rule.either (ended (expressionStatement g)) (ended (executeStatement g))
  | .name "type" => Rule.either (ended (typeAliasStatement g)) (ended (expressionStatement g))
  | .name word =>
    if statementKeywords.contains word then
      ended do
        Rule.word .more word
        keywordStatement g word
    else ended (expressionStatement g)
  | _ => ended (expressionStatement g)

/-- The simple statements of a line. A compound statement that follows a semicolon begins a line of
its own; `fresh` tells that the first could be one, too. -/
def simpleStatements (fresh : Bool) : Rule whole (List Stmt) := do
  let first ← simpleStatement g fresh
  Rule.loop (fun statements => do
    if ← Rule.symbol? .line ";" then
      let next ← Rule.peek .line
      if next = .lineEnd || startsCompound next then return .inr statements
      Rule.reach .line
      return .inl (statements ++ [← simpleStatement g false])
    else return .inr statements) [first]

end

end ElementBinding.Grammar
