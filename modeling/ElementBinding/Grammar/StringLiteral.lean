import ElementBinding.Grammar.Rule
/-!
# String literals

The inside of a string literal is read piece by piece. A piece ends at an escape sequence, at an
embedded expression of a formatted string, or at the closing quotes. A line end closes no string
with triple quotes; in the others it is an error unless a piece begins with it.
-/
namespace ElementBinding.Grammar
open ElementBinding.Text

variable {whole : List Char}

/-- The length of the escape sequence behind a backslash; zero if the backslash stands for
itself. -/
def escapeLength : List Char → Nat
  | '\n' :: _ => 1
  | '\r' :: '\n' :: _ => 2
  | c :: rest =>
    let hex (width : Nat) : Nat :=
      let digits := rest.take width
      if digits.length = width && digits.all (fun d => (digitValue? 16 d).isSome) then width + 1
      else 0
    if c = 'u' then hex 4
    else if c = 'U' then hex 8
    else if c = 'x' then hex 2
    else if c.isDigit then ((c :: rest).take 3 |>.takeWhile (·.isDigit)).length
    else if "'\"abfrntv\\".toList.contains c then 1
    else if c = 'N' then
      match rest with
      | open' :: named =>
        let name := named.takeWhile fun d => d.toNat ≠ 0x7D
        if open'.toNat = 0x7B && name ≠ [] && name.length < named.length then name.length + 3 else 0
      | [] => 0
    else 0
  | [] => 0

/-- What comes next inside a string literal. -/
inductive StringStep where
  /-- Characters of the current piece; the piece has begun if `begun` holds. -/
  | content (length : Nat) (begun : Bool)
  | hole
  | close (length : Nat)
  | broken
deriving DecidableEq

/-- How many characters behind a backslash belong to it in a raw string: a quote or backslash, and
a line end. -/
def rawEscapeLength (quote : Char) (rest : List Char) : Nat :=
  let escaped := match rest with
    | c :: _ => if c = quote || c = '\\' then 1 else 0
    | [] => 0
  match rest.drop escaped with
  | '\r' :: '\n' :: _ => escaped + 2
  | '\r' :: _ => escaped + 1
  | '\n' :: _ => escaped + 1
  | _ => escaped

def stringStep (d : Delimiter) (begun : Bool) : List Char → StringStep
  | [] => .broken
  | c :: rest =>
    if d.format && (c.toNat = 0x7B || c.toNat = 0x7D) then
      if rest.head? = some c then .content 2 false
      else if c.toNat = 0x7B then .hole
      else .broken
    else if c = '\\' then
      if d.raw then .content (rawEscapeLength d.quote rest + 1) begun
      else if d.bytes && (rest.head?.map fun e => e = 'N' || e = 'u' || e = 'U').getD false then
        .content 3 true
      else .content (escapeLength rest + 1) false
    else if c = d.quote then
      if !d.triple then .close 1
      else match rest with
        | second :: third :: _ =>
          if second = d.quote then
            if third = d.quote then .close 3 else .content 2 false
          else .content 1 false
        | [second] => .content (if second = d.quote then 2 else 1) false
        | [] => .content 1 false
    else if c = '\n' && begun && !d.triple then .broken
    else .content 1 true

/-- The rest of a string literal behind its opening quotes: the expressions embedded in it. -/
def stringRest (g : Rules whole) (d : Delimiter) : Rule whole (List Expr) :=
  Rule.loop (fun (begun, holes) => do
    let here ← Rule.cursor
    match stringStep d begun here.rest with
    | .content length begun =>
      set (here.skip length)
      return .inl (begun, holes)
    | .hole =>
      set here.next
      return .inl (false, holes ++ (← g.hole))
    | .close length =>
      set { here.skip length with inFormat := false }
      return .inr holes
    | .broken => failure) (false, [])

def stringLiteral (g : Rules whole) (before : Place) : Rule whole (List Expr) := do
  Rule.reach before
  let here ← Rule.cursor
  match openString? here.rest with
  | some (d, length) =>
    set { here.skip length with inFormat := d.format }
    stringRest g d
  | none => failure

def stringLiterals (g : Rules whole) (before after : Place) : Rule whole Expr := do
  let (holes, text, _) ← Rule.spanned before do
    let first ← stringLiteral g before
    Rule.loop (fun holes => do
      if (← Rule.peek after) = .quote then return .inl (holes ++ (← stringLiteral g after))
      else return .inr holes) first
  return .string text holes

/-- The format text behind the colon of an embedded expression, up to its closing brace; a further
brace opens an embedded expression of its own. -/
def formatText (g : Rules whole) : Rule whole (List Expr) :=
  Rule.loop (fun holes => do
    let here ← Rule.cursor
    match here.rest with
    | [] => failure
    | c :: _ =>
      if c.toNat = 0x7D then return .inr holes
      else if c.toNat = 0x7B then
        set here.next
        return .inl (holes ++ (← g.hole))
      else
        set here.next
        return .inl holes) []

/-- What may follow an embedded expression: an equals sign, a conversion, a format, in this order;
then the closing brace. The expressions embedded in the format are given. -/
def holeEnd (g : Rules whole) : Rule whole (List Expr) := do
  let _ ← Rule.symbol? .bracket "="
  Rule.reach .bracket
  let here ← Rule.cursor
  match here.rest with
  | '!' :: c :: _ => if 'a' ≤ c && c ≤ 'z' then set (here.skip 2)
  | _ => pure ()
  Rule.reach .bracket
  let here ← Rule.cursor
  let holes ← match here.rest with
    | ':' :: _ =>
      set here.next
      formatText g
    | _ => pure []
  Rule.symbol .bracket "\x7d"
  return holes

end ElementBinding.Grammar
