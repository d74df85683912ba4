import ElementBinding.Json
import ElementBinding.Text.Integer
/-!
# Reading JSON

A text is read as exactly one JSON value between blanks. A fault tells what was expected and at
which character. The names of the infinities and of the value that is no number are let pass.
-/
namespace ElementBinding.Json

inductive ReadFault where
  | malformed (expectation : String) (position : Nat)
  | tooLong
deriving DecidableEq

/-- Where a reader stands: what is left of a text, how much of it was read, and its whole length,
which bounds every repetition. -/
structure ReadState where
  rest : List Char
  position : Nat := 0
  size : Nat := rest.length

/-- Reads something and moves on, or fails. -/
abbrev Reader := StateT ReadState (Except ReadFault)

namespace Reader

def failAt (expectation : String) (position : Nat) : Reader α :=
  throw (.malformed expectation position)

def fail (expectation : String) : Reader α := do failAt expectation (← get).position

def peek : Reader (Option Char) := return (← get).rest.head?

def skip (count : Nat) : Reader Unit :=
  modify fun s => { s with rest := s.rest.drop count, position := s.position + count }

def skipBlanks : Reader Unit := do
  let blanks := (← get).rest.takeWhile fun c => c = ' ' || c = '\t' || c = '\n' || c = '\r'
  skip blanks.length

def iterate (step : σ → Reader (σ ⊕ α)) : (fuel : Nat) → σ → Reader α
  | 0, _ => fail "Expecting value"
  | fuel + 1, state => do
    match ← step state with
    | .inl state => iterate step fuel state
    | .inr result => return result

/-- Repeats a step of which each but the last moves on. -/
def loop (step : σ → Reader (σ ⊕ α)) (state : σ) : Reader α := do
  iterate step ((← get).size + 2) state

end Reader

open Reader

/-- The number that four hexadecimal digits spell. -/
def hexUnit? (digits : List Char) : Option Nat :=
  if digits.length = 4 then
    (digits.mapM (Text.digitValue? 16)).map (Text.ofDigits 16)
  else none

def simpleEscape? (c : Char) : Option Char :=
  if c = '"' || c = '\\' || c = '/' then some c
  else if c = 'b' then some (Char.ofNat 8)
  else if c = 'f' then some (Char.ofNat 12)
  else if c = 'n' then some '\n'
  else if c = 'r' then some '\r'
  else if c = 't' then some '\t'
  else none

/-- Reads an escape sequence from behind its backslash. Two units that form a pair are one
character. -/
def escape (start : Nat) : Reader Char := do
  let position := (← get).position
  match (← get).rest with
  | [] => failAt "Unterminated string starting at" start
  | 'u' :: rest =>
    match hexUnit? (rest.take 4), decide (4 < rest.length) with
    | some unit, true =>
      skip 5
      let low? :=
        if 0xD800 ≤ unit && unit < 0xDC00 then
          match rest.drop 4 with
          | '\\' :: 'u' :: more =>
            (hexUnit? (more.take 4)).filter fun low => 0xDC00 ≤ low && low < 0xE000
          | _ => none
        else none
      match low? with
      | some low =>
        skip 6
        return Char.ofNat (0x10000 + (unit - 0xD800) * 0x400 + (low - 0xDC00))
      | none =>
        return if 0xD800 ≤ unit && unit < 0xE000 then Char.ofNat 0xFFFD else Char.ofNat unit
    | _, false => failAt "Invalid \\uXXXX escape" (position + 1)
    | none, true => failAt "Invalid \\uXXXX escape" position
  | c :: _ =>
    match simpleEscape? c with
    | some plain =>
      skip 1
      return plain
    | none => failAt "Invalid \\escape" (position - 1)

def textRest : Reader String := do
  let start := (← get).position - 1
  let chars ← loop (fun (chars : List Char) => do
    match ← peek with
    | none => failAt "Unterminated string starting at" start
    | some '"' =>
      skip 1
      return .inr chars
    | some '\\' =>
      skip 1
      return .inl ((← escape start) :: chars)
    | some c =>
      if c.toNat < 0x20 then fail "Invalid control character at"
      else
        skip 1
        return .inl (c :: chars)) []
  return String.ofList chars.reverse

/-- How a number is spelled: its sign, whole part, places and exponent. -/
structure NumberShape where
  negative : Bool
  whole : List Char
  places : List Char
  exponent : Option (Bool × List Char)
  length : Nat

/-- The exponent a text begins with: whether it is negative, its digits, and its length. -/
def exponentShape : List Char → Option (Bool × List Char × Nat)
  | mark :: rest =>
    if mark = 'e' || mark = 'E' then
      let (negative, signs) := match rest with
        | '-' :: _ => (true, 1)
        | '+' :: _ => (false, 1)
        | _ => (false, 0)
      let digits := (rest.drop signs).takeWhile (·.isDigit)
      if digits = [] then none else some (negative, digits, 1 + signs + digits.length)
    else none
  | [] => none

/-- The number a text begins with. -/
def numberShape? (text : List Char) : Option NumberShape :=
  let (negative, body) := match text with
    | '-' :: rest => (true, rest)
    | _ => (false, text)
  let digits := body.takeWhile (·.isDigit)
  let whole := if digits.head? = some '0' then ['0'] else digits
  if whole = [] then none
  else
    let rest := body.drop whole.length
    let places := match rest with
      | '.' :: more => more.takeWhile (·.isDigit)
      | _ => []
    let rest := if places = [] then rest else rest.drop (places.length + 1)
    let pointed := if places = [] then 0 else places.length + 1
    let signed := if negative then 1 else 0
    match exponentShape rest with
    | some (minus, digits, length) =>
      some ⟨negative, whole, places, some (minus, digits), signed + whole.length + pointed + length⟩
    | none => some ⟨negative, whole, places, none, signed + whole.length + pointed⟩

def natural (digits : List Char) : Nat := Text.ofDigits 10 (digits.map fun c => c.toNat - 48)

def NumberShape.value (shape : NumberShape) : Except ReadFault Json :=
  if shape.places = [] && shape.exponent.isNone then
    if Text.digitLimit < shape.whole.length then .error .tooLong
    else
      let magnitude : Int := natural shape.whole
      .ok (.integer (if shape.negative then -magnitude else magnitude))
  else
    let (minus, power) := match shape.exponent with
      | some (minus, digits) => (minus, min (natural digits) 100000)
      | none => (false, 0)
    let exponent : Int := (if minus then -(power : Int) else power) - shape.places.length
    let mantissa := natural (shape.whole ++ shape.places)
    let magnitude :=
      if exponent < 0 then Float.ofScientific mantissa true exponent.natAbs
      else Float.ofScientific mantissa false exponent.natAbs
    .ok (.real (if shape.negative then -magnitude else magnitude))

/-- The values that have a name. -/
def namedValues : List (String × Json) :=
  [("null", .null), ("true", .bool true), ("false", .bool false), ("NaN", .real (0.0 / 0.0)),
    ("Infinity", .real (1.0 / 0.0)), ("-Infinity", .real (-1.0 / 0.0))]

def scalar : Reader Json := do
  let rest := (← get).rest
  match namedValues.find? fun (name, _) => name.toList.isPrefixOf rest with
  | some (name, value) =>
    skip name.length
    return value
  | none =>
    match numberShape? rest with
    | some shape =>
      skip shape.length
      shape.value
    | none => fail "Expecting value"

def arrayRest (value : Reader Json) : Reader Json := do
  skipBlanks
  if (← peek) = some ']' then
    skip 1
    return .array []
  loop (fun (items : List Json) => do
    let items := (← value) :: items
    skipBlanks
    match ← peek with
    | some ']' =>
      skip 1
      return .inr (.array items.reverse)
    | some ',' =>
      skip 1
      skipBlanks
      return .inl items
    | _ => fail "Expecting ',' delimiter") []

def objectRest (value : Reader Json) : Reader Json := do
  skipBlanks
  if (← peek).map (·.toNat) = some 0x7D then
    skip 1
    return .object []
  loop (fun members => do
    if (← peek) ≠ some '"' then fail "Expecting property name enclosed in double quotes"
    skip 1
    let name ← textRest
    skipBlanks
    if (← peek) ≠ some ':' then fail "Expecting ':' delimiter"
    skip 1
    skipBlanks
    let members := Pairs.put members name (← value)
    skipBlanks
    match (← peek).map (·.toNat) with
    | some 0x7D =>
      skip 1
      return .inr (.object members)
    | some 0x2C =>
      skip 1
      skipBlanks
      return .inl members
    | _ => fail "Expecting ',' delimiter") []

/-- Reads a value in which values are nested at most so deep. -/
def value : (depth : Nat) → Reader Json
  | 0 => fail "Expecting value"
  | depth + 1 => do
    match (← peek).map (·.toNat) with
    | some 0x22 =>
      skip 1
      return .text (← textRest)
    | some 0x5B =>
      skip 1
      arrayRest (value depth)
    | some 0x7B =>
      skip 1
      objectRest (value depth)
    | _ => scalar

/-- Reads a text that holds one value and nothing else. -/
def read (text : List Char) : Except ReadFault Json := do
  let whole : Reader Json := do
    skipBlanks
    let result ← value (text.length + 1)
    skipBlanks
    if (← peek).isSome then fail "Extra data"
    return result
  return (← whole.run { rest := text }).1

end ElementBinding.Json
