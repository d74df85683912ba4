import ElementBinding.Text.Integer
import ElementBinding.Text.Quoted
import ElementBinding.Text.Shortest
/-!
# Values in signatures

The values that a type hint or a default may be in the text of a signature: constants, numbers,
texts, tuples, lists, dictionaries and built-in types. A value is read from its source text and
shown as a diagnostic shows it.
-/
namespace ElementBinding.Signature
open ElementBinding.Text

inductive Value where
  /-- A value that is shown by its name. -/
  | constant (name : String)
  | integer (value : Int)
  | real (value : Float)
  | text (value : String)
  | tuple (items : List Value)
  | list (items : List Value)
  | dictionary (entries : List (Value × Value))
  | type (name : String)
  | generic (name : String) (arguments : List Value)
  /-- A choice between types. -/
  | union (first second : Value)
deriving Inhabited

namespace Value

mutual

/-- A value as a diagnostic shows it. -/
def shown : Value → String
  | constant name => name
  | integer value => toString value
  | real value => shortest value
  | text value => quoted value
  | tuple items =>
    match shownAll items with
    | [item] => "(" ++ item ++ ",)"
    | items => "(" ++ ", ".intercalate items ++ ")"
  | list items => "[" ++ ", ".intercalate (shownAll items) ++ "]"
  | dictionary entries => "\x7b" ++ ", ".intercalate (shownEntries entries) ++ "\x7d"
  | type name => "<class '" ++ name ++ "'>"
  | generic name arguments => name ++ "[" ++ ", ".intercalate (hints arguments) ++ "]"
  | union first second => hint first ++ " | " ++ hint second

def shownAll : List Value → List String
  | [] => []
  | value :: rest => shown value :: shownAll rest

def shownEntries : List (Value × Value) → List String
  | [] => []
  | (key, value) :: rest => (shown key ++ ": " ++ shown value) :: shownEntries rest

/-- A value as a type hint: a type is shown by its name. -/
def hint : Value → String
  | type name => name
  | value => shown value

/-- The arguments of a type; an ellipsis is shown by its sign. -/
def hints : List Value → List String
  | [] => []
  | constant "Ellipsis" :: rest => "..." :: hints rest
  | value :: rest => hint value :: hints rest

end

def typeNames : List String :=
  ["int", "str", "float", "bool", "list", "dict", "tuple", "set", "frozenset", "object", "type",
    "bytes", "bytearray", "complex", "range", "slice"]

def named? (name : String) : Option Value :=
  if name = "None" || name = "True" || name = "False" then some (constant name)
  else if name = "Ellipsis" then some (constant name)
  else if typeNames.contains name then some (type name)
  else none

/-- Reads something from the start of a text, and tells what is left of it. -/
abbrev Reader (α : Type) := List Char → Option (α × List Char)

def skip (input : List Char) : List Char := input.dropWhile fun c => c = ' ' || c = '\t' || c = '\n'

def isNameChar (c : Char) : Bool := c.isAlphanum || c = '_' || 128 ≤ c.toNat

/-- The character that a letter stands for behind a backslash. -/
def escaped? (c : Char) : Option Char :=
  if c = 'n' then some '\n'
  else if c = 't' then some '\t'
  else if c = 'r' then some '\r'
  else if c = '\\' || c = '\'' || c = '"' then some c
  else none

/-- The rest of a text literal, up to the quote that ends it. -/
def readText (quote : Char) : Reader (List Char)
  | [] => none
  | '\\' :: c :: rest =>
    match escaped? c with
    | some plain => (readText quote rest).map fun (chars, left) => (plain :: chars, left)
    | none => (readText quote rest).map fun (chars, left) => ('\\' :: c :: chars, left)
  | c :: rest =>
    if c = quote then some ([], rest)
    else (readText quote rest).map fun (chars, left) => (c :: chars, left)

/-- A text, up to the quote that ends it. -/
def quotedText (quote : Char) : Reader Value := fun input =>
  (readText quote input).map fun (chars, left) => (text (String.ofList chars), left)

/-- A number without a sign: an integer literal, or digits with a point or an exponent. -/
def number? (spelling : List Char) : Option Value :=
  match literalValue? spelling with
  | some value => some (integer value)
  | none =>
    let digits := spelling.filter (· ≠ '_')
    let whole := digits.takeWhile (·.isDigit)
    let rest := digits.drop whole.length
    let (places, rest) := match rest with
      | '.' :: more => (more.takeWhile Char.isDigit, more.dropWhile Char.isDigit)
      | _ => ([], rest)
    let mantissa := ofDigits 10 ((whole ++ places).map fun (c : Char) => c.toNat - 48)
    let scaled (exponent : Int) : Value :=
      let exponent := exponent - places.length
      real (Float.ofScientific mantissa (exponent < 0) exponent.natAbs)
    match rest with
    | [] => some (scaled 0)
    | mark :: power =>
      if mark = 'e' || mark = 'E' then
        match readInteger (String.ofList power) with
        | .ok power => some (scaled power)
        | .error _ => none
      else none

def readNumber (input : List Char) : Option (Value × List Char) :=
  let word := input.takeWhile fun c => isNameChar c || c = '.'
  let rest := input.drop word.length
  match rest with
  | sign :: more =>
    let power := more.takeWhile Char.isDigit
    let marked := word.getLast? = some 'e' || word.getLast? = some 'E'
    if marked && (sign = '-' || sign = '+') && power ≠ [] then
      (number? (word ++ sign :: power)).map (·, more.drop power.length)
    else (number? word).map (·, rest)
  | [] => (number? word).map (·, [])

/-- The value with the opposite sign. -/
def negated? : Value → Option Value
  | integer value => some (integer (-value))
  | real value => some (real (-value))
  | _ => none

/-- The items up to a closing bracket, and whether a comma follows the last; `item` reads one. -/
def readItems (item : Reader α) (closing : Char) :
    (fuel : Nat) → Reader (List α × Bool)
  | 0, _ => none
  | fuel + 1, input =>
    match skip input with
    | [] => none
    | c :: rest =>
      if c = closing then some (([], true), rest)
      else do
        let (first, left) ← item (c :: rest)
        match skip left with
        | ',' :: left =>
          let ((items, trailing), left) ← readItems item closing fuel left
          return ((first :: items, trailing), left)
        | c :: left => if c = closing then return (([first], false), left) else none
        | [] => none

/-- An entry of a dictionary; `value` reads a value. -/
def readEntry (value : Reader Value) (input : List Char) :
    Option ((Value × Value) × List Char) := do
  let (key, left) ← value input
  match skip left with
  | ':' :: left =>
    let (result, left) ← value left
    return ((key, result), left)
  | _ => none

/-- A value that is no choice between types; `value` reads a value inside brackets. -/
def readSingle (value : Reader Value) (input : List Char) : Option (Value × List Char) :=
  let fuel := input.length + 1
  match skip input with
  | '(' :: rest => do
    let ((items, trailing), left) ← readItems value ')' fuel rest
    match items, trailing with
    | [item], false => return (item, left)
    | _, _ => return (tuple items, left)
  | '[' :: rest => (readItems value ']' fuel rest).map fun ((items, _), left) => (list items, left)
  | '\'' :: rest => quotedText '\'' rest
  | '"' :: rest => quotedText '"' rest
  | '-' :: rest => do
    let (magnitude, left) ← readNumber (skip rest)
    return (← negated? magnitude, left)
  | '.' :: '.' :: '.' :: rest => some (constant "Ellipsis", rest)
  | c :: rest =>
    if c.toNat = 0x7B then
      (readItems (readEntry value) (Char.ofNat 0x7D) fuel rest).map
        fun ((entries, _), left) => (dictionary entries, left)
    else if c.isDigit || c = '.' then readNumber (c :: rest)
    else do
      let name := (c :: rest).takeWhile isNameChar
      let result ← named? (String.ofList name)
      match result, (c :: rest).drop name.length with
      | type name, '[' :: left =>
        let ((arguments, _), left) ← readItems value ']' fuel left
        return (generic name arguments, left)
      | _, left => return (result, left)
  | [] => none

/-- The types a value may be a choice of, behind the first. -/
def readChoices (value : Reader Value) (first : Value) :
    (fuel : Nat) → Reader Value
  | 0, _ => none
  | fuel + 1, left =>
    match skip left with
    | '|' :: rest => do
      let (second, left) ← readSingle value rest
      readChoices value (union first second) fuel left
    | _ => some (first, left)

/-- A value nested at most so deep. -/
def readDeep : (depth : Nat) → Reader Value
  | 0, _ => none
  | depth + 1, input => do
    let (first, left) ← readSingle (readDeep depth) input
    readChoices (readDeep depth) first (left.length + 1) left

def read (input : List Char) : Option (Value × List Char) := readDeep (input.length + 1) input

end Value

end ElementBinding.Signature
