import ElementBinding.Text.Identifier
import ElementBinding.Text.Integer
import ElementBinding.Grammar.Cursor
/-!
# Tokens

The token that begins at a cursor: a name, a number, the opening of a string, or the longest
operator that fits. Keywords are names here; which of them are reserved is decided by the grammar.
-/
namespace ElementBinding.Grammar
open ElementBinding.Text

inductive Token where
  | name (text : String)
  | integer (text : String)
  | real (text : String)
  | symbol (text : String)
  | quote
  /-- The end of a statement's last line. -/
  | lineEnd
  | textEnd
  | unknown
deriving DecidableEq

/-- How a string literal is delimited and read. -/
structure Delimiter where
  quote : Char
  triple : Bool
  raw : Bool
  format : Bool
  bytes : Bool

/-- A letter that may stand before the quote of a string literal. -/
def isStringLetter (c : Char) : Bool :=
  match c.toLower with
  | 'f' | 't' | 'r' | 'b' | 'u' => true
  | _ => false

/-- The delimiter of the string literal that begins here, and its length. -/
def openString? (text : List Char) : Option (Delimiter × Nat) :=
  let letters := text.takeWhile isStringLetter
  let has (c : Char) := letters.any fun letter => letter.toLower = c
  let delimiter (quote : Char) (triple : Bool) : Delimiter :=
    ⟨quote, triple, has 'r', has 'f' || has 't', has 'b'⟩
  match text.drop letters.length with
  | '`' :: _ => some (delimiter '`' false, letters.length + 1)
  | quote :: rest =>
    if quote = '\'' || quote = '"' then
      match rest with
      | second :: third :: _ =>
        if second = quote && third = quote then some (delimiter quote true, letters.length + 3)
        else some (delimiter quote false, letters.length + 1)
      | _ => some (delimiter quote false, letters.length + 1)
    else none
  | [] => none

def reservedWords : List String :=
  ["False", "None", "True", "and", "as", "assert", "async", "await", "break", "class", "continue",
    "def", "del", "elif", "else", "except", "finally", "for", "from", "global", "if", "import",
    "in", "is", "lambda", "nonlocal", "not", "or", "pass", "raise", "return", "try", "while",
    "with", "yield"]

def isReserved (word : String) : Bool := reservedWords.contains word

/-- The length of a run of decimal digits, in which single underscores may follow digits; `lead`
tells whether a digit was just passed. -/
def digitRun : (lead : Bool) → List Char → Nat
  | lead, c :: rest =>
    if c.isDigit then digitRun true rest + 1
    else if c = '_' && lead then digitRun false rest + 1
    else 0
  | _, [] => 0

/-- The length of a run of digits of a base, before each of which an underscore may stand. -/
def basedRun (base : Nat) : List Char → Nat
  | '_' :: c :: rest => if (digitValue? base c).isSome then basedRun base rest + 2 else 0
  | c :: rest => if (digitValue? base c).isSome then basedRun base rest + 1 else 0
  | [] => 0

/-- The length of an exponent, if one begins here. -/
def exponentLength : List Char → Nat
  | mark :: sign :: rest =>
    if mark = 'e' || mark = 'E' then
      if sign = '+' || sign = '-' then
        let digits := digitRun false rest
        if digits = 0 then 0 else digits + 2
      else
        let digits := digitRun false (sign :: rest)
        if digits = 0 then 0 else digits + 1
    else 0
  | _ => 0

/-- One more if the next character is one of the given ones. -/
def oneOf (letters : List Char) (text : List Char) : Nat :=
  match text with
  | c :: _ => if letters.contains c then 1 else 0
  | [] => 0

/-- The length of the integer in a base with a mark, if one begins here. -/
def markedLength : List Char → Nat
  | '0' :: mark :: rest =>
    let base :=
      if mark = 'x' || mark = 'X' then 16 else if mark = 'o' || mark = 'O' then 8
      else if mark = 'b' || mark = 'B' then 2 else 0
    let digits := basedRun base rest
    if digits = 0 then 0 else digits + 2 + oneOf ['l', 'L'] (rest.drop digits)
  | _ => 0

/-- The length of the number that begins here, and whether it is an integer. -/
def numberLength (text : List Char) : Nat × Bool :=
  let marked := markedLength text
  if marked ≠ 0 then (marked, true)
  else
    let whole := digitRun false text
    match text.drop whole with
    | '.' :: rest =>
      let places := digitRun false rest
      let length := whole + 1 + places + exponentLength (rest.drop places)
      (length + oneOf ['j', 'J'] (text.drop length), false)
    | rest =>
      let exponent := exponentLength rest
      if exponent = 0 then (whole + oneOf ['l', 'L', 'j', 'J'] rest, true)
      else (whole + exponent + oneOf ['j', 'J'] (rest.drop exponent), false)

/-- The operators and brackets, the longer ones first. -/
def symbols : List String :=
  ["**=", "//=", ">>=", "<<=", "...", "**", "//", ">>", "<<", "<=", ">=", "==", "!=", "<>", "->",
    ":=", "+=", "-=", "*=", "/=", "%=", "&=", "|=", "^=", "@=", "+", "-", "*", "/", "%", "@", "&",
    "|", "^", "~", "<", ">", "(", ")", "[", "]", "\x7b", "\x7d", ",", ":", ";", "=", "."]

/-- The token that a text begins with, and its length; the opening of a string has length zero. -/
def tokenAt (text : List Char) : Token × Nat :=
  match text with
  | [] => (.textEnd, 0)
  | first :: rest =>
    if (openString? text).isSome then (.quote, 0)
    else if isIdentifierStart first then
      let name := text.takeWhile isIdentifierRest
      (.name (String.ofList name), name.length)
    else if first.isDigit || (first = '.' && (rest.head?.map (·.isDigit)).getD false) then
      let (length, isInteger) := numberLength text
      let number := String.ofList (text.take length)
      (if isInteger then .integer number else .real number, length)
    else match symbols.find? fun symbol => symbol.toList.isPrefixOf text with
      | some symbol => (.symbol symbol, symbol.length)
      | none => (.unknown, 0)

def Cursor.token {whole : List Char} (c : Cursor whole) : Token × Nat := tokenAt c.rest

end ElementBinding.Grammar
