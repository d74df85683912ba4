import ElementBinding.Text.Blank
/-!
# Integers as text

Decimal text of integers, and the two notations integers are read from: the literals of source
code, and signed decimal text. No conversion between a number and its decimal text handles more
than 4300 digits; the notations with bases sixteen, eight and two have no such limit.
-/
namespace ElementBinding.Text

/-- The largest number of decimal digits that is read or written. -/
def digitLimit : Nat := 4300

def decimalDigits (n : Nat) : List Char := Nat.toDigits 10 n

/-- The decimal text of an integer, unless it needs too many digits. -/
def decimal? (n : Int) : Option String :=
  let digits := decimalDigits n.natAbs
  if digitLimit < digits.length then none
  else some (String.ofList (if n < 0 then '-' :: digits else digits))

/-- The value of a digit in a base of at most sixteen. -/
def digitValue? (base : Nat) (c : Char) : Option Nat :=
  let value? :=
    if c.isDigit then some (c.toNat - 48)
    else if 'a' ≤ c && c ≤ 'f' then some (c.toNat - 87)
    else if 'A' ≤ c && c ≤ 'F' then some (c.toNat - 55)
    else none
  value?.filter (· < base)

/-- The digits of a numeral in which one underscore may stand before every digit but the first. -/
def digitsTail? (base : Nat) : List Char → Option (List Nat)
  | [] => some []
  | '_' :: c :: rest => do
    let d ← digitValue? base c
    return d :: (← digitsTail? base rest)
  | c :: rest => do
    let d ← digitValue? base c
    return d :: (← digitsTail? base rest)

/-- The digits of a numeral: at least one, with single underscores between them. -/
def digits? (base : Nat) : List Char → Option (List Nat)
  | [] => none
  | c :: rest => do
    let d ← digitValue? base c
    return d :: (← digitsTail? base rest)

/-- The number that digits stand for, the most significant first. -/
def ofDigits (base : Nat) (digits : List Nat) : Nat :=
  digits.foldl (fun value d => value * base + d) 0

/-- The digits after a base mark, which one underscore may separate from it. -/
def markedDigits? (base : Nat) : List Char → Option (List Nat)
  | '_' :: rest => digits? base rest
  | rest => digits? base rest

/-- The value of a decimal literal. Zeros may lead only in a literal for zero. -/
def decimalLiteral? (text : List Char) : Option Nat := do
  let digits ← digits? 10 text
  if digitLimit < digits.length then none
  else if digits.head? = some 0 && digits.any (· ≠ 0) then none
  else some (ofDigits 10 digits)

/-- The value of an integer literal of source code, in any of its bases. -/
def literalValue? : List Char → Option Nat
  | '0' :: mark :: rest =>
    if mark = 'x' || mark = 'X' then (markedDigits? 16 rest).map (ofDigits 16)
    else if mark = 'o' || mark = 'O' then (markedDigits? 8 rest).map (ofDigits 8)
    else if mark = 'b' || mark = 'B' then (markedDigits? 2 rest).map (ofDigits 2)
    else decimalLiteral? ('0' :: mark :: rest)
  | text => decimalLiteral? text

/-- The code points of the decimal zeros; nine more digits follow each of them. -/
def decimalZeros : List Nat := [
  48, 1632, 1776, 1984, 2406, 2534, 2662, 2790, 2918, 3046, 3174, 3302, 3430, 3558, 3664, 3792,
  3872, 4160, 4240, 6112, 6160, 6470, 6608, 6784, 6800, 6992, 7088, 7232, 7248, 42528, 43216,
  43264, 43472, 43504, 43600, 44016, 65296, 66720, 68912, 69734, 69872, 69942, 70096, 70384,
  70736, 70864, 71248, 71360, 71472, 71904, 72016, 72784, 73040, 73120, 92768, 92864, 93008,
  120782, 120792, 120802, 120812, 120822, 123200, 123632, 125264, 130032]

/-- A decimal digit of any script as the ASCII digit, and any blank character beyond ASCII as a
space. -/
def plainDigit (c : Char) : Char :=
  if c.toNat < 128 then c
  else if isBlank c then ' '
  else match decimalZeros.find? (fun first => first ≤ c.toNat && c.toNat < first + 10) with
    | some first => Char.ofNat (48 + (c.toNat - first))
    | none => c

/-- The blanks of ASCII that may surround a number. -/
def isPlainBlank (c : Char) : Bool := c = ' ' || (9 ≤ c.toNat && c.toNat ≤ 13)

inductive IntegerFault where
  | malformed
  | tooLong (digits : Nat)

/-- Reads signed decimal text, with blanks around it. -/
def readInteger (text : String) : Except IntegerFault Int :=
  let plain := (text.toList.map plainDigit).dropWhile isPlainBlank
  let plain := (plain.reverse.dropWhile isPlainBlank).reverse
  let (negative, body) := match plain with
    | '-' :: rest => (true, rest)
    | '+' :: rest => (false, rest)
    | rest => (false, rest)
  match digits? 10 body with
  | none => .error .malformed
  | some digits =>
    if digitLimit < digits.length then .error (.tooLong digits.length)
    else
      let value : Int := ofDigits 10 digits
      .ok (if negative then -value else value)

end ElementBinding.Text
