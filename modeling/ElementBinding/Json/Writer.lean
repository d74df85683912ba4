import ElementBinding.Json
import ElementBinding.Text.Integer
import ElementBinding.Text.Quoted
import ElementBinding.Text.Shortest
/-!
# Writing JSON

Two written forms of a value: on one line in the order of its members, and over several lines with
the members of every object sorted by name. Everything beyond printable ASCII is escaped. A value
with an integer of too many digits has no written form.
-/
namespace ElementBinding.Json
open ElementBinding.Text

/-- An escaped UTF-16 unit. -/
def escapedUnit (unit : Nat) : List Char := '\\' :: 'u' :: hexDigits 4 unit

def escapedChar (c : Char) : List Char :=
  if c = '"' || c = '\\' then ['\\', c]
  else if c = '\n' then ['\\', 'n']
  else if c = '\r' then ['\\', 'r']
  else if c = '\t' then ['\\', 't']
  else if c.toNat = 8 then ['\\', 'b']
  else if c.toNat = 12 then ['\\', 'f']
  else if 0x20 ≤ c.toNat && c.toNat < 0x7F then [c]
  else if c.toNat < 0x10000 then escapedUnit c.toNat
  else
    let offset := c.toNat - 0x10000
    escapedUnit (0xD800 + offset / 0x400) ++ escapedUnit (0xDC00 + offset % 0x400)

def escaped (text : String) : String :=
  String.ofList ('"' :: text.toList.flatMap escapedChar ++ ['"'])

def realText (value : Float) : String :=
  if value.isNaN then "NaN"
  else if value.isInf then (if value < 0 then "-Infinity" else "Infinity")
  else shortest value

/-- Pieces between brackets, divided by commas. -/
def enclosed (opening closing : String) (pieces : List String) : String :=
  opening ++ ", ".intercalate pieces ++ closing

/-- Pieces on lines of their own, each indented, between brackets. -/
def enclosedLines (opening closing : String) (indent : Nat) (pieces : List String) : String :=
  if pieces.isEmpty then opening ++ closing
  else
    let margin (width : Nat) := "\n" ++ String.ofList (List.replicate width ' ')
    opening ++ margin (indent + 2) ++ ("," ++ margin (indent + 2)).intercalate pieces ++
      margin indent ++ closing

mutual

/-- The form on one line. -/
def compact? : Json → Option String
  | null => some "null"
  | bool value => some (if value then "true" else "false")
  | integer value => decimal? value
  | real value => some (realText value)
  | text value => some (escaped value)
  | array items => (compactItems? items).map (enclosed "[" "]")
  | object members => (compactMembers? members).map (enclosed "\x7b" "\x7d")

def compactItems? : List Json → Option (List String)
  | [] => some []
  | item :: rest => do return (← compact? item) :: (← compactItems? rest)

def compactMembers? : List (String × Json) → Option (List String)
  | [] => some []
  | (name, value) :: rest => do
    return (escaped name ++ ": " ++ (← compact? value)) :: (← compactMembers? rest)

end

mutual

/-- The form over several lines, the first of which stands behind `indent` blanks. -/
def pretty? (indent : Nat) : Json → Option String
  | null => some "null"
  | bool value => some (if value then "true" else "false")
  | integer value => decimal? value
  | real value => some (realText value)
  | text value => some (escaped value)
  | array items => (prettyItems? (indent + 2) items).map (enclosedLines "[" "]" indent)
  | object members => do
    let written ← prettyMembers? (indent + 2) members
    let sorted := written.mergeSort fun a b => a.1 ≤ b.1
    return enclosedLines "\x7b" "\x7d" indent
      (sorted.map fun (name, value) => escaped name ++ ": " ++ value)

def prettyItems? (indent : Nat) : List Json → Option (List String)
  | [] => some []
  | item :: rest => do return (← pretty? indent item) :: (← prettyItems? indent rest)

def prettyMembers? (indent : Nat) : List (String × Json) → Option (List (String × String))
  | [] => some []
  | (name, value) :: rest => do
    return (name, ← pretty? indent value) :: (← prettyMembers? indent rest)

end

end ElementBinding.Json
