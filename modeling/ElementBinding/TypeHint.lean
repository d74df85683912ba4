import ElementBinding.Text.Blank
/-!
# Annotation text

The normal form of the source text of a type annotation: the quotes of a forward reference are
dropped, white space is one space between words and none around brackets, a comma is followed by
one space and a union bar stands between two. Names are left as they are.
-/
namespace ElementBinding.TypeHint
open ElementBinding.Text

/-- A text without the equal quotes at its two ends. -/
def unquote (text : List Char) : List Char :=
  match text, text.getLast? with
  | first :: _ :: _, some last =>
    if first = last && (first = '\'' || first = '"') then trim (text.drop 1).dropLast else text
  | _, _ => text

/-- Each run of blank characters as one space. -/
def collapse : (afterBlank : Bool) → List Char → List Char
  | _, [] => []
  | afterBlank, c :: rest =>
    if isBlank c then
      if afterBlank then collapse true rest else ' ' :: collapse true rest
    else c :: collapse false rest

/-- A character that has no blank around it. -/
def isTight (c : Char) : Bool :=
  c = '[' || c = ']' || c = '(' || c = ')' || c = ',' || c = '|'

/-- Drops each space beside a tight character; `afterTight` tells whether one was just passed. -/
def tighten : (afterTight : Bool) → List Char → List Char
  | _, [] => []
  | _, [c] => [c]
  | afterTight, c :: next :: rest =>
    if c = ' ' && (afterTight || isTight next) then tighten false (next :: rest)
    else c :: tighten (isTight c) (next :: rest)

def spaced (c : Char) : List Char :=
  if c = ',' then [',', ' '] else if c = '|' then [' ', '|', ' '] else [c]

/-- The normal form of an annotation. -/
def normalize (raw : String) : String :=
  let text := unquote (trim raw.toList)
  String.ofList (trim ((tighten false (collapse false text)).flatMap spaced))

end ElementBinding.TypeHint
