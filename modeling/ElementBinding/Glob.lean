/-!
# Glob patterns

Patterns for relative paths. An asterisk stands for any characters, slashes included, a question
mark for one, and brackets for one of a set of characters and ranges, or with an exclamation mark
for one outside it. A bracket that is never closed stands for itself.
-/
namespace ElementBinding.Glob

structure Range where
  first : Char
  last : Char
deriving DecidableEq

inductive Piece where
  | anything
  | anyChar
  | literal (char : Char)
  | oneOf (ranges : List Range)
  | noneOf (ranges : List Range)
deriving DecidableEq

/-- The parts of a set between the hyphens that make ranges. A hyphen at either end of the set, or
too close to the one before it, stands for itself; `margin` counts the characters that cannot be
such a hyphen. -/
def chunksFrom : (margin : Nat) → (chunk : List Char) → List Char → List (List Char)
  | _, chunk, [] => [chunk.reverse]
  | 0, chunk, '-' :: rest => chunk.reverse :: chunksFrom 2 [] rest
  | margin, chunk, c :: rest => chunksFrom (margin - 1) (c :: chunk) rest

/-- The chunks of a set; a hyphen at its end belongs to the last of them. -/
def chunks (margin : Nat) (set : List Char) : List (List Char) :=
  match (chunksFrom margin [] set).reverse with
  | [] :: before :: rest => ((before ++ ['-']) :: rest).reverse
  | whole => whole.reverse

/-- Joins chunks between which the range would be empty, from the last to the first. -/
def mergeChunks : List (List Char) → List (List Char)
  | [] => []
  | chunk :: rest =>
    match mergeChunks rest with
    | next :: more =>
      match chunk.getLast?, next with
      | some last, first :: tail =>
        if first < last then (chunk.dropLast ++ tail) :: more else chunk :: next :: more
      | _, _ => chunk :: next :: more
    | [] => [chunk]

/-- The ranges that chunks stand for: their characters, and a range over each border. -/
def rangesOf : List (List Char) → List Range
  | [] => []
  | chunk :: rest =>
    let singles := chunk.map fun c => ⟨c, c⟩
    match chunk.getLast?, rest with
    | some last, (first :: _) :: _ => singles ++ ⟨last, first⟩ :: rangesOf rest
    | _, _ => singles ++ rangesOf rest

def setPiece (set : List Char) : Piece :=
  let margin := if set.head? = some '!' then 2 else 1
  let merged := mergeChunks (chunks margin set)
  match merged with
  | ('!' :: chunk) :: rest =>
    if chunk = [] && rest.isEmpty then .anyChar else .noneOf (rangesOf (chunk :: rest))
  | _ => .oneOf (rangesOf merged)

/-- The length of the set that begins behind an opening bracket, if it is closed. A closing bracket
that comes first belongs to the set. -/
def setLength? (text : List Char) : Option Nat :=
  let lead := match text with
    | '!' :: ']' :: _ => 2
    | '!' :: _ => 1
    | ']' :: _ => 1
    | _ => 0
  let body := (text.drop lead).takeWhile (· ≠ ']')
  if lead + body.length < text.length then some (lead + body.length) else none

def piecesFrom : (fuel : Nat) → List Char → List Piece
  | 0, _ => []
  | _, [] => []
  | fuel + 1, c :: rest =>
    if c = '*' then .anything :: piecesFrom fuel rest
    else if c = '?' then .anyChar :: piecesFrom fuel rest
    else if c = '[' then
      match setLength? rest with
      | some length => setPiece (rest.take length) :: piecesFrom fuel (rest.drop (length + 1))
      | none => .literal '[' :: piecesFrom fuel rest
    else .literal c :: piecesFrom fuel rest

def pieces (pattern : String) : List Piece := piecesFrom pattern.length pattern.toList

def inRanges (ranges : List Range) (c : Char) : Bool :=
  ranges.any fun range => range.first ≤ c && c ≤ range.last

/-- A part that stands for one character stands for this one. -/
def Piece.admits (c : Char) : Piece → Bool
  | anything => false
  | anyChar => true
  | literal char => char = c
  | oneOf ranges => inRanges ranges c
  | noneOf ranges => !inRanges ranges c

/-- The endings of a text, the text itself first. -/
def endings : List Char → List (List Char)
  | [] => [[]]
  | c :: rest => (c :: rest) :: endings rest

def matchPieces : List Piece → List Char → Bool
  | [], text => text.isEmpty
  | .anything :: rest, text => (endings text).any (matchPieces rest)
  | piece :: rest, text =>
    match text with
    | c :: more => piece.admits c && matchPieces rest more
    | [] => false

def admits (pattern text : String) : Bool := matchPieces (pieces pattern) text.toList

end ElementBinding.Glob
