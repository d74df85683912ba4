/-!
# Line ends

A reader of text takes a carriage return, alone or with the line feed that follows it, for the end
of a line.
-/
namespace ElementBinding.Text

/-- The text with every line ended by a line feed. -/
def unifyLineEnds : List Char → List Char
  | [] => []
  | '\r' :: '\n' :: rest => '\n' :: unifyLineEnds rest
  | '\r' :: rest => '\n' :: unifyLineEnds rest
  | c :: rest => c :: unifyLineEnds rest

/-- The first line of a text, with the line feed that ends it. -/
def firstLine : List Char → List Char
  | [] => []
  | c :: rest => if c = '\n' then [c] else c :: firstLine rest

/-- The parts of a text between the occurrences of a separator. -/
def splitAt (separator : Char) : List Char → List (List Char)
  | [] => [[]]
  | c :: rest =>
    let parts := splitAt separator rest
    if c = separator then [] :: parts
    else match parts with
      | part :: more => (c :: part) :: more
      | [] => [[c]]

/-- Lines as one text, each ended by a line feed. -/
def joinLines (lines : List String) : String := "".intercalate (lines.map (· ++ "\n"))

end ElementBinding.Text
