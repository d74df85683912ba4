import ElementBinding.Text.CharClass
/-!
# Blank characters

White space in the Unicode sense, with the four information separators of ASCII. Zero-width
characters and the byte-order mark are not blank.
-/
namespace ElementBinding.Text

/-- The code points of white space. -/
def blankClass : CharClass := ⟨[
  (9, 13), (28, 32), (133, 133), (160, 160), (5760, 5760), (8192, 8202), (8232, 8233),
  (8239, 8239), (8287, 8287), (12288, 12288)]⟩

def isBlank (c : Char) : Bool := blankClass.contains c

/-- A text without the blank characters at its two ends. -/
def trim (text : List Char) : List Char :=
  ((text.dropWhile isBlank).reverse.dropWhile isBlank).reverse

end ElementBinding.Text
