import ElementBinding.Text.Blank
/-!
# Cursors

A place in a source text together with the blocks that are open there. Line ends matter or not
according to where the grammar stands, so the space before a token is crossed in one of three ways:
where a statement may end, inside brackets, or where more must come.
-/
namespace ElementBinding.Grammar
open ElementBinding.Text

structure Cursor (whole : List Char) where
  rest : List Char := whole
  isSuffix : rest <:+ whole := by exact List.suffix_refl _
  /-- The length of the whole text, which bounds every repetition. -/
  size : Nat := whole.length
  size_eq : size = whole.length := by rfl
  offset : Nat := 0
  offset_eq : offset + rest.length = whole.length := by simp
  line : Nat := 0
  /-- The indentation of the open blocks, the innermost first. -/
  indents : List Nat := []
  /-- The last string opened is a formatted one and no string has been closed since. -/
  inFormat : Bool := false
  /-- Where the operand that was read last begins. -/
  operand : Nat := 0

variable {whole : List Char}

namespace Cursor

def indent (c : Cursor whole) : Nat := c.indents.headD 0

def next (c : Cursor whole) : Cursor whole :=
  match hrest : c.rest with
  | [] => c
  | char :: rest => { c with
      rest
      isSuffix := (List.suffix_cons char rest).trans (hrest ▸ c.isSuffix)
      offset := c.offset + 1
      offset_eq := by
        have heq := c.offset_eq
        rw [hrest, List.length_cons] at heq
        omega
      line := if char = '\n' then c.line + 1 else c.line }

def skip : Nat → Cursor whole → Cursor whole
  | 0, c => c
  | n + 1, c => skip n c.next

/-- The text from one cursor up to a later one. -/
def textTo (start stop : Cursor whole) : String :=
  String.ofList (start.rest.take (stop.offset - start.offset))

end Cursor

/-- Space between tokens of one line: white space, and the marks that have no width. -/
def isGapChar (c : Char) : Bool :=
  (isBlank c && !(0x1C ≤ c.toNat && c.toNat ≤ 0x1F)) ||
    c.toNat = 0xFEFF || c.toNat = 0x2060 || c.toNat = 0x200B

/-- How lines are laid out ahead: whether a line ends before the next token, how far that token is
indented, and its first character. -/
structure Layout where
  lineEnds : Bool
  indent : Nat
  next : Option Char

/-- Looks ahead over line ends, indentation and continued lines, and over comments if `comments`
holds, from inside a comment if `inComment` does. A tab is eight wide; a form feed and a carriage
return go back to the margin. -/
def layoutFrom (comments : Bool) : (inComment lineEnds : Bool) → (indent : Nat) → List Char → Layout
  | _, _, _, [] => ⟨true, 0, none⟩
  | true, lineEnds, indent, c :: rest =>
    if c = '\n' then layoutFrom comments false true 0 rest
    else layoutFrom comments true lineEnds indent rest
  | false, lineEnds, indent, '\\' :: '\n' :: rest => layoutFrom comments false lineEnds indent rest
  | false, lineEnds, indent, '\\' :: '\r' :: '\n' :: rest =>
    layoutFrom comments false lineEnds indent rest
  | false, lineEnds, indent, c :: rest =>
    if c = '\n' then layoutFrom comments false true 0 rest
    else if c = ' ' then layoutFrom comments false lineEnds (indent + 1) rest
    else if c = '\t' then layoutFrom comments false lineEnds (indent + 8) rest
    else if c = '\r' || c.toNat = 12 then layoutFrom comments false lineEnds 0 rest
    else if c = '#' && comments && lineEnds then layoutFrom comments true lineEnds indent rest
    else if c = '\\' && rest.isEmpty then ⟨true, 0, none⟩
    else ⟨lineEnds, indent, some c⟩

def Cursor.layout (comments : Bool) (c : Cursor whole) : Layout :=
  layoutFrom comments false false 0 c.rest

/-- What a line end means at a place of the grammar. -/
inductive Place where
  /-- The statement may end here. -/
  | line
  /-- A bracket may close here, and line ends mean nothing. -/
  | bracket
  /-- More must come: a line end is passed over, unless the next line leaves the block. -/
  | more
deriving DecidableEq

/-- The space before a token. -/
structure Gap (whole : List Char) where
  /-- Where the token begins; where the space begins if the line ends in it. -/
  stop : Cursor whole
  lineEnds : Bool
  /-- The line continuations in it: their text and line. -/
  continuations : List (String × Nat)

def Cursor.skipGapChars (c : Cursor whole) : Cursor whole :=
  c.skip (c.rest.takeWhile isGapChar).length

def Cursor.skipComment (c : Cursor whole) : Cursor whole :=
  c.skip (c.rest.takeWhile (· ≠ '\n')).length

def Cursor.continuation? (c : Cursor whole) : Option Nat :=
  match c.rest with
  | '\\' :: '\n' :: _ => some 2
  | '\\' :: '\r' :: '\n' :: _ => some 3
  | _ => none

/-- The line end ahead cannot be passed over: the next line leaves the open block. -/
def Cursor.leavesBlock (c : Cursor whole) : Bool :=
  let ahead := c.layout false
  ahead.lineEnds && ahead.indent < c.indent && !c.inFormat &&
    !(ahead.next = some '"' || ahead.next = some '\'' || ahead.next = some '`')

/-- Crosses the space before a token, at most `fuel` comments and continuations of it. -/
def crossGap (place : Place) :
    (fuel : Nat) → List (String × Nat) → Cursor whole → Option (Gap whole)
  | 0, _, _ => none
  | fuel + 1, continuations, c =>
    if place = .line && (c.layout true).lineEnds then some ⟨c, true, continuations⟩
    else if place = .more && c.leavesBlock then none
    else
      let stop := c.skipGapChars
      match stop.rest, stop.continuation? with
      | '#' :: _, _ => crossGap place fuel continuations stop.skipComment
      | _, some length =>
        let after := stop.skip length
        crossGap place fuel (continuations ++ [(stop.textTo after, stop.line)]) after
      | _, none => some ⟨stop, false, continuations⟩

def Cursor.gap (place : Place) (c : Cursor whole) : Option (Gap whole) :=
  crossGap place (c.size + 1) [] c

inductive Opening (whole : List Char) where
  | statement (start : Cursor whole)
  | blockEnd (after : Cursor whole)
  | textEnd

/-- Looks for the next statement of a block, or of the module if `inBlock` does not hold. -/
def findOpening (inBlock : Bool) : (fuel : Nat) → Cursor whole → Option (Opening whole)
  | 0, _ => none
  | fuel + 1, c =>
    let ahead := c.layout inBlock
    if inBlock && ahead.lineEnds && ahead.indent < c.indent then
      some (.blockEnd { c with indents := c.indents.tail })
    else
      let start := c.skipGapChars
      match start.rest, start.continuation? with
      | [], _ => some .textEnd
      | '#' :: _, _ => findOpening inBlock fuel start.skipComment
      | _, some length => findOpening inBlock fuel (start.skip length)
      | _, none => some (.statement start)

def Cursor.opening (inBlock : Bool) (c : Cursor whole) : Option (Opening whole) :=
  findOpening inBlock (c.size + 1) c

inductive SuiteStart (whole : List Char) where
  | sameLine (start : Cursor whole)
  | block (inside : Cursor whole)
  | empty (after : Cursor whole)

/-- Looks for the body of a compound statement behind its colon. -/
def findSuite : (fuel : Nat) → Cursor whole → Option (SuiteStart whole)
  | 0, _ => none
  | fuel + 1, c =>
    let ahead := c.layout true
    if ahead.lineEnds then
      if c.indent < ahead.indent then some (.block { c with indents := ahead.indent :: c.indents })
      else some (.empty c)
    else
      let start := c.skipGapChars
      match start.rest, start.continuation? with
      | '#' :: _, _ => findSuite fuel start.skipComment
      | _, some length => findSuite fuel (start.skip length)
      | _, none => some (.sameLine start)

def Cursor.suiteStart (c : Cursor whole) : Option (SuiteStart whole) :=
  findSuite (c.size + 1) c

end ElementBinding.Grammar
