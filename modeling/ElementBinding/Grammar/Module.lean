import ElementBinding.Grammar.Block
/-!
# Modules

Reading a whole module: the rules of the grammar are stacked, each level of nesting using the level
below it. Everything nested is at least one character shorter than what it is nested in, so a source
text needs no more levels than it has characters.
-/
namespace ElementBinding.Grammar

/-- One more level of nesting. -/
def Rules.deeper {whole : List Char} (g : Rules whole) : Rules whole where
  expression := Grammar.expression g
  operand := Grammar.operand g
  factor := Grammar.factor g
  primary := trailed g
  hint := Grammar.hint g
  hole := Grammar.hole g
  value := assigned g .more
  pattern := Grammar.pattern g
  suite := Grammar.suite g

/-- The rules for things nested at most so many levels deep. -/
def Rules.ofDepth {whole : List Char} (depth : Nat) : Rules whole :=
  Nat.repeat Rules.deeper depth Rules.none

/-- Reads a module from its source text; nothing if the text is broken. A text with a null character
always is. -/
def Module.parse? (text : List Char) : Option Module :=
  if text.any (·.toNat = 0) then none
  else
    let start : Cursor text := {}
    match block (Rules.ofDepth (text.length + 1)) false start with
    | some (statements, _) => some ⟨statements⟩
    | none => none

end ElementBinding.Grammar
