import ElementBinding.Grammar.Module
import ElementBinding.Proofs.Grammar.Yields

/-!
# Names in syntax trees

An expression that is nothing but a name comes from a name token, whatever rules are nested in the
one that reads it. So the targets of assignments and the classes of a module are spelled with the
characters of names.
-/
namespace ElementBinding.Grammar
open Rule

variable {whole : List Char}

def Expr.Named (e : Expr) : Prop := ∀ id, e = .name id → IsName id

private def Expr.Compound (e : Expr) : Prop := ∀ id, e ≠ .name id

private theorem Expr.Compound.named {e : Expr} (h : e.Compound) : e.Named :=
  fun id hid => absurd hid (h id)

section

variable (g : Rules whole)

private theorem stringLiterals_yields (before after : Place) :
    (stringLiterals g before after).Yields Expr.Named := by
  refine .last fun (holes, text, _) => .pure fun id hid => ?_
  simp at hid

private theorem parenthesized_yields : (parenthesized g).Yields Expr.Compound := by
  refine .last fun _ => .last fun closed => ?_
  split
  · exact .pure fun id => by simp
  · refine .last fun first => .last fun next => ?_
    split
    · exact .last fun _ => .last fun _ => .pure fun id => by simp
    · refine .last fun more => ?_
      split
      · exact .last fun _ => .pure fun id => by simp
      · exact .last fun _ => .pure fun id => by simp

private theorem displayRest_yields (kind : Display) (closing : String) :
    (displayRest g kind closing).Yields Expr.Compound := by
  refine .last fun closed => ?_
  split
  · exact .pure fun id => by simp
  · refine .last fun first => .last fun next => ?_
    split
    · exact .last fun _ => .last fun _ => .pure fun id => by simp
    · refine .last fun more => ?_
      split
      · exact .last fun _ => .pure fun id => by simp
      · exact .last fun _ => .pure fun id => by simp

private theorem braced_yields : (braced g).Yields Expr.Compound := by
  refine .last fun _ => .last fun next => ?_
  split
  · exact .last fun _ => .pure fun id => by simp
  · exact .last fun _ => .last fun _ => .pure fun id => by simp
  · exact .last fun _ => .pure fun id => by simp
  · refine .last fun first => .last fun colon => ?_
    split
    · refine .last fun value => .last fun next => ?_
      split
      · exact .last fun _ => .last fun _ => .pure fun id => by simp
      · refine .last fun more => ?_
        split
        · exact .last fun _ => .pure fun id => by simp
        · exact .last fun _ => .pure fun id => by simp
    · refine .last fun next => ?_
      split
      · exact .last fun _ => .last fun _ => .pure fun id => by simp
      · refine .last fun more => ?_
        split
        · exact .last fun _ => .pure fun id => by simp
        · exact .last fun _ => .pure fun id => by simp

/-- The only rule that gives an expression which is a name. -/
private theorem atom_yields (before after : Place) : (atom g before after).Yields Expr.Named := by
  refine .last fun _ => .last fun next => ?_
  split
  · exact stringLiterals_yields g .more after
  · exact (parenthesized_yields g).mono fun _ => Expr.Compound.named
  · exact .last fun _ => (displayRest_yields g .list "]").mono fun _ => Expr.Compound.named
  · exact (braced_yields g).mono fun _ => Expr.Compound.named
  · refine .bind (take_yields .more) fun token htoken => ?_
    split
    · exact .pure fun id hid => by simp at hid
    · exact .pure fun id hid => by simp at hid
    · exact .pure fun id hid => by simp at hid
    · rename_i word
      split
      · exact .pure fun id hid => by simp at hid
      · split
        · refine .pure fun id hid => ?_
          obtain rfl := Expr.name.inj hid
          exact htoken word rfl
        · exact .failure
    · exact .failure

private theorem trailing_yields (after : Place) (start : Nat) {base : Expr} (h : base.Named) :
    (trailing g after start base).Yields Expr.Named := by
  refine .last fun _ => .loop (I := Expr.Named) h fun base hbase => .last fun next => ?_
  split
  · exact .last fun _ => .last fun _ => .last fun _ => .last fun _ => .last fun _ =>
      .pure fun id hid => by simp at hid
  · exact .last fun _ => .last fun _ => .last fun _ => .pure fun id hid => by simp at hid
  · exact .last fun _ => .last fun _ => .last fun _ => .pure fun id hid => by simp at hid
  · exact .pure hbase

private theorem trailed_yields (before after : Place) :
    (trailed g before after).Yields Expr.Named := by
  refine .last fun starred => ?_
  split
  · refine .last fun _ => .last fun _ => .last fun _ => .last fun base => ?_
    split
    · exact .pure fun id hid => by simp at hid
    · exact .failure
  · exact .last fun _ => .last fun here => .bind (atom_yields g .more after) fun base hbase =>
      trailing_yields g after here.offset hbase

private theorem factor_yields (before after : Place) :
    (factor g before after).Yields Expr.Named := by
  refine .last fun next => ?_
  split
  · exact .last fun _ => .last fun _ => .pure fun id hid => by simp at hid
  · exact .last fun _ => .last fun _ => .pure fun id hid => by simp at hid
  · exact .last fun _ => .last fun _ => .pure fun id hid => by simp at hid
  · refine .last fun _ => .last fun start => .last fun _ => .last fun following => ?_
    split
    · exact .last fun _ => trailed_yields g .more after
    · exact .last fun _ => trailed_yields g .more after
    · exact .last fun _ => trailed_yields g .more after
    · refine .last fun _ => ?_
      split
      · refine .either ?_ (trailed_yields g .more after)
        exact .last fun _ => .last fun _ => .pure fun id hid => by simp at hid
      · exact trailed_yields g .more after
  · exact trailed_yields g before after

private theorem chain_yields (before after : Place) : (chain g before after).Yields Expr.Named := by
  refine .bind (factor_yields g before after) fun first hfirst => .last fun rest => .pure ?_
  split
  · exact hfirst
  · exact fun id hid => by simp at hid

private theorem comparison_yields (before after : Place) :
    (comparison g before after).Yields Expr.Named := by
  refine .bind (chain_yields g before after) fun first hfirst => .last fun rest => .pure ?_
  split
  · exact hfirst
  · exact fun id hid => by simp at hid

private theorem operand_yields (conditional : Bool) (before after : Place) :
    (operand g conditional before after).Yields Expr.Named := by
  refine .last fun next => ?_
  split
  · exact .last fun _ => .last fun _ => .pure fun id hid => by simp at hid
  · exact .last fun _ => .last fun _ => .last fun _ => .pure fun id hid => by simp at hid
  · refine .bind (comparison_yields g before after) fun first hfirst => ?_
    split
    · refine .last fun assigned => ?_
      split
      · exact .last fun _ => .pure fun id hid => by simp at hid
      · exact .pure hfirst
    · exact .pure hfirst

theorem expression_yields (conditional : Bool) (before after : Place) :
    (expression g conditional before after).Yields Expr.Named := by
  refine .bind (operand_yields g conditional before after) fun first hfirst =>
    .loop (I := Expr.Named) hfirst fun left hleft => .last fun next => ?_
  split
  · exact .last fun _ => .last fun _ => .pure fun id hid => by simp at hid
  · exact .last fun _ => .last fun _ => .pure fun id hid => by simp at hid
  · exact .last fun _ => .last fun _ => .pure fun id hid => by simp at hid
  · split
    · exact .last fun _ => .last fun _ => .last fun _ => .last fun _ =>
        .pure fun id hid => by simp at hid
    · exact .pure hleft
  · exact .pure hleft

end

end ElementBinding.Grammar
