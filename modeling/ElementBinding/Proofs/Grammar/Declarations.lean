import ElementBinding.Scan
import ElementBinding.Proofs.Grammar.Names

/-!
# Names that a module declares

Every class at the top level of a module, and every field assigned in its body, is spelled with the
characters of names. Statements of all kinds pass through the same blocks, so each rule is shown to
give no assignment and no class but such.
-/
namespace ElementBinding.Grammar
open Rule

variable {whole : List Char}

/-- A name that is assigned to is spelled like one, and the text of an annotation is copied from the
source. -/
structure Assignment.Named (source : List Char) (assignment : Assignment) : Prop where
  target : ∀ id, assignment.target.name? = some id → IsName id
  hint : ∀ text, assignment.hint = some text → ∀ c ∈ text.toList, c ∈ source

def Stmt.TargetsNamed (source : List Char) (statement : Stmt) : Prop :=
  ∀ assignment, statement = .assignment assignment → assignment.Named source

private def Value.Named (source : List Char) (value : Value) : Prop :=
  ∀ assignment, value = .nested assignment → assignment.Named source

/-- A class that the statement declares, and the fields in its body, are spelled like names. -/
def Stmt.ClassNamed (source : List Char) (statement : Stmt) : Prop :=
  ∀ found, ClassStatement.of? statement = some found →
    (IsName found.name ∧ isReserved found.name = false) ∧
      ∀ inner ∈ found.body, inner.TargetsNamed source

def Stmt.Named (source : List Char) (statement : Stmt) : Prop :=
  statement.TargetsNamed source ∧ statement.ClassNamed source

private def Stmt.Other (statement : Stmt) : Prop :=
  (∀ assignment, statement ≠ .assignment assignment) ∧ ClassStatement.of? statement = none

private theorem Stmt.Other.named {source : List Char} {statement : Stmt} (h : statement.Other) :
    statement.Named source :=
  ⟨fun assignment hassign => absurd hassign (h.1 assignment),
    fun found hfound => by rw [h.2] at hfound; simp at hfound⟩

/-- The nested rules give names where they give expressions and bodies. -/
structure Rules.Named (g : Rules whole) : Prop where
  expression : ∀ conditional before after,
    (g.expression conditional before after).Yields Expr.Named
  suite : g.suite.Yields fun statements => ∀ statement ∈ statements, statement.TargetsNamed whole

section

variable {g : Rules whole}

private theorem lineExpressions_yields (hg : g.Named) (before : Place) :
    (lineExpressions g before).Yields fun found => ∀ e ∈ found.1, e.Named := by
  refine .bind (hg.expression true before .line) fun first hfirst =>
    .loop (I := fun items => ∀ e ∈ items, e.Named) (by simpa using hfirst) fun items hitems =>
      .last fun comma => ?_
  split
  · refine .last fun next => ?_
    split
    · refine .bind (hg.expression true .line .line) fun e he => .pure ?_
      intro found hfound
      rcases List.mem_append.mp hfound with hfound | hfound
      · exact hitems found hfound
      · exact List.mem_singleton.mp hfound ▸ he
    · exact .pure hitems
  · exact .pure hitems

private theorem name?_named {isList : Bool} {items : List Expr} {text id : String}
    (hitems : ∀ e ∈ items, e.Named) (h : (⟨isList, items, text⟩ : Target).name? = some id) :
    IsName id := by
  unfold Target.name? at h
  split at h
  · rename_i found _ heq
    obtain rfl := Option.some.inj h
    simp only at heq
    exact hitems _ (by rw [heq]; exact List.mem_singleton.mpr rfl) _ rfl
  · simp at h

private theorem assigned_yields (hg : g.Named) (before : Place) :
    (assigned g before).Yields (Value.Named whole) := by
  refine .last fun next => ?_
  split
  · exact .last fun _ => .pure fun assignment hassign => by simp at hassign
  · refine .bind (.spanned (lineExpressions_yields hg .more)) fun found hfound => ?_
    obtain ⟨⟨values, trailing⟩, text, line⟩ := found
    have hassignment {hint : Option String} (hhint : ∀ text, hint = some text →
          ∀ c ∈ text.toList, c ∈ whole) (operator : String) (value : Option Value) :
        (if areAssignable values then
          return .nested (.mk line ⟨trailing || values.length ≠ 1, values, text⟩ hint
            operator value)
          else failure : Rule whole Value).Yields (Value.Named whole) := by
      split
      · refine .pure fun assignment hassign => ?_
        obtain rfl := Value.nested.inj hassign
        exact ⟨fun id hid => name?_named hfound hid, hhint⟩
      · exact .failure
    refine .last fun next => ?_
    split
    · refine .last fun _ => .bind (.spanned_text _ _) fun annotation hannotation =>
        .last fun equals => ?_
      have hhint : ∀ text, some annotation.2.1 = some text → ∀ c ∈ text.toList, c ∈ whole := by
        rintro _ ⟨⟩
        exact hannotation
      split
      · exact .last fun value => hassignment hhint _ _
      · exact hassignment hhint _ _
    · split
      · exact .last fun _ => .last fun value => hassignment (by simp) _ _
      · exact .pure fun assignment hassign => by simp at hassign
      · exact .pure fun assignment hassign => by simp at hassign

private theorem expressionStatement_yields (hg : g.Named) :
    (expressionStatement g).Yields (Stmt.Named whole) := by
  refine .bind (assigned_yields hg .more) fun value hvalue => ?_
  split
  · exact .pure (Stmt.Other.named ⟨by simp, rfl⟩)
  · exact .pure (Stmt.Other.named ⟨by simp, rfl⟩)
  · refine .pure ⟨fun assignment hassign => ?_,
      fun found hfound => by simp [ClassStatement.of?] at hfound⟩
    exact hvalue assignment (congrArg Value.nested (Stmt.assignment.inj hassign))

private theorem importFrom_yields : (importFrom : Rule whole Stmt).Yields Stmt.Other := by
  have hrest (dots : Nat) (source : List String) :
      (do
        Rule.word .more "import"
        if (← Rule.peek .more) = .symbol "*" && source ≠ ["__future__"] then
          Rule.symbol .more "*"
          return .importAll dots source
        else return .importFrom dots source (← importedNames) :
          Rule whole Stmt).Yields Stmt.Other := by
    refine .last fun _ => .last fun star => ?_
    split
    · exact .last fun _ => .pure ⟨by simp, rfl⟩
    · exact .last fun _ => .pure ⟨by simp, rfl⟩
  refine .last fun dots => .last fun next => ?_
  dsimp only
  split
  · exact .last fun source => hrest dots source
  · exact .last fun source => hrest dots source

private theorem keywordStatement_yields (keyword : String) :
    (keywordStatement g keyword).Yields Stmt.Other := by
  unfold keywordStatement
  split
  · exact .last fun _ => .pure ⟨by simp, rfl⟩
  · exact importFrom_yields
  · exact .last fun _ => .pure ⟨by simp, rfl⟩
  · exact .last fun _ => .pure ⟨by simp, rfl⟩
  · exact .last fun _ => .pure ⟨by simp, rfl⟩
  · refine .last fun values => .last fun cause => ?_
    split
    · exact .last fun _ => .pure ⟨by simp, rfl⟩
    · exact .pure ⟨by simp, rfl⟩
  · exact .pure ⟨by simp, rfl⟩
  · exact .pure ⟨by simp, rfl⟩
  · exact .pure ⟨by simp, rfl⟩
  · exact .last fun _ => .pure ⟨by simp, rfl⟩
  · exact .last fun _ => .pure ⟨by simp, rfl⟩
  · exact .failure

private theorem printStatement_yields : (printStatement g).Yields Stmt.Other := by
  refine .last fun _ => .last fun redirected => ?_
  split
  · refine .last fun target => .last fun comma => ?_
    split
    · exact .last fun _ => .pure ⟨by simp, rfl⟩
    · exact .pure ⟨by simp, rfl⟩
  · exact .last fun _ => .pure ⟨by simp, rfl⟩

private theorem executeStatement_yields : (executeStatement g).Yields Stmt.Other := by
  have hrest (code : Expr) :
      (do
        if ← Rule.word? .line "in" then
          return .execute
            (code :: (← commaSeparated (g.expression true .more .line) false .line))
        else return .execute [code] : Rule whole Stmt).Yields Stmt.Other := by
    refine .last fun inside => ?_
    split
    · exact .last fun _ => .pure ⟨by simp, rfl⟩
    · exact .pure ⟨by simp, rfl⟩
  refine .last fun _ => .last fun next => ?_
  dsimp only
  split
  · exact .last fun _ => .last fun code => hrest code
  · exact .last fun _ => .last fun code => hrest code

private theorem typeAliasStatement_yields : (typeAliasStatement g).Yields Stmt.Other :=
  .last fun _ => .pure ⟨by simp, rfl⟩

private theorem ended_yields {fresh : Bool} {statement : Rule whole Stmt} {P : Stmt → Prop}
    (h : statement.Yields P) : (ended fresh statement).Yields P := by
  refine .last fun _ => .last fun start => .bind h fun result hresult => .last fun next => ?_
  split
  · exact .pure hresult
  · exact .pure hresult
  · refine .last fun cut => ?_
    split
    · exact .pure hresult
    · exact .failure

private theorem simpleStatement_yields (hg : g.Named) (fresh : Bool) :
    (simpleStatement g fresh).Yields (Stmt.Named whole) := by
  have hexpression : (ended fresh (expressionStatement g)).Yields (Stmt.Named whole) :=
    ended_yields (expressionStatement_yields hg)
  have hother {statement : Rule whole Stmt} (h : statement.Yields Stmt.Other) :
      (ended fresh statement).Yields (Stmt.Named whole) :=
    ended_yields (h.mono fun _ => Stmt.Other.named)
  refine .last fun next => ?_
  split
  · exact .either hexpression (hother printStatement_yields)
  · exact .either hexpression (hother executeStatement_yields)
  · exact .either (hother typeAliasStatement_yields) hexpression
  · rename_i word _ _ _
    split
    · exact hother (.last fun _ => keywordStatement_yields word)
    · exact hexpression
  · exact hexpression

private theorem forall_mem_append {P : α → Prop} {first rest : List α} (h : ∀ a ∈ first, P a)
    (h' : ∀ a ∈ rest, P a) : ∀ a ∈ first ++ rest, P a := by
  intro a ha
  rcases List.mem_append.mp ha with ha | ha
  · exact h a ha
  · exact h' a ha

private theorem simpleStatements_yields (hg : g.Named) (fresh : Bool) :
    (simpleStatements g fresh).Yields fun found => ∀ statement ∈ found, statement.Named whole := by
  refine .bind (simpleStatement_yields hg fresh) fun first hfirst =>
    .loop (I := fun found => ∀ statement ∈ found, statement.Named whole) (by simpa using hfirst)
      fun found hfound => .last fun semicolon => ?_
  split
  · refine .last fun next => ?_
    split
    · exact .pure hfound
    · exact .last fun _ => .bind (simpleStatement_yields hg false) fun statement hstatement =>
        .pure (forall_mem_append hfound (by simpa using hstatement))
  · exact .pure hfound

private theorem branches_yields : (branches g).Yields Stmt.Other :=
  .last fun _ => .last fun _ => .last fun _ => .pure ⟨by simp, rfl⟩

private theorem forLoop_yields (isAsync : Bool) : (forLoop g isAsync).Yields Stmt.Other :=
  .last fun _ => .last fun _ => .last fun _ => .last fun _ => .last fun _ =>
    .pure ⟨by simp, rfl⟩

private theorem whileLoop_yields : (whileLoop g).Yields Stmt.Other :=
  .last fun _ => .last fun _ => .pure ⟨by simp, rfl⟩

private theorem withItems_yields (isAsync : Bool) : (withItems g isAsync).Yields Stmt.Other :=
  .last fun _ => .last fun _ => .pure ⟨by simp, rfl⟩

private theorem guarded_yields : (guarded g).Yields Stmt.Other := by
  refine .last fun block => .last fun handlers => ?_
  dsimp only
  split
  · refine .last fun otherwise => .last fun cleanup => ?_
    split
    · exact .last fun _ => .pure ⟨by simp, rfl⟩
    · exact .pure ⟨by simp, rfl⟩
  · refine .last fun otherwise => .last fun cleanup => ?_
    split
    · exact .last fun _ => .pure ⟨by simp, rfl⟩
    · exact .pure ⟨by simp, rfl⟩

private theorem function_form (isAsync : Bool) :
    (function g isAsync).Yields fun statement =>
      ∃ name parameters hint inner, statement = .function isAsync name parameters hint inner :=
  .last fun _ => .last fun _ => .last fun _ => .last fun _ => .last fun _ => .pure ⟨_, _, _, _, rfl⟩

private theorem function_yields (isAsync : Bool) : (function g isAsync).Yields Stmt.Other := by
  refine (function_form isAsync).mono ?_
  rintro _ ⟨name, parameters, hint, inner, rfl⟩
  exact ⟨by simp, rfl⟩

private theorem matching_yields : (matching g).Yields Stmt.Other := by
  refine .last fun _ => .last fun subjects => .last fun _ => .last fun here => ?_
  split
  · exact .last fun _ => .pure ⟨by simp, rfl⟩
  · refine .last fun _ => .loop (I := fun _ => True) trivial fun cases _ => .last fun here => ?_
    split
    · exact .last fun _ => .last fun _ => .last fun _ => .pure trivial
    · exact .last fun _ => .pure ⟨by simp, rfl⟩
    · exact .failure
  · exact .failure

private theorem asynchronous_yields : (asynchronous g).Yields Stmt.Other := by
  refine .last fun _ => .last fun next => ?_
  split
  · exact function_yields true
  · exact forLoop_yields true
  · exact withItems_yields true
  · exact .failure

private theorem body_yields (hg : g.Named) :
    (body g).Yields fun statements => ∀ statement ∈ statements, statement.TargetsNamed whole :=
  .last fun _ => hg.suite

private theorem declaration_yields (hg : g.Named) (line : Nat) :
    (declaration g line).Yields fun statement =>
      (∀ assignment, statement ≠ .assignment assignment) ∧ statement.ClassNamed whole ∧
        ∃ name generic bases inner, statement = .declaration line name generic bases inner := by
  have hrest {name : String} (hname : IsName name ∧ isReserved name = false)
      (generic : Option String) (bases : List Argument) : (do
        return .declaration line name generic bases (← body g) :
          Rule whole Stmt).Yields fun statement =>
        (∀ assignment, statement ≠ .assignment assignment) ∧ statement.ClassNamed whole ∧
          ∃ name generic bases inner, statement = .declaration line name generic bases inner := by
    refine .bind (body_yields hg) fun inner hinner => .pure ⟨by simp, ?_, _, _, _, _, rfl⟩
    rintro found ⟨⟩
    exact ⟨hname, hinner⟩
  refine .bind (identifier_yields .more) fun name hname => .last fun generic =>
    .last fun bracket => ?_
  dsimp only
  split
  · refine .last fun bases => ?_
    split
    · exact .last fun _ => hrest hname generic bases
    · exact hrest hname generic bases
  · refine .last fun bases => ?_
    split
    · exact .last fun _ => hrest hname generic bases
    · exact hrest hname generic bases

private theorem decorated_yields (hg : g.Named) : (decorated g).Yields (Stmt.Named whole) := by
  have hfunction (decorators : List Expr) (isAsync : Bool) :
      (do return .inr (.decorated decorators (← function g isAsync)) :
        Rule whole (List Expr ⊕ Stmt)).Yields (Sum.elim (fun _ => True) (Stmt.Named whole)) := by
    refine .bind (function_form isAsync) fun statement hstatement => .pure ?_
    obtain ⟨name, parameters, hint, inner, rfl⟩ := hstatement
    exact Stmt.Other.named ⟨by simp, rfl⟩
  refine .loop (I := fun _ => True) trivial fun decorators _ => .last fun here =>
    .last fun next => ?_
  split
  · refine .last fun decorator => .last fun following => ?_
    split
    · refine .last fun _ => .last fun opening => ?_
      split
      · exact .pure trivial
      · exact .failure
    · refine .last fun opening => ?_
      split
      · exact .pure trivial
      · exact .failure
  · refine .bind (declaration_yields hg here.line) fun statement hstatement => .pure ?_
    obtain ⟨-, hclass, name, generic, bases, inner, rfl⟩ := hstatement
    exact ⟨fun assignment hassign => by simp at hassign, hclass⟩
  · exact hfunction decorators false
  · exact .last fun _ => hfunction decorators true
  · exact .failure

private theorem statements_yields (hg : g.Named) :
    (statements g).Yields fun found => ∀ statement ∈ found, statement.Named whole := by
  have hone {keyword : String} {rule : Rule whole Stmt} (h : rule.Yields (Stmt.Named whole)) :
      (do
        Rule.word .more keyword
        return [← rule] : Rule whole (List Stmt)).Yields fun found =>
          ∀ statement ∈ found, statement.Named whole :=
    .last fun _ => .bind h fun statement hstatement => .pure (by simpa using hstatement)
  have hother {rule : Rule whole Stmt} (h : rule.Yields Stmt.Other) :
    rule.Yields (Stmt.Named whole) :=
    h.mono fun _ => Stmt.Other.named
  refine .last fun here => .last fun next => ?_
  split
  · exact hone (hother branches_yields)
  · exact hone (hother (forLoop_yields false))
  · exact hone (hother whileLoop_yields)
  · exact hone (hother guarded_yields)
  · exact hone (hother (withItems_yields false))
  · exact hone (hother (function_yields false))
  · exact hone ((declaration_yields hg here.line).mono fun statement h =>
      ⟨fun assignment hassign => absurd hassign (h.1 assignment), h.2.1⟩)
  · refine .either (.bind (hother asynchronous_yields) fun statement hstatement => .pure ?_)
      (simpleStatements_yields hg true)
    simpa using hstatement
  · refine .either (.bind (hother matching_yields) fun statement hstatement => .pure ?_)
      (simpleStatements_yields hg true)
    simpa using hstatement
  · exact .bind (decorated_yields hg) fun statement hstatement => .pure (by simpa using hstatement)
  · exact simpleStatements_yields hg true

private theorem block_yields (hg : g.Named) (inBlock : Bool) :
    (block g inBlock).Yields fun found => ∀ statement ∈ found, statement.Named whole := by
  refine .loop (I := fun found => ∀ statement ∈ found, statement.Named whole) (by simp)
    fun found hfound => .last fun here => ?_
  split
  · exact .last fun _ => .bind (statements_yields hg) fun more hmore =>
      .pure (forall_mem_append hfound hmore)
  · exact .last fun _ => .pure hfound
  · split
    · exact .failure
    · exact .pure hfound
  · exact .failure

private theorem suite_yields (hg : g.Named) :
    (suite g).Yields fun found => ∀ statement ∈ found, statement.Named whole := by
  refine .last fun here => ?_
  split
  · exact .last fun _ => simpleStatements_yields hg false
  · exact .last fun _ => block_yields hg true
  · exact .last fun _ => .pure (by simp)
  · exact .failure

end

theorem Rules.named_ofDepth (depth : Nat) : (Rules.ofDepth depth : Rules whole).Named := by
  unfold Rules.ofDepth
  induction depth with
  | zero => exact ⟨fun _ _ _ => .failure, .failure⟩
  | succ depth ih =>
    exact ⟨fun conditional before after => expression_yields _ conditional before after,
      (suite_yields ih).mono fun _ h statement hstatement => (h statement hstatement).1⟩

theorem Module.nullFree_of_parse? {text : List Char} {module : Module}
    (h : Module.parse? text = some module) : ∀ c ∈ text, c.toNat ≠ 0 := by
  unfold Module.parse? at h
  split at h
  · simp at h
  · rename_i hnull
    simpa using hnull

/-- The classes of a module that can be read, and the fields in their bodies, have names. -/
theorem Module.parse?_named {text : List Char} {module : Module}
    (h : Module.parse? text = some module) :
    ∀ statement ∈ module.classes, (IsName statement.name ∧ isReserved statement.name = false) ∧
      ∀ inner ∈ statement.body, inner.TargetsNamed text := by
  unfold Module.parse? at h
  split at h
  · simp at h
  · simp only at h
    split at h
    · rename_i found after hblock
      obtain rfl := Option.some.inj h
      intro statement hstatement
      obtain ⟨source, hsource, hof⟩ := List.mem_filterMap.mp hstatement
      have hnamed := block_yields (Rules.named_ofDepth _) false _ _ _ hblock source hsource
      exact hnamed.2 statement hof
    · simp at h

end ElementBinding.Grammar
