import ElementBinding.Proofs.Grammar.Says

/-!
# Texts of blocks and modules

A class or a function has a block behind its colon: statements on lines of their own, all indented
alike. A module is a sequence of statements with comments and empty lines between them; a text that
is made up so is parsed.
-/
namespace ElementBinding.Grammar
open ElementBinding.Text

variable {whole : List Char}

/-- Statements on lines of their own, and what follows them. -/
def blockText (indent : Nat) (statements : List (List Char)) (rest : List Char) : List Char :=
  statements.flatMap (fun text => '\n' :: (List.replicate indent ' ' ++ text)) ++ rest

theorem blockText_append (indent : Nat) (statements : List (List Char)) (rest more : List Char) :
    blockText indent statements rest ++ more = blockText indent statements (rest ++ more) := by
  rw [blockText, blockText, List.append_assoc]

theorem blockText_cons (indent : Nat) (text : List Char) (more : List (List Char))
    (rest : List Char) : blockText indent (text :: more) rest =
      '\n' :: (List.replicate indent ' ' ++ (text ++ blockText indent more rest)) := by
  simp [blockText]

theorem Leads.indented (indent : Nat) {c : Char} (h : startsToken c) (rest : List Char) :
    Leads .bracket ('\n' :: (List.replicate indent ' ' ++ c :: rest)) (c :: rest) := by
  refine .line rfl ?_
  induction indent with
  | zero => exact .here h
  | succ indent ih => exact .space ih

namespace Cursor
variable {c : Cursor whole} {indents : List Nat} {indent : Nat}

theorem opening_of_line {first : Char} {rest : List Char} (h : startsToken first)
    (hc : c.Stands ⟨indent :: indents,
      '\n' :: (List.replicate indent ' ' ++ first :: rest)⟩) :
    ∃ start, c.opening true = some (.statement start) ∧
      start.Stands ⟨indent :: indents, first :: rest⟩ := by
  have hleads := Leads.indented indent h rest
  obtain ⟨char, more, hrest, hhash, hcontinued⟩ := skipGapChars_starts hleads hc
  refine ⟨c.skipGapChars, ?_, skipGapChars_stands hleads hc⟩
  have hlayout : c.layout true = ⟨true, indent, some first⟩ := by
    rw [layout, hc.rest, layoutFrom_line indent h]
  have hindent : c.indent = indent := by rw [Cursor.indent, hc.indents]; rfl
  unfold opening findOpening
  simp only [hlayout, hindent, Nat.lt_irrefl, hrest, hcontinued, decide_false, Bool.and_false,
    Bool.false_eq_true, if_false]
  split <;> simp_all

theorem opening_of_returns {outer : Nat} {rest : List Char} (h : Returns outer rest)
    (houter : outer < indent) (hc : c.Stands ⟨indent :: indents, rest⟩) :
    ∃ after, c.opening true = some (.blockEnd after) ∧ after.Stands ⟨indents, rest⟩ := by
  have hlayout : c.layout true = layoutFrom true false false 0 rest := by rw [layout, hc.rest]
  have hindent : c.indent = indent := by rw [Cursor.indent, hc.indents]; rfl
  have hless : (layoutFrom true false false 0 rest).indent < indent := h.indent.trans_lt houter
  refine ⟨{ c with indents := c.indents.tail }, ?_, hc.rest, by rw [hc.indents]; rfl, hc.inFormat⟩
  unfold opening findOpening
  simp [hlayout, hindent, hless, h.lineEnds]

theorem suiteStart_of_line {first : Char} {rest : List Char} (h : startsToken first)
    (hfurther : indents.headD 0 < indent)
    (hc : c.Stands ⟨indents, '\n' :: (List.replicate indent ' ' ++ first :: rest)⟩) :
    ∃ inside, c.suiteStart = some (.block inside) ∧ inside.Stands ⟨indent :: indents,
      '\n' :: (List.replicate indent ' ' ++ first :: rest)⟩ := by
  have hlayout : c.layout true = ⟨true, indent, some first⟩ := by
    rw [layout, hc.rest, layoutFrom_line indent h]
  have hindent : c.indent < indent := by rwa [Cursor.indent, hc.indents]
  refine ⟨{ c with indents := indent :: c.indents }, ?_, hc.rest, by rw [hc.indents], hc.inFormat⟩
  unfold suiteStart findSuite
  simp [hlayout, hindent]

end Cursor

namespace Says
variable {depth n : Nat} {indents : List Nat} {indent outer : Nat}
  {properties : List (Stmt → Prop)} {texts : List (List Char)} {rest : List Char}

private theorem returns_blockText
    (h : List.Forall₂ (Says depth (indent :: indents)) properties texts)
    (hrest : Returns indent rest) : Returns indent (blockText indent texts rest) := by
  cases h with
  | nil => exact hrest
  | cons hstated _ =>
    obtain ⟨first, others, rfl, hstarts⟩ := hstated.starts
    rw [blockText_cons, List.cons_append]
    exact .of_starts indent hstarts _

/-- A block is read up to the line that is indented less. -/
theorem block_reads (hn : depth ≤ n)
    (h : List.Forall₂ (Says depth (indent :: indents)) properties texts)
    (hrest : Returns outer rest) (houter : outer < indent) :
    (block (Rules.ofDepth n : Rules whole) true).Reads
      ⟨indent :: indents, blockText indent texts rest⟩ (Matches properties) ⟨indents, rest⟩ := by
  have hnone : Matches [] ([] : List Stmt) := .nil
  refine Rule.Settles.loop (I := Matches []) ?_ hnone
  -- The statements that were read before are those of the state.
  refine (?_ : ∀ done : List (Stmt → Prop), Rule.Settles _ _ (Matches done)
    (Matches (done ++ properties)) _) []
  induction h with
  | nil =>
    intro done
    refine .last fun collected hdone => .bind .cursor fun c hc => ?_
    obtain ⟨after, hopening, hafter⟩ := Cursor.opening_of_returns hrest houter hc
    rw [hopening]
    exact .bind (.set hafter) fun _ _ => .pure ⟨_, rfl, by rwa [List.append_nil]⟩
  | @cons P text properties more hstated hmore ih =>
    intro done
    obtain ⟨first, others, hfirst, hstarts⟩ := hstated.starts
    have hreturns : Returns indent (blockText indent more rest) :=
      returns_blockText hmore (hrest.mono houter.le)
    have hagain := ih (done ++ [P])
    rw [List.append_assoc] at hagain
    refine .more (by simp [blockText_cons]; omega)
      (fun collected hdone => .bind .cursor fun c hc => ?_) hagain
    rw [blockText_cons, hfirst, List.cons_append] at hc
    obtain ⟨start, hopening, hstart⟩ := Cursor.opening_of_line hstarts hc
    rw [hopening]
    refine .bind (.set hstart) fun _ _ => ?_
    have hread := hstated.reads whole n hn (blockText indent more rest) hreturns
    rw [hfirst, List.cons_append] at hread
    exact .bind hread fun _ hfound => .pure ⟨_, rfl, hdone.append hfound⟩

private theorem suite_reads (hn : depth ≤ n) {text : List Char} {more : List (List Char)}
    (h : List.Forall₂ (Says depth (indent :: indents)) properties (text :: more))
    (hfurther : indents.headD 0 < indent) (hrest : Returns (indents.headD 0) rest) :
    (suite (Rules.ofDepth n : Rules whole)).Reads ⟨indents, blockText indent (text :: more) rest⟩
      (Matches properties) ⟨indents, rest⟩ := by
  obtain ⟨P, others, hstated, -, -⟩ := List.forall₂_cons_right_iff.mp h
  obtain ⟨first, others, hfirst, hstarts⟩ := hstated.starts
  have htext : blockText indent (text :: more) rest = '\n' :: (List.replicate indent ' ' ++
      first :: (others ++ blockText indent more rest)) := by
    rw [blockText_cons, hfirst, List.cons_append]
  refine .bind .cursor fun c hc => ?_
  rw [htext] at hc
  obtain ⟨inside, hsuite, hinside⟩ := Cursor.suiteStart_of_line hstarts hfurther hc
  rw [hsuite]
  rw [← htext] at hinside
  exact .bind (.set hinside) fun _ _ => block_reads hn h hrest hfurther

private theorem body_reads (hn : depth ≤ n) {text : List Char} {more : List (List Char)}
    (h : List.Forall₂ (Says depth (indent :: indents)) properties (text :: more))
    (hfurther : indents.headD 0 < indent) (hrest : Returns (indents.headD 0) rest) :
    (body (Rules.ofDepth (n + 1) : Rules whole)).Reads
      ⟨indents, ':' :: blockText indent (text :: more) rest⟩ (Matches properties)
      ⟨indents, rest⟩ := by
  have hcolon : Comes .more (':' :: blockText indent (text :: more) rest) (.symbol ":")
      (blockText indent (text :: more) rest) := by
    rw [blockText_cons]
    exact ⟨_, .here rfl, .lastColon⟩
  exact .bind (.symbol hcolon) fun _ _ => suite_reads hn h hfurther hrest

end Says

section

variable {depth n : Nat} {indents : List Nat} {front rest : List Char} {before after : Place}

private theorem startsGenericType_reads {word : String} {closing : Token}
    (hcomes : Comes before front (.name word) rest) (hclosing : Shows after rest closing)
    (hother : closing ≠ .symbol "[") :
    (startsGenericType before after : Rule whole Bool).Reads ⟨indents, front⟩ (· = false)
      ⟨indents, front⟩ := by
  intro c hc
  refine ⟨false, c, ?_, rfl, hc⟩
  unfold startsGenericType
  by_cases hreserved : isReserved word
  · have hfails : (do
        let name ← Rule.identifier before
        return !plainOnlyWords.contains name && (← Rule.peek after) = .symbol "[" :
          Rule whole Bool).Fails ⟨indents, front⟩ := by
      refine .first (.later (.take hcomes) fun _ hvalue => ?_)
      simp only [hvalue, hreserved, if_true]
      exact .failure
    have hnone := hfails c hc
    rw [StateT.run] at hnone ⊢
    simp only [hnone]
  · have hreads : (do
        let name ← Rule.identifier before
        return !plainOnlyWords.contains name && (← Rule.peek after) = .symbol "[" :
          Rule whole Bool).Reads ⟨indents, front⟩ (· = false) ⟨indents, rest⟩ := by
      have hidentifier : (Rule.identifier before : Rule whole String).Reads ⟨indents, front⟩
          (· = word) ⟨indents, rest⟩ := by
        refine .andThen (.take hcomes) ?_
        simp only [hreserved]
        exact .pure rfl
      refine .andThen hidentifier (.andThen (.peek hclosing) (.pure ?_))
      simp [hother]
    obtain ⟨value, stop, hrun, rfl, -⟩ := hreads c hc
    rw [StateT.run] at hrun ⊢
    simp only [hrun]

private theorem hint_reads {word : String} {P : Expr → Prop} (hname : IsName word)
    (h : Spells depth P word.toList) (hn : depth ≤ n) {bounded : Bool}
    (hleads : Leads before front (word.toList ++ rest)) (hstops : Stops after rest)
    {closing : Token} (hclosing : Shows after rest closing) (hends : closing.Ends)
    (hunbounded : bounded → closing ≠ .symbol ":") :
    (hint (Rules.ofDepth n : Rules whole) bounded before after).Reads ⟨indents, front⟩
      (fun _ => True) ⟨indents, rest⟩ := by
  have hcomes : Comes before front (.name word) rest := .name hname hleads hstops.isCut
  have hother : closing ≠ .symbol "[" := by
    rintro rfl
    simp [Token.Ends] at hends
  refine .andThen (startsGenericType_reads hcomes hclosing hother) ?_
  rw [if_neg (by simp)]
  refine .andThen (.symbol?_no (.token hcomes) (by simp)) ?_
  rw [if_neg (by simp)]
  refine .bind (h.reads whole n hn true before after indents front rest hleads hstops)
    fun _ _ => ?_
  cases bounded with
  | false => exact .pure trivial
  | true =>
    rw [if_pos rfl]
    exact .andThen (.symbol?_no hclosing (hunbounded rfl)) (.pure trivial)

end

/-- The text of a parameter, which may be annotated with a name. -/
def parameterText (name : String) : Option String → List Char
  | none => name.toList
  | some hint => name.toList ++ ':' :: ' ' :: hint.toList

section Parameter
variable {n : Nat} {indents : List Nat} {rest : List Char} {closing : Token}

private theorem Separates.shows (h : Separates rest) : ∃ closing, Shows .bracket rest closing ∧
    closing.Ends ∧ closing ≠ .symbol ":" ∧ closing ≠ .symbol "=" := by
  cases h with
  | comma rest => exact ⟨_, .token ⟨_, .here rfl, .comma⟩, by simp [Token.Ends], by decide⟩
  | bracket rest => exact ⟨_, .token ⟨_, .here rfl, .rightBracket⟩, by simp [Token.Ends], by decide⟩

private theorem default_reads (hclosing : Shows .bracket rest closing)
    (hother : closing ≠ .symbol "=") :
    (do
      if ← Rule.symbol? .bracket "=" then
        return some (← (Rules.ofDepth n : Rules whole).expression true .more .bracket)
      else return none : Rule whole (Option Expr)).Reads ⟨indents, rest⟩ (· = none)
        ⟨indents, rest⟩ :=
  .andThen (.symbol?_no hclosing hother) (.pure rfl)

private theorem annotation_reads {text : String} (htext : IsFreeName text)
    (hrest : Separates rest) (hclosing : Shows .bracket rest closing) (hends : closing.Ends)
    (hother : closing ≠ .symbol ":") :
    (do
      if ← Rule.symbol? .bracket ":" then
        let ((), text, _) ← Rule.spanned .more
          ((Rules.ofDepth (n + 1) : Rules whole).hint true .more .bracket)
        return some text
      return none : Rule whole (Option String)).Reads
        ⟨indents, ':' :: ' ' :: (text.toList ++ rest)⟩ (· = some text) ⟨indents, rest⟩ := by
  have hcolon : Comes .bracket (':' :: ' ' :: (text.toList ++ rest)) (.symbol ":")
      (' ' :: (text.toList ++ rest)) := ⟨_, .here rfl, .colon⟩
  have hspells := (Spells.name htext).mono (Nat.zero_le n) fun _ he => he
  have hread : (Grammar.hint (Rules.ofDepth n : Rules whole) true .more .bracket).Reads
      ⟨indents, text.toList ++ rest⟩ (fun _ => True) ⟨indents, rest⟩ :=
    hint_reads htext.toIsName hspells le_rfl (.name htext.toIsName rest) (hrest.stops .bracket)
      hclosing hends fun _ => hother
  refine .andThen (.symbol?_yes hcolon) ?_
  rw [if_pos rfl]
  refine .bind (.spanned_text (.space (.name htext.toIsName rest)) hread)
    fun (_, written, _) ⟨_, hwritten⟩ => ?_
  rw [String.ofList_toList] at hwritten
  exact .pure (hwritten ▸ rfl)

private theorem parameter_comes {name : String} {hint : Option String} (hname : IsFreeName name)
    {front : List Char} (hleads : Leads .bracket front (parameterText name hint ++ rest))
    (hrest : Separates rest) : ∃ behind, parameterText name hint = name.toList ++ behind ∧
      Comes .bracket front (.name name) (behind ++ rest) := by
  cases hint with
  | none =>
    exact ⟨[], (List.append_nil _).symm, .name hname.toIsName hleads (hrest.stops .bracket).isCut⟩
  | some text =>
    have htext : parameterText name (some text) = name.toList ++ ':' :: ' ' :: text.toList := rfl
    rw [htext, List.append_assoc] at hleads
    exact ⟨_, htext, .name hname.toIsName hleads rfl⟩

private theorem parameter_readsItem {name : String} {hint : Option String}
    (hname : IsFreeName name) (hhint : ∀ text ∈ hint, IsFreeName text) (n : Nat)
    (indents : List Nat) :
    Rule.ReadsItem (parameter (Rules.ofDepth (n + 1) : Rules whole) true .bracket) indents
      (· = .plain name hint none) (parameterText name hint) := by
  refine ⟨fun front rest hleads hrest => ?_, fun front rest hleads hrest => ?_⟩
  · obtain ⟨behind, -, hcomes⟩ := parameter_comes hname hleads hrest
    exact ⟨_, .token hcomes, hname.opens⟩
  · obtain ⟨behind, hbehind, hcomes⟩ := parameter_comes hname hleads hrest
    obtain ⟨closing, hclosing, hends, hcolon, hequals⟩ := hrest.shows
    refine .andThen (.peek (.token hcomes)) (.andThen (.identifier hname hcomes) ?_)
    have hdefault := @default_reads whole (n + 1) indents rest closing hclosing hequals
    cases hint with
    | none =>
      obtain rfl : behind = [] := by simpa [parameterText] using hbehind
      exact .andThen (.andThen (.symbol?_no hclosing hcolon) (.pure rfl))
        (.andThen hdefault (.pure rfl))
    | some text =>
      obtain rfl := List.append_cancel_left hbehind
      exact .andThen (annotation_reads (hhint text rfl) hrest hclosing hends hcolon)
        (.andThen hdefault (.pure rfl))

end Parameter

def IsParameter (P : Parameter → Prop) (text : List Char) : Prop :=
  ∃ name hint, IsFreeName name ∧ (∀ word ∈ hint, IsFreeName word) ∧
    text = parameterText name hint ∧ P = (· = .plain name hint none)

private theorem IsParameter.readsItem {P : Parameter → Prop} {text : List Char}
    (h : IsParameter P text) (n : Nat) (indents : List Nat) :
    Rule.ReadsItem (parameter (Rules.ofDepth (n + 1) : Rules whole) true .bracket) indents P
      text := by
  obtain ⟨name, hint, hname, hhint, rfl, rfl⟩ := h
  exact parameter_readsItem hname hhint n indents

/-- The text of a class without bases. -/
def classText (name : String) (indent : Nat) (statements : List (List Char)) : List Char :=
  "class".toList ++ ' ' :: (name.toList ++ ':' :: blockText indent statements [])

/-- The text of a function that returns nothing; `parameters` ends with the closing bracket. -/
def functionText (name : String) (parameters : List Char) (indent : Nat)
    (statements : List (List Char)) : List Char :=
  "def".toList ++ ' ' :: (name.toList ++ '(' :: (parameters ++
    (' ' :: '-' :: '>' :: ' ' :: ("None".toList ++ ':' :: blockText indent statements []))))

def Stmt.IsClass (name : String) (properties : List (Stmt → Prop)) (statement : Stmt) : Prop :=
  ∃ line body, statement = .declaration line name none [] body ∧ Matches properties body

def Stmt.IsFunction (name : String) (parameters : List (Parameter → Prop))
    (properties : List (Stmt → Prop)) (statement : Stmt) : Prop :=
  ∃ found hint body, statement = .function false name found hint body ∧ Matches parameters found ∧
    Matches properties body

namespace Says
variable {depth : Nat} {indents : List Nat} {indent : Nat} {name : String}
  {properties : List (Stmt → Prop)} {text : List Char} {more : List (List Char)}

private theorem single_reads {keyword : String} {behind rest : List Char} {P : Stmt → Prop}
    {statement : Rule whole Stmt} (hname : IsName keyword) (hcut : isCut behind)
    (h : statement.Reads ⟨indents, behind⟩ P ⟨indents, rest⟩) :
    (do
      Rule.word .more keyword
      return [← statement] : Rule whole (List Stmt)).Reads
        ⟨indents, keyword.toList ++ behind⟩ (Matches [P]) ⟨indents, rest⟩ :=
  .bind (.word (.name hname (.name hname _) hcut)) fun _ _ =>
    .bind h fun _ hvalue => .pure (.cons hvalue .nil)

theorem declaration (hname : IsFreeName name)
    (h : List.Forall₂ (Says depth (indent :: indents)) properties (text :: more))
    (hfurther : indents.headD 0 < indent) :
    Says (depth + 1) indents (Stmt.IsClass name properties)
      (classText name indent (text :: more)) where
  starts := ⟨'c', _, rfl, rfl⟩
  reads whole n hn rest hrest := by
    obtain ⟨n, rfl⟩ : ∃ m, n = m + 1 := ⟨n - 1, by omega⟩
    have hkeyword : IsName "class" := by decide
    have htext : classText name indent (text :: more) ++ rest = "class".toList ++
        (' ' :: (name.toList ++ ':' :: blockText indent (text :: more) rest)) := by
      simp only [classText, List.append_assoc, List.cons_append, blockText_append, List.nil_append]
    have hleads : Leads .more (' ' :: (name.toList ++ ':' :: blockText indent (text :: more) rest))
        (name.toList ++ ':' :: blockText indent (text :: more) rest) :=
      .space (.name hname.toIsName _)
    have hcolon : Comes .more (':' :: blockText indent (text :: more) rest) (.symbol ":")
        (blockText indent (text :: more) rest) := by
      rw [blockText_cons]
      exact ⟨_, .here rfl, .lastColon⟩
    have hbody : (body (Rules.ofDepth (n + 1) : Rules whole)).Reads
        ⟨indents, ':' :: blockText indent (text :: more) rest⟩ (Matches properties)
        ⟨indents, rest⟩ :=
      body_reads (by omega : depth ≤ n) h hfurther hrest
    have hdeclaration (line : Nat) :
        (Grammar.declaration (Rules.ofDepth (n + 1) : Rules whole) line).Reads
        ⟨indents, ' ' :: (name.toList ++ ':' :: blockText indent (text :: more) rest)⟩
        (Stmt.IsClass name properties) ⟨indents, rest⟩ := by
      refine .andThen (.identifier hname (.name hname.toIsName hleads rfl)) ?_
      refine .andThen (.andThen (.peek (.token hcolon)) (.pure rfl)) ?_
      refine .andThen (.symbol?_no (.token hcolon) (by decide)) (.andThen (.pure rfl) ?_)
      exact .bind hbody fun _ hstatements => .pure ⟨line, _, rfl, hstatements⟩
    rw [htext]
    refine .bind .cursor fun c _ =>
      .andThen (.peek (.token (.name hkeyword (.name hkeyword _) rfl))) ?_
    exact single_reads hkeyword rfl (hdeclaration c.line)

/-- What stands between the parameters of a function that returns nothing and its body. -/
private theorem result_reads {behind opened : List Char}
    (hcolon : Comes .more behind (.symbol ":") opened) (hstops : Stops .more behind) (n : Nat) :
    (optionalResult (Rules.ofDepth (n + 1) : Rules whole)).Reads
      ⟨indents, ' ' :: '-' :: '>' :: ' ' :: ("None".toList ++ behind)⟩ (fun _ => True)
      ⟨indents, behind⟩ := by
  have hnone : IsName "None" := by decide
  have harrow : Comes .more (' ' :: '-' :: '>' :: ' ' :: ("None".toList ++ behind)) (.symbol "->")
      (' ' :: ("None".toList ++ behind)) := ⟨_, .space (.here rfl), .arrow⟩
  have hresult : Leads .more ("None".toList ++ behind) ("None".toList ++ behind) :=
    .name hnone behind
  have hread : (hint (Rules.ofDepth n : Rules whole) false .more .more).Reads
      ⟨indents, "None".toList ++ behind⟩ (fun _ => True) ⟨indents, behind⟩ :=
    hint_reads hnone Spells.none (Nat.zero_le n) hresult hstops (.token hcolon)
      (by simp [Token.Ends]) (by simp)
  refine .andThen (.symbol?_yes harrow) ?_
  exact .bind (.spanned (.space hresult) hread) fun _ _ => .pure trivial

theorem function {found : List (Parameter → Prop)} {parameters : List Char}
    (hname : IsFreeName name)
    (hparameters : ∀ rest, Items IsParameter rest found (parameters ++ rest))
    (h : List.Forall₂ (Says depth (indent :: indents)) properties (text :: more))
    (hfurther : indents.headD 0 < indent) :
    Says (depth + 1) indents (Stmt.IsFunction name found properties)
      (functionText name parameters indent (text :: more)) where
  starts := ⟨'d', _, rfl, rfl⟩
  reads whole n hn rest hrest := by
    obtain ⟨n, rfl⟩ : ∃ m, n = m + 1 := ⟨n - 1, by omega⟩
    have hkeyword : IsName "def" := by decide
    obtain ⟨behind, hbehind, hcolon, hstops⟩ : ∃ behind,
        behind = ':' :: blockText indent (text :: more) rest ∧
        Comes .more behind (.symbol ":") (blockText indent (text :: more) rest) ∧
        Stops .more behind := by
      rw [blockText_cons]
      exact ⟨_, rfl, ⟨_, .here rfl, .lastColon⟩, .colon _⟩
    have htext : functionText name parameters indent (text :: more) ++ rest = "def".toList ++
        (' ' :: (name.toList ++ '(' :: (parameters ++
          (' ' :: '-' :: '>' :: ' ' :: ("None".toList ++ behind))))) := by
      simp only [functionText, List.append_assoc, List.cons_append, blockText_append,
        List.nil_append, hbehind]
    have hleads (rest : List Char) : Leads .more (' ' :: (name.toList ++ rest))
        (name.toList ++ rest) := .space (.name hname.toIsName _)
    have hbracket (rest : List Char) : Comes .more ('(' :: rest) (.symbol "(") rest :=
      ⟨_, .here rfl, .leftBracket⟩
    have hunread : Matches [] ([] : List Parameter) := .nil
    have hitem (P : Parameter → Prop) (text : List Char) (htext : IsParameter P text) :
        Rule.ReadsItem (parameter (Rules.ofDepth (n + 1) : Rules whole) true .bracket) indents P
          text := htext.readsItem n indents
    have hitems := Items.bracketed hitem
      (hparameters (' ' :: '-' :: '>' :: ' ' :: ("None".toList ++ behind))) hunread
    have hbody : (body (Rules.ofDepth (n + 1) : Rules whole)).Reads ⟨indents, behind⟩
        (Matches properties) ⟨indents, rest⟩ := by
      rw [hbehind]
      exact body_reads (by omega : depth ≤ n) h hfurther hrest
    have hfunction : (Grammar.function (Rules.ofDepth (n + 1) : Rules whole) false).Reads
        ⟨indents, ' ' :: (name.toList ++ '(' :: (parameters ++
          (' ' :: '-' :: '>' :: ' ' :: ("None".toList ++ behind))))⟩
        (Stmt.IsFunction name found properties) ⟨indents, rest⟩ := by
      refine .andThen (.identifier hname (.name hname.toIsName (hleads _) rfl)) ?_
      refine .andThen (.andThen (.peek (.token (hbracket _))) (.pure rfl)) ?_
      refine .bind (.bind (.symbol (hbracket _)) fun _ _ => hitems) fun _ hfound => ?_
      exact .bind (result_reads hcolon hstops n) fun _ _ => .bind hbody fun _ hstatements =>
        .pure ⟨_, _, _, rfl, hfound, hstatements⟩
    rw [htext]
    refine .bind .cursor fun c _ =>
      .andThen (.peek (.token (.name hkeyword (.name hkeyword _) rfl))) ?_
    exact single_reads hkeyword rfl hfunction

end Says

/-- Nothing but empty lines and comments stands before a statement of the module, or before its
end. -/
inductive Precedes : List Char → List Char → Prop
  | lines {gap ahead : List Char} (blank : ∀ c ∈ gap, isGapChar c)
      (starts : ∀ c ∈ ahead.head?, startsToken c) : Precedes (gap ++ ahead) ahead
  | comment {gap line text ahead : List Char} (blank : ∀ c ∈ gap, isGapChar c)
      (inside : '\n' ∉ line) (more : Precedes ('\n' :: text) ahead) :
      Precedes (gap ++ '#' :: (line ++ '\n' :: text)) ahead

/-- A text is the rest of a module with statements of some kinds, if rules are nested so deep. -/
inductive ModuleText (depth : Nat) : List (Stmt → Prop) → List Char → Prop
  | done {text : List Char} (precedes : Precedes text []) : ModuleText depth [] text
  | more {P : Stmt → Prop} {properties : List (Stmt → Prop)} {text statement rest : List Char}
      (precedes : Precedes text (statement ++ rest)) (stated : Says depth [] P statement)
      (returns : Returns 0 rest) (more : ModuleText depth properties rest) :
      ModuleText depth (P :: properties) text

namespace Precedes
variable {text ahead : List Char}

theorem length_le (h : Precedes text ahead) : ahead.length ≤ text.length := by
  induction h with
  | lines => simp
  | comment _ _ _ ih => simp at ih ⊢; omega

theorem newline (h : Precedes text ahead) : Precedes ('\n' :: text) ahead := by
  have hblank {gap : List Char} (hgap : ∀ c ∈ gap, isGapChar c) : ∀ c ∈ '\n' :: gap, isGapChar c :=
    List.forall_mem_cons.mpr ⟨rfl, hgap⟩
  cases h with
  | lines blank starts => exact .lines (hblank blank) starts
  | comment blank inside more => exact .comment (hblank blank) inside more

private theorem findOpening_eq (h : Precedes text ahead) {c : Cursor whole} {indents : List Nat}
    (hc : c.Stands ⟨indents, text⟩) {fuel : Nat} (hfuel : text.length < fuel) :
    ∃ start, start.Stands ⟨indents, ahead⟩ ∧
      findOpening false fuel c = some (if ahead = [] then .textEnd else .statement start) := by
  induction h generalizing c fuel with
  | @lines gap ahead blank starts =>
    obtain ⟨fuel, rfl⟩ : ∃ n, fuel = n + 1 := ⟨fuel - 1, by omega⟩
    have hgap : ∀ c ∈ ahead.head?, isGapChar c = false := fun c hc =>
      (startsToken_ne (starts c hc)).2.2.2.2.2.2.2
    have hstart := Cursor.skipGapChars_append hc blank hgap
    have hrest := hstart.rest
    refine ⟨c.skipGapChars, hstart, ?_⟩
    unfold findOpening
    simp only [Bool.false_and, Bool.false_eq_true, if_false]
    cases ahead with
    | nil => simp [hrest]
    | cons first rest =>
      obtain ⟨hhash, hcontinued⟩ := hstart.starts (starts first rfl)
      simp only [hrest, hcontinued]
      split <;> simp_all
  | @comment gap line text ahead blank inside more ih =>
    obtain ⟨fuel, rfl⟩ : ∃ n, fuel = n + 1 := ⟨fuel - 1, by omega⟩
    have hstart := Cursor.skipGapChars_append hc blank (by simp; rfl)
    have hrest := hstart.rest
    -- The comment goes to the end of its line, where the search goes on.
    have hcomment : c.skipGapChars.skipComment.Stands ⟨indents, '\n' :: text⟩ := by
      have htaken : c.skipGapChars.rest.takeWhile (· ≠ '\n') = '#' :: line := by
        rw [hrest, List.takeWhile_cons_of_pos (by decide), takeWhile_append inside]
      rw [Cursor.skipComment, htaken]
      exact Cursor.Stands.skip_append hstart
    simp only [List.length_append, List.length_cons] at hfuel
    obtain ⟨start, hstands, hfound⟩ := ih hcomment (by simp; omega : _ < fuel)
    refine ⟨start, hstands, ?_⟩
    unfold findOpening
    simp only [hrest, Bool.false_and, Bool.false_eq_true, if_false]
    exact hfound

theorem opening_eq (h : Precedes text ahead) {c : Cursor whole} {indents : List Nat}
    (hc : c.Stands ⟨indents, text⟩) :
    ∃ start, start.Stands ⟨indents, ahead⟩ ∧
      c.opening false = some (if ahead = [] then .textEnd else .statement start) := by
  have hsize := c.length_le
  rw [hc.rest] at hsize
  exact h.findOpening_eq hc (Nat.lt_succ_of_le hsize)

end Precedes

namespace ModuleText
variable {depth n : Nat} {properties : List (Stmt → Prop)} {text : List Char}

theorem nil : ModuleText depth [] [] := by
  have hprecedes : Precedes ([] ++ []) [] := .lines (by simp) (by simp)
  exact .done hprecedes

theorem newline (h : ModuleText depth properties text) :
    ModuleText depth properties ('\n' :: text) := by
  cases h with
  | done precedes => exact .done precedes.newline
  | more precedes stated returns more => exact .more precedes.newline stated returns more

theorem comment {line : List Char} (hline : '\n' ∉ line)
    (h : ModuleText depth properties ('\n' :: text)) :
    ModuleText depth properties ('#' :: (line ++ '\n' :: text)) := by
  have hnil : ∀ c ∈ ([] : List Char), isGapChar c := by simp
  cases h with
  | done precedes => exact .done (.comment hnil hline precedes)
  | more precedes stated returns more =>
    exact .more (.comment hnil hline precedes) stated returns more

theorem statement {P : Stmt → Prop} {statement rest : List Char} (h : Says depth [] P statement)
    (hreturns : Returns 0 rest) (hmore : ModuleText depth properties rest) :
    ModuleText depth (P :: properties) (statement ++ rest) := by
  obtain ⟨first, others, hfirst, hstarts⟩ := h.starts
  have hprecedes : Precedes ([] ++ (statement ++ rest)) (statement ++ rest) :=
    .lines (by simp) (by simpa [hfirst] using hstarts)
  exact .more hprecedes h hreturns hmore

theorem block_reads (h : ModuleText depth properties text) (hn : depth ≤ n) :
    ∃ there, (block (Rules.ofDepth n : Rules whole) false).Reads ⟨[], text⟩ (Matches properties)
      there := by
  have hnone : Matches [] ([] : List Stmt) := .nil
  -- The statements that were read before are those of the state.
  refine (?_ : ∃ there, ∀ done, Rule.Settles _ ⟨[], text⟩ (Matches done)
    (Matches (done ++ properties)) there).imp fun there hsettles => (hsettles []).loop hnone
  induction h with
  | @done text precedes =>
    refine ⟨⟨[], text⟩, fun done => .last fun collected hdone => .bind .cursor fun c hc => ?_⟩
    obtain ⟨start, -, hopening⟩ := precedes.opening_eq hc
    rw [hopening]
    exact .pure ⟨_, rfl, by rwa [List.append_nil]⟩
  | @more P properties text statement rest precedes stated returns more ih =>
    obtain ⟨there, hthere⟩ := ih
    obtain ⟨first, others, hfirst, -⟩ := stated.starts
    have hshorter := precedes.length_le
    rw [hfirst] at hshorter
    simp only [List.length_append, List.length_cons] at hshorter
    refine ⟨there, fun done => ?_⟩
    have hagain := hthere (done ++ [P])
    rw [List.append_assoc] at hagain
    refine .more (by simp only; omega) (fun collected hdone => .bind .cursor fun c hc => ?_) hagain
    obtain ⟨start, hstart, hopening⟩ := precedes.opening_eq hc
    rw [hopening, if_neg (by simp [hfirst])]
    refine .bind (.set hstart) fun _ _ => ?_
    exact .bind (stated.reads whole n hn rest returns) fun _ hfound =>
      .pure ⟨_, rfl, hdone.append hfound⟩

/-- A text that is made up of statements is parsed as these. -/
theorem parse?_eq (h : ModuleText depth properties text) (hdepth : depth ≤ text.length + 1)
    (hnull : ∀ c ∈ text, c.toNat ≠ 0) :
    ∃ statements, Module.parse? text = some ⟨statements⟩ ∧ Matches properties statements := by
  obtain ⟨there, hreads⟩ := h.block_reads hdepth
  obtain ⟨statements, after, hrun, hstatements, -⟩ :=
    hreads ({} : Cursor text) ⟨rfl, rfl, rfl⟩
  have hnone : text.any (·.toNat = 0) = false := by simpa using hnull
  rw [StateT.run] at hrun
  exact ⟨statements, by simp [Module.parse?, hnone, hrun], hstatements⟩

end ModuleText

end ElementBinding.Grammar
