import ElementBinding.Proofs.Grammar.Spells

/-!
# Arguments and elements

What stands in brackets: the arguments of calls, which are passed by their position here, and the
elements of tuples. Line ends mean nothing there. What is read of several texts has the properties
of what each of them spells.
-/
namespace ElementBinding.Grammar
open ElementBinding.Text

variable {whole : List Char}

/-- What follows an argument or an element. -/
inductive Separates : List Char → Prop
  | comma (rest : List Char) : Separates (',' :: rest)
  | bracket (rest : List Char) : Separates (')' :: rest)

theorem Separates.stops {rest : List Char} (h : Separates rest) (after : Place) :
    Stops after rest := by
  cases h with
  | comma rest => exact .comma rest
  | bracket rest => exact .bracket rest

/-- Values with properties, one after the other. -/
abbrev Matches {α : Type} (properties : List (α → Prop)) (values : List α) : Prop :=
  List.Forall₂ (fun P value => P value) properties values

theorem Matches.append {α : Type} {properties more : List (α → Prop)} {values others : List α}
    (h : Matches properties values) (h' : Matches more others) :
    Matches (properties ++ more) (values ++ others) := List.rel_append h h'

def Argument.IsPositional (P : Expr → Prop) (argument : Argument) : Prop :=
  ∃ value text line, argument = .positional value text line ∧ P value

/-- A call with arguments that are passed by their position. -/
def Expr.IsCall (function : Expr → Prop) (properties : List (Expr → Prop)) (e : Expr) : Prop :=
  ∃ called arguments, e = .call called arguments ∧ function called ∧
    Matches (properties.map Argument.IsPositional) arguments

/-- A tuple of several elements. -/
def Expr.IsTuple (properties : List (Expr → Prop)) (e : Expr) : Prop :=
  ∃ elements, e = .display .tuple elements ∧ Matches properties elements

/-- An expression that is passed by its position: if it begins with a name, no equals sign
follows. -/
structure Passes (depth : Nat) (P : Expr → Prop) (text : List Char) : Prop where
  spells : Spells depth P text
  unnamed : ∀ rest, Separates rest → ∃ token more, Begins (text ++ rest) token more ∧ token.Opens ∧
    ∀ word, token = .name word →
      ∃ next more', Comes .bracket more next more' ∧ next ≠ .symbol "="

namespace Passes
variable {depth : Nat} {P : Expr → Prop} {text : List Char}

private theorem keywordArgument_fails (h : Passes depth P text) {g : Rules whole}
    {indents : List Nat} {rest : List Char} (hrest : Separates rest) :
    (keywordArgument g).Fails ⟨indents, text ++ rest⟩ := by
  obtain ⟨first, more, rfl, hstarts⟩ := h.spells.starts
  obtain ⟨token, behind, hbegins, -, hname⟩ := h.unnamed rest hrest
  have hleads : Leads .bracket (first :: more ++ rest) (first :: more ++ rest) := .here hstarts
  have hcomes : Comes .bracket (first :: more ++ rest) token behind := ⟨_, hleads, hbegins⟩
  by_cases hnamed : ∃ word, token = .name word ∧ isValueName word
  · obtain ⟨word, rfl, hvalue⟩ := hnamed
    obtain ⟨next, more', hnext, hother⟩ := hname word rfl
    -- The name is read, and it is the sign behind it that is missing.
    have hsign : (Rule.symbol .bracket "=" : Rule whole Unit).Fails ⟨indents, behind⟩ :=
      .symbol hnext hother
    refine .later (.spanned (P := (· = word)) hleads (.andThen (.take hcomes) ?_)) fun _ _ =>
      .first hsign
    simp only [hvalue, if_true]
    exact .pure rfl
  · refine .first (.later (.reach hleads) fun _ _ => .later .get fun _ _ =>
      .first (.later (.take hcomes) fun _ hvalue => ?_))
    rw [hvalue]
    split
    · rename_i word
      have hvalue : isValueName word = false := by
        by_contra htrue
        exact hnamed ⟨word, rfl, by simpa using htrue⟩
      rw [hvalue]
      exact .failure
    · exact .failure

private theorem argument_reads (h : Passes depth P text) {n : Nat} (hn : depth ≤ n)
    {indents : List Nat} {front rest : List Char} (hleads : Leads .bracket front (text ++ rest))
    (hrest : Separates rest) :
    (argument (Rules.ofDepth (n + 1) : Rules whole)).Reads ⟨indents, front⟩
      (Argument.IsPositional P) ⟨indents, rest⟩ := by
  obtain ⟨first, more, hfirst, hstarts⟩ := h.spells.starts
  obtain ⟨token, behind, hbegins, hopens, -⟩ := h.unnamed rest hrest
  have hstart : Leads .bracket (text ++ rest) (text ++ rest) := by
    rw [hfirst]
    exact .here hstarts
  have hcomes : Comes .bracket (text ++ rest) token behind := ⟨_, hstart, hbegins⟩
  have hread := h.spells.reads whole n hn true .bracket .bracket indents (text ++ rest) rest hstart
    (hrest.stops .bracket)
  have hpositional : (positionalArgument (Rules.ofDepth (n + 1) : Rules whole)).Reads
      ⟨indents, text ++ rest⟩ (Argument.IsPositional P) ⟨indents, rest⟩ :=
    .bind (.spanned hstart hread) fun _ hvalue => .pure ⟨_, _, _, rfl, hvalue⟩
  refine .bind (.reach hleads) fun _ _ => .bind .cursor fun c _ =>
    .andThen (.peek (.token hcomes)) ?_
  split
  · simp [Token.Opens] at hopens
  · simp [Token.Opens] at hopens
  · exact .second (h.keywordArgument_fails hrest) hpositional

end Passes

private theorem continuationsAhead_reads {here : Spot} {ahead : List Char}
    (h : Leads .bracket here.text ahead) :
    (continuationsAhead : Rule whole (List Argument)).Reads here (· = []) here := by
  refine .bind .cursor fun c hc => ?_
  obtain ⟨stop, hgap, -⟩ := Cursor.gap_of_leads h hc
  rw [hgap]
  exact .pure rfl

/-- The text of further arguments, and of the closing bracket. -/
def furtherText (others : List (List Char)) (rest : List Char) : List Char :=
  others.flatMap (fun text => ',' :: ' ' :: text) ++ ')' :: rest

theorem furtherText_append (others : List (List Char)) (rest more : List Char) :
    furtherText others rest ++ more = furtherText others (rest ++ more) := by
  simp [furtherText]

private theorem furtherText_cons (text : List Char) (more : List (List Char)) (rest : List Char) :
    furtherText (text :: more) rest = ',' :: ' ' :: (text ++ furtherText more rest) := by
  simp [furtherText]

private theorem separates_furtherText (others : List (List Char)) (rest : List Char) :
    Separates (furtherText others rest) := by
  cases others with
  | nil => exact .bracket rest
  | cons text more => exact .comma _

namespace Passes
variable {depth : Nat} {P : Expr → Prop} {text : List Char}

theorem leads (h : Passes depth P text) (place : Place) (rest : List Char) :
    Leads place (text ++ rest) (text ++ rest) := by
  obtain ⟨char, more, htext, hstarts⟩ := h.spells.starts
  rw [htext]
  exact .here hstarts

theorem shows (h : Passes depth P text) {place : Place} {front rest : List Char}
    (hleads : Leads place front (text ++ rest)) (hrest : Separates rest) :
    ∃ token, Shows place front token ∧ token.Opens := by
  obtain ⟨token, behind, hbegins, hopens, -⟩ := h.unnamed rest hrest
  exact ⟨token, .token ⟨_, hleads, hbegins⟩, hopens⟩

end Passes

private theorem Token.Opens.ne_symbol {token : Token} (h : token.Opens) {text : String}
    (htext : text ≠ "(" ∧ text ≠ "-") : token ≠ .symbol text := by
  rintro rfl
  exact h.elim htext.1 htext.2

theorem callArguments_reads {depth n : Nat} (hn : depth ≤ n) {P : Expr → Prop}
    {properties : List (Expr → Prop)} {first : List Char} {others : List (List Char)}
    (hfirst : Passes depth P first) (hothers : List.Forall₂ (Passes depth) properties others)
    (indents : List Nat) (rest : List Char) :
    (callArguments (Rules.ofDepth (n + 1) : Rules whole)).Reads
      ⟨indents, first ++ furtherText others rest⟩
      (Matches ((P :: properties).map Argument.IsPositional)) ⟨indents, rest⟩ := by
  have hleads := hfirst.leads .bracket (furtherText others rest)
  obtain ⟨token, hshows, hopens⟩ := hfirst.shows hleads (separates_furtherText others rest)
  refine .andThen (continuationsAhead_reads hleads)
    (.andThen (.symbol?_no hshows (hopens.ne_symbol (by decide))) ?_)
  have hnone : Matches [] ([] : List Argument) := .nil
  refine Rule.Settles.loop (I := fun state : List Argument × Bool => Matches [] state.1) ?_ hnone
  -- The arguments that were read before are those of the state.
  refine (?_ : ∀ done front, Leads .bracket front (first ++ furtherText others rest) →
    Rule.Settles _ ⟨indents, front⟩ (fun state : List Argument × Bool => Matches done state.1)
      (Matches (done ++ (P :: properties).map Argument.IsPositional)) _) [] _ hleads
  clear hshows hopens hleads hnone
  induction hothers generalizing P first with
  | nil =>
    intro done front hleads
    refine .last fun ⟨arguments, isFirst⟩ hdone => ?_
    obtain ⟨token, hshows, hopens⟩ := hfirst.shows hleads (.bracket rest)
    have hbracket : Comes .bracket (')' :: rest) (.symbol ")") rest := ⟨_, .here rfl, .rightBracket⟩
    refine .andThen (.symbol?_no hshows (hopens.ne_symbol (by decide))) ?_
    refine .bind (hfirst.argument_reads hn hleads (.bracket rest)) fun argument hargument => ?_
    refine .andThen (continuationsAhead_reads (.here rfl)) ?_
    refine .andThen (.symbol?_no (.token hbracket) (by decide))
      (.andThen (.peek (.token hbracket)) ?_)
    have hclause : startsClause (.symbol ")") = false := rfl
    simp only [hclause, Bool.and_false, Bool.false_eq_true, if_false, List.append_nil]
    exact .bind (.symbol hbracket) fun _ _ => .pure ⟨_, rfl, hdone.append (.cons hargument .nil)⟩
  | @cons P' text properties more htext _ ih =>
    intro done front hleads
    have hspace : Leads .bracket (' ' :: (text ++ furtherText more rest))
        (text ++ furtherText more rest) := .space (htext.leads .bracket _)
    obtain ⟨token, hshows, hopens⟩ := hfirst.shows hleads (separates_furtherText _ rest)
    have hcomma : Comes .bracket (',' :: ' ' :: (text ++ furtherText more rest)) (.symbol ",")
        (' ' :: (text ++ furtherText more rest)) := ⟨_, .here rfl, .comma⟩
    have hshorter := hleads.length_le
    rw [furtherText_cons] at hleads hshorter
    have hmore := ih htext (done ++ [Argument.IsPositional P]) _ hspace
    rw [List.append_assoc] at hmore
    refine .more (by simp at hshorter ⊢; omega) (fun ⟨arguments, isFirst⟩ hdone => ?_) hmore
    refine .andThen (.symbol?_no hshows (hopens.ne_symbol (by decide))) ?_
    refine .bind (hfirst.argument_reads hn hleads (.comma _)) fun argument hargument => ?_
    refine .andThen (continuationsAhead_reads (.here rfl)) ?_
    refine .andThen (.symbol?_yes hcomma) (.andThen (continuationsAhead_reads hspace) ?_)
    simp only [List.append_nil]
    exact .pure ⟨_, rfl, hdone.append (.cons hargument .nil)⟩

/-- An item in brackets is read, and no bracket closes where it begins. -/
structure Rule.ReadsItem (item : Place → Rule whole α) (indents : List Nat) (P : α → Prop)
    (text : List Char) : Prop where
  opens : ∀ front rest, Leads .bracket front (text ++ rest) → Separates rest →
    ∃ token, Shows .bracket front token ∧ token.Opens
  reads : ∀ front rest, Leads .bracket front (text ++ rest) → Separates rest →
    (item .bracket).Reads ⟨indents, front⟩ P ⟨indents, rest⟩

/-- Items up to the bracket that closes them; a comma may follow the last one. -/
inductive Items {α : Type} (Item : (α → Prop) → List Char → Prop) (rest : List Char) :
    List (α → Prop) → List Char → Prop
  | close {text : List Char} (leads : Leads .bracket text (')' :: rest)) : Items Item rest [] text
  | last {P : α → Prop} {text item : List Char} (reads : Item P item)
      (leads : Leads .bracket text (item ++ ')' :: rest)) : Items Item rest [P] text
  | more {P : α → Prop} {properties : List (α → Prop)} {text item next : List Char}
      (reads : Item P item) (leads : Leads .bracket text (item ++ ',' :: next))
      (more : Items Item rest properties next) : Items Item rest (P :: properties) text

theorem Items.bracketed {α : Type} {item : Place → Rule whole α}
    {Item : (α → Prop) → List Char → Prop} {indents : List Nat}
    (hitem : ∀ P text, Item P text → Rule.ReadsItem item indents P text)
    {properties : List (α → Prop)} {text rest : List Char} (h : Items Item rest properties text)
    {done : List (α → Prop)} {items : List α} (hdone : Matches done items) :
    (bracketed item ")" items).Reads ⟨indents, text⟩ (Matches (done ++ properties))
      ⟨indents, rest⟩ := by
  have hbracket : Comes .bracket (')' :: rest) (.symbol ")") rest := ⟨_, .here rfl, .rightBracket⟩
  refine Rule.Settles.loop (I := Matches done) ?_ hdone
  clear hdone
  induction h generalizing done with
  | close leads =>
    have hcomes : Comes .bracket _ (.symbol ")") rest := ⟨_, leads, .rightBracket⟩
    rw [List.append_nil]
    exact .last fun items hdone => .andThen (.symbol?_yes hcomes) (.pure ⟨_, rfl, hdone⟩)
  | last reads leads =>
    obtain ⟨token, hshows, hopens⟩ := (hitem _ _ reads).opens _ _ leads (.bracket rest)
    have hread := (hitem _ _ reads).reads _ _ leads (.bracket rest)
    refine .last fun items hdone => ?_
    refine .andThen (.symbol?_no hshows (hopens.ne_symbol (by decide))) (.bind hread fun e he => ?_)
    refine .andThen (.symbol?_no (.token hbracket) (by decide))
      (.bind (.symbol hbracket) fun _ _ => ?_)
    exact .pure ⟨_, rfl, hdone.append (.cons he .nil)⟩
  | @more P properties text element next reads leads more ih =>
    obtain ⟨token, hshows, hopens⟩ := (hitem _ _ reads).opens _ _ leads (.comma next)
    have hread := (hitem _ _ reads).reads _ _ leads (.comma next)
    have hcomma : Comes .bracket (',' :: next) (.symbol ",") next := ⟨_, .here rfl, .comma⟩
    have hshorter := leads.length_le
    have hmore := @ih (done ++ [P])
    rw [List.append_assoc] at hmore
    refine .more (by simp at hshorter ⊢; omega) (fun items hdone => ?_) hmore
    refine .andThen (.symbol?_no hshows (hopens.ne_symbol (by decide))) (.bind hread fun e he => ?_)
    exact .andThen (.symbol?_yes hcomma) (.pure ⟨_, rfl, hdone.append (.cons he .nil)⟩)

theorem Spells.readsItem {depth n : Nat} (hn : depth ≤ n) {P : Expr → Prop} {text : List Char}
    (h : Spells depth P text) (indents : List Nat) :
    Rule.ReadsItem (element (Rules.ofDepth (n + 1) : Rules whole)) indents P text where
  opens front rest hleads hrest := by
    obtain ⟨token, behind, hbegins, hopens⟩ := h.opens .bracket rest (hrest.stops .bracket)
    exact ⟨token, .token ⟨_, hleads, hbegins⟩, hopens⟩
  reads front rest hleads hrest := by
    obtain ⟨token, behind, hbegins, hopens⟩ := h.opens .bracket rest (hrest.stops .bracket)
    refine .andThen (.peek (.token ⟨_, hleads, hbegins⟩)) ?_
    split
    · simp [Token.Opens] at hopens
    · simp [Token.Opens] at hopens
    · exact h.reads whole n hn true .bracket .bracket indents front rest hleads
        (hrest.stops .bracket)

/-- Elements in brackets are a tuple if a comma follows the first. -/
theorem Spells.tuple {depth : Nat} {P : Expr → Prop} {properties : List (Expr → Prop)}
    {first inner next : List Char} (hfirst : Spells depth P first)
    (hleads : ∀ rest, Leads .bracket (inner ++ rest) (first ++ ',' :: (next ++ rest)))
    (hnext : ∀ rest, Items (Spells depth) rest properties (next ++ rest)) :
    Spells (depth + 1) (Expr.IsTuple (P :: properties)) ('(' :: inner) := by
  refine .of_trailing ⟨'(', inner, rfl, rfl⟩ (fun after rest hstops => ?_)
    fun whole n hn after indents rest hstops => ?_
  · exact ⟨_, _, .leftBracket, Or.inl rfl, by simp⟩
  · obtain ⟨n, rfl⟩ : ∃ m, n = m + 1 := ⟨n - 1, by omega⟩
    have hbracket : Comes .more ('(' :: (inner ++ rest)) (.symbol "(") (inner ++ rest) :=
      ⟨_, .here rfl, .leftBracket⟩
    have hcomma : Comes .bracket (',' :: (next ++ rest)) (.symbol ",") (next ++ rest) :=
      ⟨_, .here rfl, .comma⟩
    have hdepth : depth ≤ n := by omega
    have hreads := fun P text (htext : Spells depth P text) =>
      (htext.readsItem hdepth indents :
        Rule.ReadsItem (element (Rules.ofDepth (n + 1) : Rules whole)) indents P text)
    have hitem := hreads _ _ hfirst
    obtain ⟨token, hshows, hopens⟩ := hitem.opens _ _ (hleads rest) (.comma (next ++ rest))
    have hread := hitem.reads _ _ (hleads rest) (.comma (next ++ rest))
    refine ⟨_, ⟨indents, rest⟩, ?_, .none hstops⟩
    refine .bind (.reach (.here rfl)) fun _ _ => .andThen (.peek (.token hbracket)) ?_
    refine .bind (.symbol hbracket) fun _ _ => ?_
    refine .andThen (.symbol?_no hshows (hopens.ne_symbol (by decide))) (.bind hread fun e he => ?_)
    refine .andThen (.peek (.token hcomma)) (.andThen (.symbol?_yes hcomma) ?_)
    have hdone : Matches [P] [e] := .cons he .nil
    exact .bind (Items.bracketed hreads (hnext rest) hdone) fun _ helements =>
      .pure ⟨_, rfl, helements⟩

namespace Passes
variable {depth : Nat} {P : Expr → Prop} {text : List Char}

theorem mono {depth' : Nat} (h : Passes depth P text) (hdepth : depth ≤ depth') :
    Passes depth' P text where
  spells := h.spells.mono hdepth fun _ he => he
  unnamed := h.unnamed

theorem primary {name : String} {trailers : List Char} (hname : IsFreeName name)
    (h : Spells depth P (name.toList ++ trailers))
    (htrailers : ∀ rest, Separates rest → isCut (trailers ++ rest) ∧
      ∃ next more, Comes .bracket (trailers ++ rest) next more ∧ next ≠ .symbol "=") :
    Passes depth P (name.toList ++ trailers) where
  spells := h
  unnamed rest hrest := by
    obtain ⟨hcut, hnext⟩ := htrailers rest hrest
    rw [List.append_assoc]
    exact ⟨_, _, .name hname.toIsName hcut, hname.opens, fun _ _ => hnext⟩

theorem name {name : String} (hname : IsFreeName name) :
    Passes 0 (· = .name name) name.toList := by
  have hspells := Spells.name hname
  rw [← List.append_nil name.toList] at hspells ⊢
  refine .primary hname hspells fun rest hrest => ⟨(hrest.stops .bracket).isCut, ?_⟩
  cases hrest with
  | comma rest => exact ⟨_, _, ⟨_, .here rfl, .comma⟩, by decide⟩
  | bracket rest => exact ⟨_, _, ⟨_, .here rfl, .rightBracket⟩, by decide⟩

theorem integer {digits : List Char} (hne : digits ≠ []) (hdigits : ∀ c ∈ digits, c.isDigit) :
    Passes 0 (· = .integer (String.ofList digits)) digits where
  spells := .integer hne hdigits
  unnamed rest hrest := by
    have hstops := hrest.stops .bracket
    exact ⟨_, _, .integer hne hdigits hstops.isCut hstops.head?_ne, trivial, by simp⟩

theorem negative {digits : List Char} (hne : digits ≠ []) (hdigits : ∀ c ∈ digits, c.isDigit) :
    Passes 1 (· = .unary "-" (.integer (String.ofList digits))) ('-' :: digits) where
  spells := .negative hne hdigits
  unnamed rest _ := by
    obtain ⟨first, more, rfl⟩ := List.exists_cons_of_ne_nil hne
    exact ⟨_, _, .minus (hdigits first List.mem_cons_self), Or.inr rfl, by simp⟩

theorem string {text : String} (h : '\n' ∉ text.toList) :
    Passes 0 (· = .string (quoteLiteral text) []) (quoteLiteral text).toList where
  spells := .string h
  unnamed _ hrest := ⟨_, _, .literal text (hrest.stops .bracket), trivial, by simp⟩

theorem bracketed {inner : List Char} (h : Spells depth P ('(' :: inner)) :
    Passes depth P ('(' :: inner) where
  spells := h
  unnamed _ _ := ⟨_, _, .leftBracket, Or.inl rfl, by simp⟩

section

variable {properties : List (Expr → Prop)} {first : List Char} {others : List (List Char)}
  (hfirst : Passes depth P first) (hothers : List.Forall₂ (Passes depth) properties others)

include hfirst hothers

private theorem trails_arguments {n : Nat} (hn : depth ≤ n) {after : Place} {indents : List Nat}
    {rest : List Char} (hstops : Stops after rest) {Q : Expr → Prop} :
    Trails (Rules.ofDepth (n + 1) : Rules whole) after
      ⟨indents, '(' :: (first ++ furtherText others []) ++ rest⟩ Q
      (Expr.IsCall Q (P :: properties)) ⟨indents, rest⟩ := by
  have harguments : (callArguments (Rules.ofDepth (n + 1) : Rules whole)).Reads
      ⟨indents, (first ++ furtherText others []) ++ rest⟩
      (Matches ((P :: properties).map Argument.IsPositional)) ⟨indents, rest⟩ := by
    rw [List.append_assoc, furtherText_append, List.nil_append]
    exact callArguments_reads hn hfirst hothers indents rest
  exact .call harguments (.none hstops)

theorem call {name : String} (hname : IsFreeName name) :
    Passes (depth + 1) (Expr.IsCall (· = .name name) (P :: properties))
      (name.toList ++ '(' :: (first ++ furtherText others [])) := by
  refine .primary hname (.primary hname (fun _ _ => rfl) fun whole n hn after indents
    rest hstops => ?_) fun rest hrest => ⟨rfl, _, _, ⟨_, .here rfl, .leftBracket⟩, by decide⟩
  obtain ⟨n, rfl⟩ : ∃ m, n = m + 1 := ⟨n - 1, by omega⟩
  exact trails_arguments hfirst hothers (by omega) hstops

theorem method {object name : String} (hobject : IsFreeName object) (hname : IsFreeName name) :
    Passes (depth + 1)
      (Expr.IsCall (· = .attribute (.name object) name) (P :: properties))
      (object.toList ++ '.' :: (name.toList ++ '(' :: (first ++ furtherText others []))) := by
  obtain ⟨char, more, hchar, hstart, -⟩ := hname.starts
  refine .primary hobject (.primary hobject (fun _ _ => rfl) fun whole n hn after indents
    rest hstops => ?_) fun rest hrest => ⟨rfl, ?_⟩
  · obtain ⟨n, rfl⟩ : ∃ m, n = m + 1 := ⟨n - 1, by omega⟩
    rw [List.cons_append, List.append_assoc]
    exact .member hname rfl (fun _ hbase => hbase ▸ rfl)
      (trails_arguments hfirst hothers (by omega) hstops)
  · rw [hchar]
    exact ⟨_, _, ⟨_, .here rfl, .dot hstart⟩, by decide⟩

end

end Passes

end ElementBinding.Grammar
