import ElementBinding.Grammar.Module
import ElementBinding.Proofs.Grammar.Tokens
import ElementBinding.Proofs.Unit.Layout

/-!
# Texts of expressions

Names, integers and string literals, and attributes and calls that trail a name. Each is read as one
expression wherever something follows that ends it, by rules that are nested deep enough for what it
contains.
-/
namespace ElementBinding.Grammar
open ElementBinding.Text

variable {whole : List Char}

/-- What follows ends an expression. -/
inductive Stops (after : Place) : List Char → Prop
  | comma (rest : List Char) : Stops after (',' :: rest)
  | bracket (rest : List Char) : Stops after (')' :: rest)
  | colon (rest : List Char) : Stops after (':' :: '\n' :: rest)
  | equals (rest : List Char) : Stops after (' ' :: '=' :: ' ' :: rest)
  | line (rest : List Char) (line : after = .line) : Stops after ('\n' :: rest)

namespace Stops
variable {after : Place} {rest : List Char}

theorem isCut (h : Stops after rest) : isCut rest := by cases h <;> rfl

theorem head?_ne (h : Stops after rest) : rest.head? ≠ some '.' := by cases h <;> simp

theorem shows (h : Stops after rest) : ∃ token, Shows after rest token ∧ token.Ends := by
  cases h with
  | comma rest => exact ⟨_, .token ⟨_, .here rfl, .comma⟩, by simp [Token.Ends]⟩
  | bracket rest => exact ⟨_, .token ⟨_, .here rfl, .rightBracket⟩, by simp [Token.Ends]⟩
  | colon rest => exact ⟨_, .token ⟨_, .here rfl, .lastColon⟩, by simp [Token.Ends]⟩
  | equals rest => exact ⟨_, .token ⟨_, .space (.here rfl), .equals⟩, by simp [Token.Ends]⟩
  | line rest line => exact ⟨_, .lineEnd line rfl, trivial⟩

end Stops

private theorem Token.Ends.not_operator {sign : String} (h : (Token.symbol sign).Ends) :
    arithmeticalOperators.contains sign = false ∧ comparisonSigns.contains sign = false := by
  simp only [Token.Ends, List.mem_cons, List.not_mem_nil, or_false] at h
  rcases h with rfl | rfl | rfl | rfl <;> exact ⟨rfl, rfl⟩

namespace Rule.Reads
variable {g : Rules whole} {before after : Place} {here there : Spot} {P : Expr → Prop}
  {opening closing : Token}

-- An operand that no operator precedes or follows goes through all levels of the grammar unchanged.

private theorem factor (hopening : Shows before here.text opening) (hopens : opening.Opens)
    (hminus : opening ≠ .symbol "-") (h : (trailed g before after).Reads here P there) :
    (Grammar.factor g before after).Reads here P there := by
  refine .andThen (.peek hopening) ?_
  split
  · simp [Token.Opens] at hopens
  · exact absurd rfl hminus
  · simp [Token.Opens] at hopens
  · simp [Token.Opens] at hopens
  · exact h

private theorem chain (h : (Grammar.factor g before after).Reads here P there)
    (hclosing : Shows after there.text closing) (hends : closing.Ends) :
    (Grammar.chain g before after).Reads here P there := by
  refine .bind h fun first hfirst => ?_
  refine .andThen (Settles.once [] (.andThen (.peek hclosing) ?_)) (.pure hfirst)
  split
  · rw [hends.not_operator.1]
    exact .pure rfl
  · exact .pure rfl

private theorem comparisonOperator? (hclosing : Shows after there.text closing)
    (hends : closing.Ends) :
    (Grammar.comparisonOperator? after : Rule whole (Option String)).Reads there (· = none)
      there := by
  refine .andThen (.peek hclosing) ?_
  split
  · rw [hends.not_operator.2]
    exact .pure rfl
  · simp [Token.Ends] at hends
  · simp [Token.Ends] at hends
  · simp [Token.Ends] at hends
  · exact .pure rfl

private theorem comparison (h : (Grammar.chain g before after).Reads here P there)
    (hclosing : Shows after there.text closing) (hends : closing.Ends) :
    (Grammar.comparison g before after).Reads here P there := by
  refine .bind h fun first hfirst => ?_
  exact .andThen (Settles.once [] (.andThen (.comparisonOperator? hclosing hends) (.pure rfl)))
    (.pure hfirst)

private theorem operand (hopening : Shows before here.text opening) (hopens : opening.Opens)
    (h : (Grammar.comparison g before after).Reads here P there)
    (hclosing : Shows after there.text closing) (hends : closing.Ends) (conditional : Bool) :
    (Grammar.operand g conditional before after).Reads here P there := by
  refine .andThen (.peek hopening) ?_
  split
  · simp [Token.Opens] at hopens
  · simp [Token.Opens] at hopens
  · refine .bind h fun first hfirst => ?_
    split
    · have hother : closing ≠ .symbol ":=" := by
        rintro rfl
        simp [Token.Ends] at hends
      exact .andThen (.symbol?_no hclosing hother) (.pure hfirst)
    · exact .pure hfirst

theorem expression (hopening : Shows before here.text opening) (hopens : opening.Opens)
    (h : (Grammar.factor g before after).Reads here P there)
    (hclosing : Shows after there.text closing) (hends : closing.Ends) (conditional : Bool) :
    (Grammar.expression g conditional before after).Reads here P there := by
  have hcomparison := Rule.Reads.comparison (.chain h hclosing hends) hclosing hends
  refine .bind (.operand hopening hopens hcomparison hclosing hends conditional)
    fun first hfirst => ?_
  refine .mono (Settles.once first (.andThen (.peek hclosing) ?_))
    fun _ hvalue => hvalue ▸ hfirst
  split
  · simp [Token.Ends] at hends
  · simp [Token.Ends] at hends
  · simp [Token.Ends] at hends
  · simp [Token.Ends] at hends
  · exact .pure rfl

end Rule.Reads

theorem IsFreeName.opens {name : String} (h : IsFreeName name) : (Token.name name).Opens := by
  simp only [Token.Opens, List.mem_cons, List.not_mem_nil, or_false]
  rintro (rfl | rfl | rfl | rfl) <;> exact absurd h (by decide)

/-- An operand goes on from some place, with what trails it. -/
def Trails (g : Rules whole) (after : Place) (here : Spot) (P Q : Expr → Prop) (there : Spot) :
    Prop :=
  ∀ start, Rule.Settles (trailer g after start) here P Q there

namespace Trails
variable {g : Rules whole} {after : Place} {indents : List Nat} {text rest : List Char}
  {P Q : Expr → Prop}

theorem none (h : Stops after rest) : Trails g after ⟨indents, rest⟩ P P ⟨indents, rest⟩ := by
  intro start
  obtain ⟨token, hshows, hends⟩ := h.shows
  refine .last fun base hbase => .andThen (.peek hshows) ?_
  split
  · simp [Token.Ends] at hends
  · simp [Token.Ends] at hends
  · simp [Token.Ends] at hends
  · exact .pure ⟨base, rfl, hbase⟩

theorem member {name : String} {R : Expr → Prop} (hname : IsFreeName name) (hcut : isCut text)
    (hmember : ∀ object, P object → R (.attribute object name))
    (h : Trails g after ⟨indents, text⟩ R Q ⟨indents, rest⟩) :
    Trails g after ⟨indents, '.' :: (name.toList ++ text)⟩ P Q ⟨indents, rest⟩ := by
  intro start
  obtain ⟨first, more, hfirst, hstart, -⟩ := hname.starts
  have hdot : Comes after ('.' :: (name.toList ++ text)) (.symbol ".") (name.toList ++ text) := by
    rw [hfirst]
    exact ⟨_, .here rfl, .dot hstart⟩
  have hleads : Leads .more (name.toList ++ text) (name.toList ++ text) := .name hname.toIsName text
  have hcomes : Comes .more (name.toList ++ text) (.name name) text :=
    .name hname.toIsName hleads hcut
  refine .more (by simp) (fun base hbase => ?_) (h start)
  · refine .andThen (.peek (.token hdot)) (.bind (.symbol hdot) fun _ _ => ?_)
    refine .bind (.reach hleads) fun _ _ => .bind .cursor fun c _ => ?_
    refine .andThen (.identifier hname hcomes) (.bind (.noteOperand _) fun _ _ => ?_)
    exact .pure ⟨_, rfl, hmember base hbase⟩

theorem call {arguments : List Char} {A : List Argument → Prop}
    (harguments : (callArguments g).Reads ⟨indents, arguments ++ text⟩ A ⟨indents, text⟩)
    (h : Trails g after ⟨indents, text⟩
      (fun e => ∃ function found, e = .call function found ∧ P function ∧ A found) Q
      ⟨indents, rest⟩) :
    Trails g after ⟨indents, '(' :: (arguments ++ text)⟩ P Q ⟨indents, rest⟩ := by
  intro start
  have hbracket : Comes after ('(' :: (arguments ++ text)) (.symbol "(") (arguments ++ text) :=
    ⟨_, .here rfl, .leftBracket⟩
  refine .more (by simp) (fun base hbase => ?_) (h start)
  · refine .andThen (.peek (.token hbracket)) (.bind (.symbol hbracket) fun _ _ => ?_)
    exact .bind harguments fun found hfound => .bind (.noteOperand _) fun _ _ =>
      .pure ⟨_, rfl, base, found, rfl, hbase, hfound⟩

end Trails

/-- A text is an expression of some kind, if rules are nested so deep. -/
structure Spells (depth : Nat) (P : Expr → Prop) (text : List Char) : Prop where
  starts : ∃ first more, text = first :: more ∧ startsToken first
  opens : ∀ after rest, Stops after rest →
    ∃ token more, Begins (text ++ rest) token more ∧ token.Opens
  reads : ∀ (whole : List Char) (n : Nat), depth ≤ n →
    ∀ conditional before after indents front rest,
    Leads before front (text ++ rest) → Stops after rest →
      (expression (Rules.ofDepth n : Rules whole) conditional before after).Reads
        ⟨indents, front⟩ P ⟨indents, rest⟩

namespace Spells
variable {depth : Nat} {P : Expr → Prop} {text : List Char}

theorem mono {depth' : Nat} {Q : Expr → Prop} (h : Spells depth P text) (hdepth : depth ≤ depth')
    (h' : ∀ e, P e → Q e) : Spells depth' Q text where
  starts := h.starts
  opens := h.opens
  reads whole n hn conditional before after indents front rest hleads hstops :=
    (h.reads whole n (by omega) conditional before after indents front rest hleads hstops).mono h'

private theorem factor_reads {g : Rules whole} {before after : Place} {indents : List Nat}
    {front text rest more : List Char} {token : Token} {P Q : Expr → Prop} {middle : Spot}
    (hleads : Leads before front (text ++ rest)) (hbegins : Begins (text ++ rest) token more)
    (hopens : token.Opens) (hminus : token ≠ .symbol "-")
    (hatom : (atom g .more after).Reads ⟨indents, text ++ rest⟩ Q middle)
    (htrails : Trails g after middle Q P ⟨indents, rest⟩) :
    (factor g before after).Reads ⟨indents, front⟩ P ⟨indents, rest⟩ := by
  have hcomes : Comes before front token more := ⟨_, hleads, hbegins⟩
  have hnot : token ≠ .symbol "*" := by
    rintro rfl
    simp [Token.Opens] at hopens
  refine .factor (.token hcomes) hopens hminus ?_
  refine .andThen (.symbol?_no (.token hcomes) hnot) ?_
  refine .bind (.reach hleads) fun _ _ => .bind .cursor fun c _ => .bind hatom fun base hbase => ?_
  exact .bind (.noteOperand _) fun _ _ => (htrails _).loop hbase

theorem of_trailing (starts : ∃ first more, text = first :: more ∧ startsToken first)
    (opens : ∀ after rest, Stops after rest → ∃ token more, Begins (text ++ rest) token more ∧
      token.Opens ∧ token ≠ .symbol "-")
    (h : ∀ (whole : List Char) (n : Nat), depth ≤ n → ∀ after indents rest, Stops after rest →
      ∃ Q middle, (atom (Rules.ofDepth n : Rules whole) .more after).Reads ⟨indents, text ++ rest⟩ Q
          middle ∧
        Trails (Rules.ofDepth n : Rules whole) after middle Q P ⟨indents, rest⟩) :
    Spells depth P text where
  starts := starts
  opens after rest hstops := by
    obtain ⟨token, more, hbegins, hopens, -⟩ := opens after rest hstops
    exact ⟨token, more, hbegins, hopens⟩
  reads whole n hn conditional before after indents front rest hleads hstops := by
    obtain ⟨token, more, hbegins, hopens, hminus⟩ := opens after rest hstops
    obtain ⟨closing, hclosing, hends⟩ := hstops.shows
    obtain ⟨Q, middle, hatom, htrails⟩ := h whole n hn after indents rest hstops
    exact .expression (.token ⟨_, hleads, hbegins⟩) hopens
      (factor_reads hleads hbegins hopens hminus hatom htrails) hclosing hends conditional

private theorem atom_name {g : Rules whole} {after : Place} {indents : List Nat} {name : String}
    {rest : List Char} (hname : IsFreeName name) (hcut : isCut rest) :
    (atom g .more after).Reads ⟨indents, name.toList ++ rest⟩ (· = .name name) ⟨indents, rest⟩ := by
  have hleads : Leads .more (name.toList ++ rest) (name.toList ++ rest) := .name hname.toIsName rest
  have hcomes : Comes .more (name.toList ++ rest) (.name name) rest :=
    .name hname.toIsName hleads hcut
  have hne (word : String) (hword : isReserved word) : name ≠ word := by
    rintro rfl
    simp [hname.free] at hword
  have hconstant : constant? name = none := by
    rw [constant?, if_neg (hne _ rfl), if_neg (hne _ rfl), if_neg (hne _ rfl)]
  refine .bind (.reach hleads) fun _ _ => .andThen (.peek (.token hcomes))
    (.andThen (.take hcomes) ?_)
  simp only [hconstant, isValueName, hname.free, Bool.not_false, Bool.true_or, if_true]
  exact .pure rfl

theorem primary {name : String} {trailers : List Char} (hname : IsFreeName name)
    (hcut : ∀ rest, isCut rest → isCut (trailers ++ rest))
    (h : ∀ (whole : List Char) (n : Nat), depth ≤ n → ∀ after indents rest, Stops after rest →
      Trails (Rules.ofDepth n : Rules whole) after ⟨indents, trailers ++ rest⟩ (· = .name name) P
        ⟨indents, rest⟩) :
    Spells depth P (name.toList ++ trailers) := by
  obtain ⟨first, more, hfirst, -, hstarts⟩ := hname.starts
  refine .of_trailing ⟨first, more ++ trailers, by rw [hfirst, List.cons_append], hstarts⟩
    (fun after rest hstops => ?_) fun whole n hn after indents rest hstops => ?_
  · rw [List.append_assoc]
    exact ⟨_, _, .name hname.toIsName (hcut rest hstops.isCut), hname.opens, by simp⟩
  · rw [List.append_assoc]
    exact ⟨_, _, atom_name hname (hcut rest hstops.isCut),
      h whole n hn after indents rest hstops⟩

theorem name {name : String} (hname : IsFreeName name) : Spells 0 (· = .name name) name.toList := by
  have h : Spells 0 (· = .name name) (name.toList ++ []) :=
    primary hname (fun _ hrest => hrest) fun _ _ _ _ _ _ hstops => .none hstops
  rwa [List.append_nil] at h

theorem none : Spells 0 (fun _ => True) "None".toList := by
  have hname : IsName "None" := by decide
  refine .of_trailing ⟨'N', "one".toList, rfl, rfl⟩ (fun after rest hstops => ?_)
    fun whole n _ after indents rest hstops => ?_
  · exact ⟨_, _, .name hname hstops.isCut, by simp [Token.Opens], by simp⟩
  · have hcomes : Comes .more ("None".toList ++ rest) (.name "None") rest :=
      ⟨_, .here rfl, .name hname hstops.isCut⟩
    refine ⟨fun _ => True, ⟨indents, rest⟩, ?_, .none hstops⟩
    exact .bind (.reach (.here rfl)) fun _ _ => .andThen (.peek (.token hcomes))
      (.andThen (.take hcomes) (.pure trivial))

section

variable {digits : List Char} (hne : digits ≠ []) (hdigits : ∀ c ∈ digits, c.isDigit)

include hne hdigits

private theorem startsToken_digits : ∃ first more, digits = first :: more ∧ startsToken first := by
  obtain ⟨first, more, rfl⟩ := List.exists_cons_of_ne_nil hne
  exact ⟨first, more, rfl, startsToken_of_isIdentifierRest
    (by simp [isIdentifierRest, hdigits first List.mem_cons_self])⟩

private theorem leads_digits (place : Place) (rest : List Char) :
    Leads place (digits ++ rest) (digits ++ rest) := by
  obtain ⟨first, more, rfl, hstarts⟩ := startsToken_digits hne hdigits
  exact .here hstarts

private theorem atom_integer {g : Rules whole} {after : Place} {indents : List Nat}
    {rest : List Char} (hstops : Stops after rest) :
    (atom g .more after).Reads ⟨indents, digits ++ rest⟩ (· = .integer (String.ofList digits))
      ⟨indents, rest⟩ := by
  have hleads := leads_digits hne hdigits .more rest
  have hcomes : Comes .more (digits ++ rest) (.integer (String.ofList digits)) rest :=
    ⟨_, hleads, .integer hne hdigits hstops.isCut hstops.head?_ne⟩
  exact .bind (.reach hleads) fun _ _ => .andThen (.peek (.token hcomes))
    (.andThen (.take hcomes) (.pure rfl))

theorem integer : Spells 0 (· = .integer (String.ofList digits)) digits := by
  refine .of_trailing (startsToken_digits hne hdigits) (fun after rest hstops => ?_)
    fun whole n _ after indents rest hstops => ?_
  · exact ⟨_, _, .integer hne hdigits hstops.isCut hstops.head?_ne, trivial, by simp⟩
  · exact ⟨_, ⟨indents, rest⟩, atom_integer hne hdigits hstops, .none hstops⟩

/-- The minus of a negative number is an operator, whose operand is one level further in. -/
theorem negative :
    Spells 1 (· = .unary "-" (.integer (String.ofList digits))) ('-' :: digits) where
  starts := ⟨'-', digits, rfl, rfl⟩
  opens after rest hstops := by
    obtain ⟨first, more, rfl⟩ := List.exists_cons_of_ne_nil hne
    exact ⟨_, _, .minus (hdigits first List.mem_cons_self), Or.inr rfl⟩
  reads whole n hn conditional before after indents front rest hleads hstops := by
    obtain ⟨n, rfl⟩ : ∃ m, n = m + 1 := ⟨n - 1, by omega⟩
    obtain ⟨closing, hclosing, hends⟩ := hstops.shows
    have hcomes : Comes before front (.symbol "-") (digits ++ rest) := by
      obtain ⟨first, more, rfl⟩ := List.exists_cons_of_ne_nil hne
      exact ⟨_, hleads, .minus (hdigits first List.mem_cons_self)⟩
    have hoperand : (factor (Rules.ofDepth n : Rules whole) .more after).Reads
        ⟨indents, digits ++ rest⟩ (· = .integer (String.ofList digits)) ⟨indents, rest⟩ :=
      factor_reads (leads_digits hne hdigits .more rest)
        (.integer hne hdigits hstops.isCut hstops.head?_ne) trivial (by simp)
        (atom_integer hne hdigits hstops) (.none hstops)
    have hopens : (Token.symbol "-").Opens := Or.inr rfl
    refine .expression (.token hcomes) hopens ?_ hclosing hends conditional
    exact .andThen (.peek (.token hcomes)) (.bind (.symbol hcomes) fun _ _ =>
      .andThen hoperand (.pure rfl))

end

end Spells

/-- A string literal in single quotes of the wide kind, without letters in front. -/
private def plainDelimiter : Delimiter := ⟨'"', false, false, false, false⟩

private theorem stringStep_escaped {c : Char} (h : c ≠ '\n') (begun : Bool) (rest : List Char) :
    ∃ begun', stringStep plainDelimiter begun (escaped c ++ rest) =
      .content (escaped c).length begun' := by
  unfold escaped
  by_cases hslash : c = '\\'
  · subst hslash
    exact ⟨false, rfl⟩
  · by_cases hquote : c = '"'
    · subst hquote
      exact ⟨false, rfl⟩
    · exact ⟨true, by simp [stringStep, plainDelimiter, hslash, hquote, h]⟩

private theorem stringRest_reads {g : Rules whole} {indents : List Nat} {inner rest : List Char}
    (h : '\n' ∉ inner) :
    (stringRest g plainDelimiter).Reads ⟨indents, inner.flatMap escaped ++ '"' :: rest⟩
      (· = []) ⟨indents, rest⟩ := by
  refine Rule.Settles.loop (I := fun state => state.2 = []) ?_ rfl
  induction inner with
  | nil =>
    refine .last fun ⟨begun, holes⟩ hholes => .bind .cursor fun c hc => ?_
    have hstep : stringStep plainDelimiter begun c.rest = .close 1 := by
      rw [hc.rest]
      rfl
    dsimp only
    rw [hstep]
    have hskipped := hc.skip 1
    exact .bind (.set ⟨hskipped.rest, hskipped.indents, rfl⟩) fun _ _ => .pure ⟨_, rfl, hholes⟩
  | cons char inner ih =>
    simp only [List.mem_cons, not_or] at h
    have hlength : 0 < (escaped char).length := by
      unfold escaped
      split <;> simp
    refine .more (by simp; omega) (fun ⟨begun, holes⟩ hholes => .bind .cursor fun c hc => ?_)
      (ih h.2)
    obtain ⟨begun', hstep⟩ := stringStep_escaped (Ne.symm h.1) begun
      (inner.flatMap escaped ++ '"' :: rest)
    rw [← List.append_assoc, ← List.flatMap_cons] at hstep
    dsimp only
    rw [hc.rest, hstep]
    have hstands : c.Stands ⟨indents, escaped char ++ (inner.flatMap escaped ++ '"' :: rest)⟩ :=
      ⟨by rw [hc.rest, List.flatMap_cons, List.append_assoc], hc.indents, hc.inFormat⟩
    exact .bind (.set hstands.skip_append) fun _ _ => .pure ⟨_, rfl, hholes⟩

private theorem literal_opening (inner : List Char) {after : Place} {rest : List Char}
    (h : Stops after rest) :
    ∃ second third more, inner.flatMap escaped ++ '"' :: rest = second :: third :: more ∧
      ¬(second = '"' ∧ third = '"') := by
  cases inner with
  | nil =>
    obtain ⟨third, more, rfl, hthird⟩ : ∃ c more, rest = c :: more ∧ c ≠ '"' := by
      cases h <;> exact ⟨_, _, rfl, by decide⟩
    exact ⟨'"', third, more, rfl, by simp [hthird]⟩
  | cons c inner =>
    obtain ⟨d, more, hmore⟩ : ∃ d more, inner.flatMap escaped ++ '"' :: rest = d :: more :=
      List.exists_cons_of_ne_nil (by simp)
    rw [List.flatMap_cons, List.append_assoc, hmore]
    unfold escaped
    split
    · exact ⟨'\\', c, d :: more, rfl, by simp⟩
    · exact ⟨c, d, more, rfl, by simp_all⟩

private theorem quoteLiteral_append (text : String) (rest : List Char) :
    (quoteLiteral text).toList ++ rest = '"' :: (text.toList.flatMap escaped ++ '"' :: rest) := by
  rw [toList_quoteLiteral]
  simp

private theorem stringLiteral_reads {g : Rules whole} {after : Place} {indents : List Nat}
    {inner rest : List Char} (h : '\n' ∉ inner) (hstops : Stops after rest) :
    (stringLiteral g .more).Reads ⟨indents, '"' :: (inner.flatMap escaped ++ '"' :: rest)⟩ (· = [])
      ⟨indents, rest⟩ := by
  obtain ⟨second, third, more, htext, hnot⟩ := literal_opening inner hstops
  refine .bind (.reach (.here rfl)) fun _ _ => .bind .cursor fun c hc => ?_
  have hopen : openString? c.rest = some (plainDelimiter, 1) := by
    rw [hc.rest, htext]
    exact Begins.openString?_quote hnot
  rw [hopen]
  have hskipped := hc.skip 1
  exact .bind (.set ⟨hskipped.rest, hskipped.indents, rfl⟩) fun _ _ => stringRest_reads h

private theorem stringLiterals_reads {g : Rules whole} {after : Place} {indents : List Nat}
    {literal rest : List Char} (hleads : Leads .more (literal ++ rest) (literal ++ rest))
    (h : (stringLiteral g .more).Reads ⟨indents, literal ++ rest⟩ (· = []) ⟨indents, rest⟩)
    (hstops : Stops after rest) :
    (stringLiterals g .more after).Reads ⟨indents, literal ++ rest⟩
      (· = .string (String.ofList literal) []) ⟨indents, rest⟩ := by
  obtain ⟨closing, hclosing, hends⟩ := hstops.shows
  have hother : closing ≠ .quote := by
    rintro rfl
    simp [Token.Ends] at hends
  have hall : (do
      let first ← stringLiteral g .more
      Rule.loop (fun holes => do
        if (← Rule.peek after) = .quote then return .inl (holes ++ (← stringLiteral g after))
        else return .inr holes) first : Rule whole (List Expr)).Reads ⟨indents, literal ++ rest⟩
      (· = []) ⟨indents, rest⟩ := by
    refine .andThen h (Rule.Settles.once [] (.andThen (.peek hclosing) ?_))
    rw [if_neg hother]
    exact .pure rfl
  refine .bind (.spanned_text hleads hall) fun (holes, written, _) ⟨hholes, hwritten⟩ => ?_
  obtain rfl : holes = [] := hholes
  exact .pure (congrArg (Expr.string · []) hwritten)

theorem Begins.literal (text : String) {after : Place} {rest : List Char}
    (h : Stops after rest) :
    Begins ((quoteLiteral text).toList ++ rest) .quote ((quoteLiteral text).toList ++ rest) := by
  obtain ⟨second, third, more, hinner, hnot⟩ := literal_opening text.toList h
  rw [quoteLiteral_append, hinner]
  exact .quote hnot

theorem Spells.string {text : String} (h : '\n' ∉ text.toList) :
    Spells 0 (· = .string (quoteLiteral text) []) (quoteLiteral text).toList := by
  refine .of_trailing ⟨'"', _, toList_quoteLiteral text, rfl⟩
    (fun after rest hstops => ⟨_, _, .literal text hstops, trivial, by simp⟩)
    fun whole n _ after indents rest hstops => ⟨_, ⟨indents, rest⟩, ?_, .none hstops⟩
  have hbegins := Begins.literal text hstops
  have hleads : Leads .more ((quoteLiteral text).toList ++ rest)
      ((quoteLiteral text).toList ++ rest) := by
    rw [quoteLiteral_append]
    exact .here rfl
  have hread : (stringLiteral (Rules.ofDepth n : Rules whole) .more).Reads
      ⟨indents, (quoteLiteral text).toList ++ rest⟩ (· = []) ⟨indents, rest⟩ := by
    rw [quoteLiteral_append]
    exact stringLiteral_reads h hstops
  have hliterals := stringLiterals_reads hleads hread hstops
  rw [String.ofList_toList] at hliterals
  exact .bind (.reach hleads) fun _ _ => .andThen (.peek (.token ⟨_, hleads, hbegins⟩)) hliterals

end ElementBinding.Grammar
