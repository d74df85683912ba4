import ElementBinding.Proofs.Grammar.Reads
import ElementBinding.Proofs.Grammar.Yields
import ElementBinding.Proofs.Text.Identifier
import ElementBinding.Proofs.Text.Integer

/-!
# Tokens ahead

What stands between a place and the next token, and which token it is, is told by the text ahead
alone. A name must be cut off: neither a further character of names nor a quote may follow it.
-/
namespace ElementBinding.Grammar
open ElementBinding.Text

variable {whole : List Char}

/-- A character that a token may begin with. -/
def startsToken (c : Char) : Bool := !isGapChar c && c ≠ '#' && c ≠ '\\'

private def widthlessClass : CharClass := ⟨[(0xFEFF, 0xFEFF), (0x2060, 0x2060), (0x200B, 0x200B)]⟩

private theorem widthless_nameless : widthlessClass.IsNameless := by decide +kernel

theorem startsToken_of_isIdentifierRest {c : Char} (h : isIdentifierRest c) : startsToken c := by
  have hblank : isBlank c = false := by
    by_contra hblank
    rw [Bool.not_eq_false] at hblank
    simp [isIdentifierRest_of_isBlank hblank] at h
  have hwidthless : widthlessClass.contains c = false := by
    by_contra hwidthless
    rw [Bool.not_eq_false] at hwidthless
    simp [widthless_nameless.isIdentifierRest hwidthless] at h
  have hgap : isGapChar c = false := by
    simp [widthlessClass, CharClass.contains] at hwidthless
    simp [isGapChar, hblank]
    omega
  have hne (d : Char) (hd : isIdentifierRest d = false) : c ≠ d := by
    rintro rfl
    simp [hd] at h
  simp [startsToken, hgap, hne '#' rfl, hne '\\' rfl]

theorem IsName.starts {name : String} (h : IsName name) :
    ∃ first more, name.toList = first :: more ∧ isIdentifierStart first ∧ startsToken first := by
  obtain ⟨first, more, hname, hstart⟩ := h.start
  have hrest := h.rest first (by simp [hname])
  exact ⟨first, more, hname, hstart, startsToken_of_isIdentifierRest hrest⟩

structure IsFreeName (text : String) : Prop extends IsName text where
  free : isReserved text = false

theorem isFreeName_iff {text : String} : IsFreeName text ↔ IsName text ∧ isReserved text = false :=
  ⟨fun h => ⟨h.toIsName, h.free⟩, fun h => ⟨h.1, h.2⟩⟩

instance (text : String) : Decidable (IsFreeName text) := decidable_of_iff _ isFreeName_iff.symm

/-- Nothing but space stands before a token, and no line ends in it unless it is in brackets. -/
inductive Leads (place : Place) : List Char → List Char → Prop
  | here {c : Char} {rest : List Char} (starts : startsToken c) :
      Leads place (c :: rest) (c :: rest)
  | space {text ahead : List Char} (more : Leads place text ahead) : Leads place (' ' :: text) ahead
  | line {text ahead : List Char} (inside : place = .bracket) (more : Leads place text ahead) :
      Leads place ('\n' :: text) ahead

theorem Leads.name {place : Place} {name : String} (h : IsName name) (rest : List Char) :
    Leads place (name.toList ++ rest) (name.toList ++ rest) := by
  obtain ⟨first, more, hname, -, hstarts⟩ := h.starts
  rw [hname]
  exact .here hstarts

/-- A token stands at the beginning of a text, and the rest behind it. -/
def Begins (text : List Char) (token : Token) (rest : List Char) : Prop :=
  (tokenAt text).1 = token ∧ text.drop (tokenAt text).2 = rest

def Comes (place : Place) (text : List Char) (token : Token) (rest : List Char) : Prop :=
  ∃ ahead, Leads place text ahead ∧ Begins ahead token rest

/-- A token is seen ahead, which may be the end of the line. -/
inductive Shows (place : Place) (text : List Char) : Token → Prop
  | token {token : Token} {rest : List Char} (comes : Comes place text token rest) :
      Shows place text token
  | lineEnd {rest : List Char} (line : place = .line) (ends : text = '\n' :: rest) :
      Shows place text .lineEnd

section

variable {place : Place} {text ahead rest : List Char} {token : Token}

/-- A line end that was seen is not forgotten. -/
theorem lineEnds_layoutFrom {lineEnds : Bool} (h : lineEnds) (comments inComment : Bool)
    (indent : Nat) (text : List Char) :
    (layoutFrom comments inComment lineEnds indent text).lineEnds := by
  fun_induction layoutFrom comments inComment lineEnds indent text <;> simp_all

theorem startsToken_ne {c : Char} (h : startsToken c) :
    c ≠ '\n' ∧ c ≠ ' ' ∧ c ≠ '\t' ∧ c ≠ '\r' ∧ c.toNat ≠ 12 ∧ c ≠ '#' ∧ c ≠ '\\' ∧
      isGapChar c = false := by
  simp only [startsToken, Bool.and_eq_true, Bool.not_eq_true', decide_eq_true_eq] at h
  obtain ⟨⟨hgap, hhash⟩, hslash⟩ := h
  have hne (d : Char) (hd : isGapChar d) : c ≠ d := by
    rintro rfl
    simp [hd] at hgap
  refine ⟨hne _ rfl, hne _ rfl, hne _ rfl, hne _ rfl, ?_, hhash, hslash, hgap⟩
  intro hfeed
  have hc : c = Char.ofNat 12 := Char.toNat_inj.mp hfeed
  exact hne _ rfl hc

theorem layoutFrom_of_starts {c : Char} (h : startsToken c) (comments lineEnds : Bool)
    (indent : Nat) (rest : List Char) :
    layoutFrom comments false lineEnds indent (c :: rest) = ⟨lineEnds, indent, some c⟩ := by
  obtain ⟨hline, hspace, htab, hreturn, hfeed, hhash, hslash, -⟩ := startsToken_ne h
  unfold layoutFrom
  split <;> simp_all

private theorem layoutFrom_of_leads (h : Leads place text ahead) (hplace : place ≠ .bracket)
    (comments : Bool) (indent : Nat) :
    (layoutFrom comments false false indent text).lineEnds = false := by
  induction h generalizing indent with
  | here starts => rw [layoutFrom_of_starts starts]
  | space _ ih => exact ih (indent + 1)
  | line inside => exact absurd inside hplace

private theorem Leads.split (h : Leads place text ahead) :
    ∃ gap first rest, text = gap ++ ahead ∧ (∀ c ∈ gap, isGapChar c) ∧ ahead = first :: rest ∧
      startsToken first := by
  induction h with
  | here starts => exact ⟨[], _, _, rfl, by simp, rfl, starts⟩
  | space _ ih =>
    obtain ⟨gap, first, rest, rfl, hgap, hahead, hstarts⟩ := ih
    exact ⟨' ' :: gap, first, rest, rfl, by simpa using ⟨rfl, hgap⟩, hahead, hstarts⟩
  | line _ _ ih =>
    obtain ⟨gap, first, rest, rfl, hgap, hahead, hstarts⟩ := ih
    exact ⟨'\n' :: gap, first, rest, rfl, by simpa using ⟨rfl, hgap⟩, hahead, hstarts⟩

theorem Leads.length_le (h : Leads place text ahead) : ahead.length ≤ text.length := by
  obtain ⟨gap, first, rest, rfl, -⟩ := h.split
  simp

namespace Cursor
variable {c : Cursor whole} {indents : List Nat}

theorem skipGapChars_append {gap : List Char} (hc : c.Stands ⟨indents, gap ++ rest⟩)
    (hgap : ∀ char ∈ gap, isGapChar char) (hrest : ∀ char ∈ rest.head?, isGapChar char = false) :
    c.skipGapChars.Stands ⟨indents, rest⟩ := by
  have htaken : c.rest.takeWhile isGapChar = gap := by
    rw [hc.rest, List.takeWhile_append_of_pos hgap]
    cases rest with
    | nil => rw [List.takeWhile_nil, List.append_nil]
    | cons first more =>
      rw [List.takeWhile_cons_of_neg (by simp [hrest first rfl]), List.append_nil]
  rw [skipGapChars, htaken]
  exact hc.skip_append

theorem skipGapChars_stands (h : Leads place text ahead) (hc : c.Stands ⟨indents, text⟩) :
    c.skipGapChars.Stands ⟨indents, ahead⟩ := by
  obtain ⟨gap, first, rest, rfl, hgap, rfl, hstarts⟩ := h.split
  obtain ⟨-, -, -, -, -, -, -, hfirst⟩ := startsToken_ne hstarts
  exact skipGapChars_append hc hgap (by simpa using hfirst)

/-- Neither a comment nor a continuation of the line begins where a token does. -/
theorem Stands.starts {first : Char} (hc : c.Stands ⟨indents, first :: rest⟩)
    (h : startsToken first) : first ≠ '#' ∧ c.continuation? = none := by
  obtain ⟨-, -, -, -, -, hhash, hslash, -⟩ := startsToken_ne h
  refine ⟨hhash, ?_⟩
  unfold continuation?
  rw [hc.rest]
  split <;> simp_all

theorem skipGapChars_starts (h : Leads place text ahead) (hc : c.Stands ⟨indents, text⟩) :
    ∃ first rest, c.skipGapChars.rest = first :: rest ∧ first ≠ '#' ∧
      c.skipGapChars.continuation? = none := by
  obtain ⟨gap, first, rest, -, -, rfl, hstarts⟩ := h.split
  have hstart := skipGapChars_stands h hc
  exact ⟨first, rest, hstart.rest, hstart.starts hstarts⟩

theorem gap_of_leads (h : Leads place text ahead) (hc : c.Stands ⟨indents, text⟩) :
    ∃ stop, c.gap place = some ⟨stop, false, []⟩ ∧ stop.Stands ⟨indents, ahead⟩ := by
  obtain ⟨first, rest, hrest, hhash, hcontinued⟩ := skipGapChars_starts h hc
  refine ⟨c.skipGapChars, ?_, skipGapChars_stands h hc⟩
  have hline : (decide (place = .line) && (c.layout true).lineEnds) = false := by
    by_cases hplace : place = .line
    · simp only [layout, hc.rest, layoutFrom_of_leads h (by simp [hplace]), Bool.and_false]
    · simp [hplace]
  have hblock : (decide (place = .more) && c.leavesBlock) = false := by
    by_cases hplace : place = .more
    · simp only [leavesBlock, layout, hc.rest, layoutFrom_of_leads h (by simp [hplace]),
        Bool.false_and, Bool.and_false]
    · simp [hplace]
  unfold gap crossGap
  simp only [hline, hblock, Bool.false_eq_true, if_false, hrest, hcontinued]
  split <;> simp_all

end Cursor

end

/-- What follows a name cuts it off, and does not make it the prefix of a string literal. -/
def isCut (rest : List Char) : Bool :=
  rest.head?.all fun c =>
    !isIdentifierRest c && !isStringLetter c && c ≠ '"' && c ≠ '\'' && c ≠ '`'

def Token.Opens : Token → Prop
  | .quote => True
  | .integer _ => True
  | .symbol text => text = "(" ∨ text = "-"
  | .name text => text ∉ ["not", "lambda", "await", "yield"]
  | _ => False

def Token.Ends : Token → Prop
  | .lineEnd => True
  | .symbol text => text ∈ [",", ")", ":", "="]
  | _ => False

private theorem not_isIdentifierRest_of_isCut {c : Char} {rest : List Char}
    (h : isCut (c :: rest)) : isIdentifierRest c = false := by
  simp only [isCut, List.head?_cons, Option.all_some, Bool.and_eq_true, Bool.not_eq_true'] at h
  exact h.1.1.1.1

namespace Begins
variable {rest : List Char}

private theorem openString?_eq_none {front : List Char} (hfront : ∀ c ∈ front, isIdentifierRest c)
    (hcut : isCut rest) : openString? (front ++ rest) = none := by
  have hnext (c : Char) (more : List Char)
      (h : (front ++ rest).drop ((front ++ rest).takeWhile isStringLetter).length = c :: more) :
      c ≠ '"' ∧ c ≠ '\'' ∧ c ≠ '`' := by
    induction front with
    | nil =>
      cases rest with
      | nil => simp at h
      | cons d more' =>
        simp only [isCut, List.head?_cons, Option.all_some, Bool.and_eq_true, Bool.not_eq_true',
          decide_eq_true_eq] at hcut
        obtain ⟨⟨⟨⟨-, hletter⟩, hquote⟩, hsingle⟩, hback⟩ := hcut
        rw [List.nil_append, List.takeWhile_cons_of_neg (by simp [hletter])] at h
        obtain ⟨rfl, -⟩ := List.cons.inj h
        exact ⟨hquote, hsingle, hback⟩
    | cons d front ih =>
      by_cases hletter : isStringLetter d
      · rw [List.cons_append, List.takeWhile_cons_of_pos hletter] at h
        exact ih (fun c hc => hfront c (List.mem_cons_of_mem _ hc)) h
      · rw [List.cons_append, List.takeWhile_cons_of_neg hletter] at h
        obtain ⟨rfl, -⟩ := List.cons.inj h
        have hd := hfront _ List.mem_cons_self
        refine ⟨?_, ?_, ?_⟩ <;> rintro rfl <;> exact absurd hd (by decide)
  unfold openString?
  dsimp only
  split
  · rename_i h
    exact absurd rfl (hnext _ _ h).2.2
  · rename_i h
    simp [hnext _ _ h]
  · rfl

theorem name {name : String} (h : IsName name) (hcut : isCut rest) :
    Begins (name.toList ++ rest) (.name name) rest := by
  obtain ⟨first, more, hname, hstart⟩ := h.start
  have hopen := openString?_eq_none h.rest hcut
  have htaken : (name.toList ++ rest).takeWhile isIdentifierRest = name.toList := by
    rw [List.takeWhile_append_of_pos h.rest]
    cases rest with
    | nil => simp
    | cons d more =>
      rw [List.takeWhile_cons_of_neg (by simp [not_isIdentifierRest_of_isCut hcut]),
        List.append_nil]
  have htoken : tokenAt (name.toList ++ rest) = (.name name, name.toList.length) := by
    rw [hname, List.cons_append] at hopen htaken ⊢
    simp only [tokenAt, hopen, Option.isSome_none, Bool.false_eq_true, if_false, hstart, if_true,
      htaken]
    rw [← hname, String.ofList_toList]
  rw [Begins, htoken]
  exact ⟨rfl, List.drop_left⟩

theorem leftBracket : Begins ('(' :: rest) (.symbol "(") rest := ⟨rfl, rfl⟩

theorem rightBracket : Begins (')' :: rest) (.symbol ")") rest := ⟨rfl, rfl⟩

theorem comma : Begins (',' :: rest) (.symbol ",") rest := ⟨rfl, rfl⟩

theorem equals : Begins ('=' :: ' ' :: rest) (.symbol "=") (' ' :: rest) := ⟨rfl, rfl⟩

theorem colon : Begins (':' :: ' ' :: rest) (.symbol ":") (' ' :: rest) := ⟨rfl, rfl⟩

theorem lastColon : Begins (':' :: '\n' :: rest) (.symbol ":") ('\n' :: rest) := ⟨rfl, rfl⟩

theorem arrow : Begins ('-' :: '>' :: rest) (.symbol "->") rest := ⟨rfl, rfl⟩

/-- A minus in front of a digit is one of its own. -/
theorem minus {c : Char} (h : c.isDigit) : Begins ('-' :: c :: rest) (.symbol "-") (c :: rest) := by
  have hne (other : Char) (hother : other.isDigit = false) : other ≠ c := by
    rintro rfl
    simp [hother] at h
  have hfound : (symbols.find? fun symbol => symbol.toList.isPrefixOf ('-' :: c :: rest)) =
      some "-" := by
    simp [symbols, List.isPrefixOf, hne '>' rfl, hne '=' rfl]
  have hopen : openString? ('-' :: c :: rest) = none := rfl
  have hstart : isIdentifierStart '-' = false := rfl
  have htoken : tokenAt ('-' :: c :: rest) = (.symbol "-", 1) := by
    have hdigit : '-'.isDigit = false := rfl
    simp only [tokenAt, hopen, hstart, hfound, hdigit, Option.isSome_none, Bool.false_eq_true,
      if_false]
    rfl
  rw [Begins, htoken]
  exact ⟨rfl, rfl⟩

/-- A dot in front of a name is one of its own. -/
theorem dot {c : Char} (h : isIdentifierStart c) :
    Begins ('.' :: c :: rest) (.symbol ".") (c :: rest) := by
  have hdot : '.' ≠ c := by
    rintro rfl
    exact absurd h (by decide)
  have hdigit : c.isDigit = false := by
    by_contra hc
    rw [Bool.not_eq_false] at hc
    simp [isIdentifierStart_of_isDigit hc] at h
  have hfound : (symbols.find? fun symbol => symbol.toList.isPrefixOf ('.' :: c :: rest)) =
      some "." := by
    simp [symbols, List.isPrefixOf, hdot]
  have hopen : openString? ('.' :: c :: rest) = none := rfl
  have hstart : isIdentifierStart '.' = false := rfl
  have htoken : tokenAt ('.' :: c :: rest) = (.symbol ".", 1) := by
    simp only [tokenAt, hopen, hstart, hfound, hdigit, List.head?_cons, Option.map_some,
      Option.getD_some, Bool.and_false, Option.isSome_none, Bool.false_eq_true, if_false]
    rfl
  rw [Begins, htoken]
  exact ⟨rfl, rfl⟩

private theorem basedRun_zero (text : List Char) : basedRun 0 text = 0 := by
  have hnone (c : Char) : digitValue? 0 c = none := by simp [digitValue?]
  fun_cases basedRun 0 text <;> simp_all

section

variable {digits : List Char} (h : ∀ c ∈ digits, c.isDigit) (hcut : isCut rest)

include h hcut

private theorem digitRun_append (lead : Bool) :
    digitRun lead (digits ++ rest) = digits.length := by
  induction digits generalizing lead with
  | nil =>
    cases rest with
    | nil => rfl
    | cons c more =>
      have hc := not_isIdentifierRest_of_isCut hcut
      have hdigit : c.isDigit = false := by
        by_contra hd
        simp_all [isIdentifierRest]
      have hunderscore : c ≠ '_' := by
        rintro rfl
        exact absurd hc (by decide)
      simp [digitRun, hdigit, hunderscore]
  | cons c more ih =>
    rw [List.cons_append, digitRun, if_pos (h c List.mem_cons_self),
      ih (fun d hd => h d (List.mem_cons_of_mem _ hd)), List.length_cons]

private theorem markedLength_digits : markedLength (digits ++ rest) = 0 := by
  unfold markedLength
  split
  · rename_i mark more heq
    have hmark : mark.isDigit ∨ isIdentifierRest mark = false := by
      match digits, h, heq with
      | [], _, heq =>
        subst heq
        exact absurd (not_isIdentifierRest_of_isCut hcut) (by decide)
      | [_], _, heq =>
        have hrest : rest = mark :: more := (List.cons.inj heq).2
        subst hrest
        exact .inr (not_isIdentifierRest_of_isCut hcut)
      | _ :: d :: _, h, heq => exact .inl (by simp_all)
    have hne (letter : Char) (hdigit : letter.isDigit = false) (hletter : isIdentifierRest letter) :
        mark ≠ letter := by
      rintro rfl
      simp [hdigit, hletter] at hmark
    simp [hne 'x' rfl rfl, hne 'X' rfl rfl, hne 'o' rfl rfl, hne 'O' rfl rfl, hne 'b' rfl rfl,
      hne 'B' rfl rfl, basedRun_zero]
  · rfl

end

/-- Digits are an integer if neither a name nor a point follows them. -/
theorem integer {digits : List Char} (hne : digits ≠ []) (h : ∀ c ∈ digits, c.isDigit)
    (hcut : isCut rest) (hpoint : rest.head? ≠ some '.') :
    Begins (digits ++ rest) (.integer (String.ofList digits)) rest := by
  have hnot (letter : Char) (hletter : isIdentifierRest letter) (more : List Char) :
      rest ≠ letter :: more := by
    rintro rfl
    simp [not_isIdentifierRest_of_isCut hcut] at hletter
  -- An exponent or a suffix would begin with a letter, and none follows.
  have hexponent : exponentLength rest = 0 := by
    unfold exponentLength
    split
    · rename_i mark sign more
      have he : mark ≠ 'e' := fun heq => hnot 'e' rfl _ (by rw [heq])
      have hE : mark ≠ 'E' := fun heq => hnot 'E' rfl _ (by rw [heq])
      simp [he, hE]
    · rfl
  have hsuffix : oneOf ['l', 'L', 'j', 'J'] rest = 0 := by
    cases rest with
    | nil => rfl
    | cons c more =>
      have hne (letter : Char) (hletter : isIdentifierRest letter) : c ≠ letter :=
        fun heq => hnot letter hletter more (by rw [heq])
      simp [oneOf, hne 'l' rfl, hne 'L' rfl, hne 'j' rfl, hne 'J' rfl]
  have hlength : numberLength (digits ++ rest) = (digits.length, true) := by
    unfold numberLength
    simp only [markedLength_digits h hcut, digitRun_append h hcut, List.drop_left, ne_eq,
      not_true_eq_false, if_false]
    split
    · simp at hpoint
    · rw [hexponent, if_pos rfl, hsuffix]
      rfl
  obtain ⟨first, more, rfl⟩ := List.exists_cons_of_ne_nil hne
  have hfirst := h first List.mem_cons_self
  have hstart := isIdentifierStart_of_isDigit hfirst
  have hopen : openString? (first :: more ++ rest) = none :=
    openString?_eq_none (fun c hc => by simp [isIdentifierRest, h c hc]) hcut
  have htoken : tokenAt (first :: more ++ rest) =
      (.integer (String.ofList (first :: more)), (first :: more).length) := by
    have htaken : (first :: more ++ rest).take (first :: more).length = first :: more :=
      List.take_left
    rw [List.cons_append] at hopen hlength htaken ⊢
    simp only [tokenAt, hopen, hstart, hfirst, hlength, htaken, Option.isSome_none,
      Bool.false_eq_true, if_false, Bool.true_or, if_true]
  rw [Begins, htoken]
  exact ⟨rfl, List.drop_left⟩

/-- A quote opens a string literal without further ado unless two more follow. -/
theorem openString?_quote {second third : Char} (h : ¬(second = '"' ∧ third = '"')) :
    openString? ('"' :: second :: third :: rest) = some (⟨'"', false, false, false, false⟩, 1) := by
  have htaken : ('"' :: second :: third :: rest).takeWhile isStringLetter = [] := rfl
  unfold openString?
  simp only [htaken]
  simp
  simp_all

theorem quote {second third : Char} (h : ¬(second = '"' ∧ third = '"')) :
    Begins ('"' :: second :: third :: rest) .quote ('"' :: second :: third :: rest) := by
  have htoken : tokenAt ('"' :: second :: third :: rest) = (.quote, 0) := by
    simp only [tokenAt, openString?_quote h, Option.isSome_some, if_true]
  rw [Begins, htoken]
  exact ⟨rfl, rfl⟩

end Begins

theorem Comes.name {place : Place} {name : String} {text rest : List Char} (h : IsName name)
    (hleads : Leads place text (name.toList ++ rest)) (hcut : isCut rest) :
    Comes place text (.name name) rest := ⟨_, hleads, .name h hcut⟩

namespace Rule
variable {place : Place} {text ahead rest : List Char} {token : Token} {here : Spot}

theorem Reads.reach (h : Leads place here.text ahead) :
    (Rule.reach place : Rule whole Unit).Reads here (fun _ => True) ⟨here.indents, ahead⟩ := by
  refine .bind .get fun c hc => ?_
  obtain ⟨stop, hgap, hstop⟩ := Cursor.gap_of_leads h hc
  rw [hgap]
  exact .set hstop

theorem Reads.peek (h : Shows place here.text token) :
    (Rule.peek place : Rule whole Token).Reads here (· = token) here := by
  refine .bind .get fun c hc => ?_
  cases h with
  | token comes =>
    obtain ⟨ahead, hleads, hbegins⟩ := comes
    obtain ⟨stop, hgap, hstop⟩ := Cursor.gap_of_leads hleads hc
    rw [hgap]
    have hfound : stop.token = tokenAt ahead := congrArg tokenAt hstop.rest
    refine .pure ?_
    simp only [hfound, Bool.false_eq_true, if_false]
    exact hbegins.1
  | @lineEnd rest line ends =>
    have hends : (c.layout true).lineEnds := by
      rw [Cursor.layout, hc.rest, ends]
      exact lineEnds_layoutFrom rfl true false 0 rest
    have hgap : c.gap place = some ⟨c, true, []⟩ := by
      simp [Cursor.gap, crossGap, line, hends]
    rw [hgap]
    exact .pure rfl

theorem Reads.take (h : Comes place here.text token rest) :
    (Rule.take place : Rule whole Token).Reads here (· = token) ⟨here.indents, rest⟩ := by
  obtain ⟨ahead, hleads, hbegins⟩ := h
  refine .bind (.reach hleads) fun _ _ => .bind .get fun c hc => ?_
  obtain ⟨htoken, hrest⟩ := hbegins
  have hfound : c.token = tokenAt ahead := congrArg tokenAt hc.rest
  rw [hfound]
  refine .bind (.set ?_) fun _ _ => .pure htoken
  rw [← hrest]
  exact hc.skip _

theorem Reads.symbol {text : String} (h : Comes place here.text (.symbol text) rest) :
    (Rule.symbol place text : Rule whole Unit).Reads here (fun _ => True) ⟨here.indents, rest⟩ := by
  refine .andThen (.take h) ?_
  rw [if_pos rfl]
  exact .pure trivial

theorem Reads.word {text : String} (h : Comes place here.text (.name text) rest) :
    (Rule.word place text : Rule whole Unit).Reads here (fun _ => True) ⟨here.indents, rest⟩ := by
  refine .andThen (.take h) ?_
  rw [if_pos rfl]
  exact .pure trivial

theorem Reads.symbol?_yes {text : String} (h : Comes place here.text (.symbol text) rest) :
    (Rule.symbol? place text : Rule whole Bool).Reads here (· = true) ⟨here.indents, rest⟩ := by
  refine .andThen (.peek (.token h)) ?_
  rw [if_pos rfl]
  exact .bind (.take h) fun _ _ => .pure rfl

theorem Reads.symbol?_no {text : String} (h : Shows place here.text token)
    (hother : token ≠ .symbol text) :
    (Rule.symbol? place text : Rule whole Bool).Reads here (· = false) here := by
  refine .andThen (.peek h) ?_
  rw [if_neg hother]
  exact .pure rfl

theorem Reads.word?_no {text : String} (h : Shows place here.text token)
    (hother : token ≠ .name text) :
    (Rule.word? place text : Rule whole Bool).Reads here (· = false) here := by
  refine .andThen (.peek h) ?_
  rw [if_neg hother]
  exact .pure rfl

theorem Reads.identifier {name : String} (hname : IsFreeName name)
    (h : Comes place here.text (.name name) rest) :
    (Rule.identifier place : Rule whole String).Reads here (· = name) ⟨here.indents, rest⟩ := by
  refine .andThen (.take h) ?_
  simp only [hname.free]
  exact .pure rfl

theorem Reads.spanned {α : Type} {P : α → Prop} {rule : Rule whole α} {there : Spot}
    (h : Leads place here.text ahead) (h' : rule.Reads ⟨here.indents, ahead⟩ P there) :
    (Rule.spanned place rule).Reads here (fun result => P result.1) there :=
  .bind (.reach h) fun _ _ => .bind .get fun _ _ => .bind h' fun _ hvalue =>
    .bind .get fun _ _ => .pure hvalue

/-- The source text of what a rule reads is told as well. -/
theorem Reads.spanned_text {α : Type} {P : α → Prop} {rule : Rule whole α} {outer : List Nat}
    {text : List Char} (h : Leads place here.text (text ++ rest))
    (h' : rule.Reads ⟨here.indents, text ++ rest⟩ P ⟨outer, rest⟩) :
    (Rule.spanned place rule).Reads here
      (fun result => P result.1 ∧ result.2.1 = String.ofList text) ⟨outer, rest⟩ :=
  .bind (.reach h) fun _ _ => .bind .get fun _ hstart => .bind h' fun _ hvalue =>
    .bind .get fun _ hstop => .pure ⟨hvalue, hstart.textTo hstop⟩

theorem Fails.symbol {text : String} (h : Comes place here.text token rest)
    (hother : token ≠ .symbol text) : (Rule.symbol place text : Rule whole Unit).Fails here := by
  refine .later (.take h) fun _ hvalue => ?_
  rw [hvalue, if_neg hother]
  exact .failure

end Rule

end ElementBinding.Grammar
