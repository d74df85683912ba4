import ElementBinding.Proofs.Grammar.Passes

/-!
# Texts of statements

The statements of a block stand on lines of their own, further indented than what the block belongs
to. A statement is read wherever its line ends behind it and no further indented line follows.
-/
namespace ElementBinding.Grammar
open ElementBinding.Text

variable {whole : List Char}

theorem layoutFrom_line (indent : Nat) {c : Char} (h : startsToken c) (more : List Char) :
    layoutFrom true false false 0 ('\n' :: (List.replicate indent ' ' ++ c :: more)) =
      ⟨true, indent, some c⟩ := by
  have hspaces (n start : Nat) (text : List Char) :
      layoutFrom true false true start (List.replicate n ' ' ++ text) =
        layoutFrom true false true (start + n) text := by
    induction n generalizing start with
    | zero => rfl
    | succ n ih => exact (ih (start + 1)).trans (by rw [Nat.add_right_comm, Nat.add_assoc])
  have hline : layoutFrom true false false 0 ('\n' :: (List.replicate indent ' ' ++ c :: more)) =
      layoutFrom true false true 0 (List.replicate indent ' ' ++ c :: more) := rfl
  rw [hline, hspaces, layoutFrom_of_starts h, Nat.zero_add]

/-- The line ends, and what follows is indented so far at most. -/
structure Returns (indent : Nat) (rest : List Char) : Prop where
  line : ∃ more, rest = '\n' :: more
  indent : (layoutFrom true false false 0 rest).indent ≤ indent

namespace Returns
variable {indent : Nat} {rest : List Char}

theorem mono {indent' : Nat} (h : Returns indent rest) (hindent : indent ≤ indent') :
    Returns indent' rest := ⟨h.line, h.indent.trans hindent⟩

theorem lineEnds (h : Returns indent rest) : (layoutFrom true false false 0 rest).lineEnds := by
  obtain ⟨more, rfl⟩ := h.line
  exact lineEnds_layoutFrom rfl true false 0 more

theorem stops (h : Returns indent rest) : Stops .line rest := by
  obtain ⟨more, rfl⟩ := h.line
  exact .line more rfl

theorem shows (h : Returns indent rest) : Shows .line rest .lineEnd := by
  obtain ⟨more, rfl⟩ := h.line
  exact .lineEnd rfl rfl

theorem cons (h : Returns indent rest) : Returns indent ('\n' :: rest) := by
  obtain ⟨more, rfl⟩ := h.line
  exact ⟨⟨_, rfl⟩, h.indent⟩

theorem of_starts (indent : Nat) {c : Char} (h : startsToken c) (more : List Char) :
    Returns indent ('\n' :: (List.replicate indent ' ' ++ c :: more)) := by
  refine ⟨⟨_, rfl⟩, ?_⟩
  rw [layoutFrom_line indent h]

theorem textEnd : Returns indent ['\n'] := ⟨⟨_, rfl⟩, Nat.zero_le _⟩

end Returns

/-- A text is a statement of a block that is indented so far, and a statement of some kind, if rules
are nested so deep. -/
structure Says (depth : Nat) (indents : List Nat) (P : Stmt → Prop) (text : List Char) : Prop where
  starts : ∃ first more, text = first :: more ∧ startsToken first
  reads : ∀ (whole : List Char) (n : Nat), depth ≤ n → ∀ rest, Returns (indents.headD 0) rest →
    (statements (Rules.ofDepth n : Rules whole)).Reads ⟨indents, text ++ rest⟩ (Matches [P])
      ⟨indents, rest⟩

namespace Says
variable {depth : Nat} {indents : List Nat} {P : Stmt → Prop} {text : List Char}

/-- A statement may follow a line end. -/
theorem returns (h : Says depth indents P text) (rest : List Char) :
    Returns 0 ('\n' :: (text ++ rest)) := by
  obtain ⟨first, more, rfl, hstarts⟩ := h.starts
  exact .of_starts 0 hstarts (more ++ rest)

theorem mono {depth' : Nat} (h : Says depth indents P text) (hdepth : depth ≤ depth') :
    Says depth' indents P text :=
  ⟨h.starts, fun whole n hn => h.reads whole n (hdepth.trans hn)⟩

end Says

section

variable {g : Rules whole} {indents : List Nat} {text rest : List Char} {indent : Nat}

/-- The words that begin statements which are no expressions, or may be none. -/
def ownWords : List String :=
  ["if", "for", "while", "try", "with", "def", "class", "async", "match", "print", "exec", "type"]

private def wordStatement (g : Rules whole) (word : String) : Rule whole Stmt :=
  if statementKeywords.contains word then do
    Rule.word .more word
    keywordStatement g word
  else expressionStatement g

private theorem statements_of_word {word : String} {behind : List Char}
    (hleads : Leads .more text text) (hbegins : Begins text (.name word) behind)
    (hword : word ∉ ownWords) {P : Stmt → Prop}
    (h : (wordStatement g word).Reads ⟨indents, text⟩ P ⟨indents, rest⟩)
    (hrest : Returns indent rest) :
    (statements g).Reads ⟨indents, text⟩ (Matches [P]) ⟨indents, rest⟩ := by
  have hcomes : Comes .more text (.name word) behind := ⟨text, hleads, hbegins⟩
  have hended : (ended true (wordStatement g word)).Reads ⟨indents, text⟩ P ⟨indents, rest⟩ := by
    refine .bind (.reach hleads) fun _ _ => .bind .cursor fun start _ =>
      .bind h fun result hresult => ?_
    exact .andThen (.peek hrest.shows) (.pure hresult)
  have hsimple : (simpleStatement g true).Reads ⟨indents, text⟩ P ⟨indents, rest⟩ := by
    refine .andThen (.peek (.token hcomes)) ?_
    split
    · simp_all [ownWords]
    · simp_all [ownWords]
    · simp_all [ownWords]
    · rename_i found _ _ _ heq
      obtain rfl := Token.name.inj heq
      by_cases hkeyword : statementKeywords.contains word
      · rw [wordStatement, if_pos hkeyword] at hended
        rw [if_pos hkeyword]
        exact hended
      · rw [wordStatement, if_neg hkeyword] at hended
        rw [if_neg hkeyword]
        exact hended
    · simp_all
  have hline : (simpleStatements g true).Reads ⟨indents, text⟩ (Matches [P]) ⟨indents, rest⟩ := by
    refine .bind hsimple fun first hfirst => .mono (Rule.Settles.once [first] ?_)
      fun _ hvalue => hvalue ▸ .cons hfirst .nil
    exact .andThen (.symbol?_no hrest.shows (by decide)) (.pure rfl)
  refine .bind .cursor fun c _ => .andThen (.peek (.token hcomes)) ?_
  split <;> simp_all [ownWords]

end

private theorem Says.of_word {depth : Nat} {indents : List Nat} {word : String}
    {behind : List Char} {P : Stmt → Prop} (hname : IsName word) (hword : word ∉ ownWords)
    (hcut : ∀ rest, Stops .line rest → isCut (behind ++ rest))
    (h : ∀ (whole : List Char) (n : Nat), depth ≤ n → ∀ rest, Returns (indents.headD 0) rest →
      (wordStatement (Rules.ofDepth n : Rules whole) word).Reads
        ⟨indents, word.toList ++ (behind ++ rest)⟩ P ⟨indents, rest⟩) :
    Says depth indents P (word.toList ++ behind) where
  starts := by
    obtain ⟨first, more, hfirst, -, hstarts⟩ := hname.starts
    exact ⟨first, more ++ behind, by rw [hfirst, List.cons_append], hstarts⟩
  reads whole n hn rest hrest := by
    rw [List.append_assoc]
    exact statements_of_word (.name hname _) (.name hname (hcut rest hrest.stops)) hword
      (h whole n hn rest hrest) hrest

def partsText (more : List String) : List Char := more.flatMap fun part => '.' :: part.toList

section

variable {g : Rules whole} {before after : Place} {indents : List Nat} {front rest : List Char}

private theorem isCut_partsText (more : List String) (hcut : isCut rest) :
    isCut (partsText more ++ rest) := by
  cases more with
  | nil => exact hcut
  | cons part more => rfl

private theorem dottedName_reads {first : String} {more : List String}
    (h : ∀ part ∈ first :: more, IsFreeName part)
    (hleads : Leads before front (first.toList ++ (partsText more ++ rest))) (hcut : isCut rest)
    {token : Token} (hshows : Shows after rest token) (hother : token ≠ .symbol ".") :
    (dottedName before after : Rule whole (List String)).Reads ⟨indents, front⟩ (· = first :: more)
      ⟨indents, rest⟩ := by
  have hfirst := h first List.mem_cons_self
  refine .andThen
    (.identifier hfirst (.name hfirst.toIsName hleads (isCut_partsText more hcut))) ?_
  refine Rule.Settles.loop (I := (· = [first])) ?_ rfl
  refine (?_ : ∀ done : List String, Rule.Settles _ ⟨indents, partsText more ++ rest⟩ (· = done)
    (· = done ++ more) ⟨indents, rest⟩) [first]
  clear * - h hcut hshows hother
  induction more generalizing first with
  | nil =>
    intro done
    refine .last fun parts hparts => .andThen (.symbol?_no hshows hother) (.pure ⟨_, rfl, ?_⟩)
    rw [hparts, List.append_nil]
  | cons part more ih =>
    intro done
    have hpart := h part (by simp)
    have hparts : partsText (part :: more) ++ rest =
        '.' :: (part.toList ++ (partsText more ++ rest)) := by simp [partsText]
    have hname : Leads .more (part.toList ++ (partsText more ++ rest))
        (part.toList ++ (partsText more ++ rest)) := .name hpart.toIsName _
    obtain ⟨char, others, hchar, hstart, -⟩ := hpart.starts
    have hdot : Comes after ('.' :: (part.toList ++ (partsText more ++ rest))) (.symbol ".")
        (part.toList ++ (partsText more ++ rest)) := by
      rw [hchar]
      exact ⟨_, .here rfl, .dot hstart⟩
    have hmore := @ih part (fun other hother => h other (List.mem_cons_of_mem _ hother))
      (done ++ [part])
    rw [List.append_assoc, List.singleton_append] at hmore
    rw [hparts]
    refine .more (by simp [hchar]; omega) (fun parts hdone => ?_) hmore
    refine .andThen (.symbol?_yes hdot) ?_
    refine .andThen (.identifier hpart (.name hpart.toIsName hname (isCut_partsText more hcut))) ?_
    exact .pure ⟨_, rfl, hdone ▸ rfl⟩

private theorem importedNames_reads {name : String} (hname : IsFreeName name)
    (hleads : Leads .more front (name.toList ++ rest)) {indent : Nat}
    (hrest : Returns indent rest) :
    (importedNames : Rule whole _).Reads ⟨indents, front⟩ (· = [([name], none)])
      ⟨indents, rest⟩ := by
  have hcomes : Comes .more front (.name name) rest :=
    .name hname.toIsName hleads hrest.stops.isCut
  have himported : (importedName .more .line : Rule whole _).Reads ⟨indents, front⟩
      (· = ([name], none)) ⟨indents, rest⟩ := by
    have hparts : Leads .more front (name.toList ++ (partsText [] ++ rest)) := hleads
    refine .andThen (dottedName_reads (by simpa using hname) hparts hrest.stops.isCut hrest.shows
      (by decide)) ?_
    exact .andThen (.word?_no hrest.shows (by decide)) (.pure rfl)
  refine .andThen (.symbol?_no (.token hcomes) (by simp)) (.andThen himported ?_)
  refine Rule.Settles.once _ ?_
  exact .andThen (.symbol?_no hrest.shows (by decide)) (.pure rfl)

private theorem importFrom_reads {first : String} {more : List String}
    (h : ∀ part ∈ first :: more, IsFreeName part) {name : String} (hname : IsFreeName name)
    {indent : Nat} (hrest : Returns indent rest) :
    (importFrom : Rule whole Stmt).Reads
      ⟨indents, ' ' :: (first.toList ++ (partsText more ++
        (' ' :: ("import".toList ++ ' ' :: (name.toList ++ rest)))))⟩
      (· = .importFrom 0 (first :: more) [([name], none)]) ⟨indents, rest⟩ := by
  have himport : IsName "import" := by decide
  have hleads : Leads .more (' ' :: (name.toList ++ rest)) (name.toList ++ rest) :=
    .space (.name hname.toIsName rest)
  have hcomes : Comes .more (' ' :: (name.toList ++ rest)) (.name name) rest :=
    .name hname.toIsName hleads hrest.stops.isCut
  have hkeyword : Comes .more (' ' :: ("import".toList ++ ' ' :: (name.toList ++ rest)))
      (.name "import") (' ' :: (name.toList ++ rest)) :=
    .name himport (.space (.name himport _)) rfl
  have hfirst := h first List.mem_cons_self
  have hsource : Comes .more (' ' :: (first.toList ++ (partsText more ++
      (' ' :: ("import".toList ++ ' ' :: (name.toList ++ rest)))))) (.name first) _ :=
    .name hfirst.toIsName (.space (.name hfirst.toIsName _)) (isCut_partsText more rfl)
  refine .andThen (Rule.Settles.once 0 (.andThen (.peek (.token hsource)) (.pure rfl))) ?_
  refine .andThen (.peek (.token hsource)) ?_
  rw [if_neg (by simp)]
  refine .andThen (dottedName_reads h (.space (.name hfirst.toIsName _)) rfl (.token hkeyword)
    (by simp)) ?_
  refine .bind (.word hkeyword) fun _ _ => .andThen (.peek (.token hcomes)) ?_
  rw [if_neg (by simp)]
  exact .andThen (importedNames_reads hname hleads hrest) (.pure rfl)

end

def importText (first : String) (more : List String) (name : String) : List Char :=
  "from".toList ++ ' ' :: (first.toList ++ (partsText more ++
    (' ' :: ("import".toList ++ ' ' :: name.toList))))

theorem Says.importFrom {first : String} {more : List String}
    (h : ∀ part ∈ first :: more, IsFreeName part) {name : String} (hname : IsFreeName name)
    (indents : List Nat) : Says 0 indents (· = .importFrom 0 (first :: more) [([name], none)])
      (importText first more name) := by
  have hfrom : IsName "from" := by decide
  refine .of_word hfrom (by decide) (fun _ _ => rfl) fun whole n _ rest hrest => ?_
  have hcomes : Comes .more ("from".toList ++ (' ' :: (first.toList ++ (partsText more ++
      (' ' :: ("import".toList ++ ' ' :: name.toList)))) ++ rest)) (.name "from") _ :=
    .name hfrom (.name hfrom _) rfl
  refine .bind (.word hcomes) fun _ _ => ?_
  simp only [List.cons_append, List.append_assoc]
  exact importFrom_reads h hname hrest

section

variable {depth n : Nat} {indents : List Nat} {indent : Nat} {front text rest : List Char}

private theorem lineExpressions_reads {P : Expr → Prop} (hn : depth ≤ n) (h : Spells depth P text)
    (hleads : Leads .more front (text ++ rest)) (hstops : Stops .line rest) {closing : Token}
    (hshows : Shows .line rest closing) (hother : closing ≠ .symbol ",") :
    (lineExpressions (Rules.ofDepth (n + 1) : Rules whole) .more).Reads ⟨indents, front⟩
      (fun found => ∃ e, found = ([e], false) ∧ P e) ⟨indents, rest⟩ := by
  refine .bind (h.reads whole n hn true .more .line indents front rest hleads hstops)
    fun e he => ?_
  refine .mono (Rule.Settles.once ([e], false) ?_) fun _ hfound => ⟨e, hfound, he⟩
  exact .andThen (.symbol?_no hshows hother) (.pure rfl)

private theorem spanned_lineExpressions {P : Expr → Prop} (hn : depth ≤ n) (h : Spells depth P text)
    (hleads : Leads .more front (text ++ rest)) (hstops : Stops .line rest) {closing : Token}
    (hshows : Shows .line rest closing) (hother : closing ≠ .symbol ",") :
    (Rule.spanned .more
        (lineExpressions (Rules.ofDepth (n + 1) : Rules whole) .more)).Reads ⟨indents, front⟩
      (fun found => ∃ e, found.1 = ([e], false) ∧ P e) ⟨indents, rest⟩ := by
  obtain ⟨first, more, rfl, hstarts⟩ := h.starts
  exact .spanned hleads (lineExpressions_reads hn h (.here hstarts) hstops hshows hother)

private theorem Token.Opens.ne_yield {token : Token} (h : token.Opens) : token ≠ .name "yield" := by
  rintro rfl
  simp [Token.Opens] at h

private theorem assigned_single {P : Expr → Prop} (hn : depth ≤ n) (h : Spells depth P text)
    (hleads : Leads .more front (text ++ rest)) (hrest : Returns indent rest) :
    (assigned (Rules.ofDepth (n + 1) : Rules whole) .more).Reads ⟨indents, front⟩
      (fun value => ∃ e line, value = .single e line ∧ P e) ⟨indents, rest⟩ := by
  obtain ⟨token, more, hbegins, hopens⟩ := h.opens .line rest hrest.stops
  refine .andThen (.peek (.token ⟨_, hleads, hbegins⟩)) ?_
  rw [if_neg hopens.ne_yield]
  refine .bind (spanned_lineExpressions hn h hleads hrest.stops hrest.shows (by decide))
    fun found hfound => ?_
  obtain ⟨found, written, line⟩ := found
  obtain ⟨e, rfl, he⟩ := hfound
  exact .andThen (.peek hrest.shows) (.pure ⟨e, line, rfl, he⟩)

/-- A plain assignment to one target. -/
def Assignment.IsTo (P Q : Expr → Prop) (assignment : Assignment) : Prop :=
  ∃ line target written value valueLine,
    assignment = .mk line ⟨false, [target], written⟩ none "=" (some (.single value valueLine)) ∧
      P target ∧ Q value

private theorem assigned_nested {value : List Char} {P Q : Expr → Prop} (hn : depth ≤ n)
    (htarget : Spells depth P text) (hassignable : ∀ e, P e → isAssignable e)
    (hvalue : Spells depth Q value)
    (hleads : Leads .more front (text ++ (' ' :: '=' :: ' ' :: (value ++ rest))))
    (hrest : Returns indent rest) :
    (assigned (Rules.ofDepth (n + 2) : Rules whole) .more).Reads ⟨indents, front⟩
      (fun value => ∃ assignment, value = .nested assignment ∧ assignment.IsTo P Q)
      ⟨indents, rest⟩ := by
  obtain ⟨token, more, hbegins, hopens⟩ := htarget.opens .line _ (.equals (value ++ rest))
  have hsign : Comes .line (' ' :: '=' :: ' ' :: (value ++ rest)) (.symbol "=")
      (' ' :: (value ++ rest)) := ⟨_, .space (.here rfl), .equals⟩
  obtain ⟨first, others, hfirst, hstarts⟩ := hvalue.starts
  have hspace : Leads .more (' ' :: (value ++ rest)) (value ++ rest) := by
    rw [hfirst]
    exact .space (.here hstarts)
  refine .andThen (.peek (.token ⟨_, hleads, hbegins⟩)) ?_
  rw [if_neg hopens.ne_yield]
  refine .bind (spanned_lineExpressions (by omega : depth ≤ n + 1) htarget hleads
    (.equals (value ++ rest)) (.token hsign) (by decide)) fun found hfound => ?_
  obtain ⟨found, written, line⟩ := found
  obtain ⟨e, rfl, he⟩ := hfound
  refine .andThen (.peek (.token hsign)) ?_
  refine .bind (.symbol hsign) fun _ _ => .bind (assigned_single hn hvalue hspace hrest)
    fun found hfound => ?_
  obtain ⟨value, valueLine, rfl, hvalue⟩ := hfound
  rw [areAssignable, areAssignable, hassignable e he]
  exact .pure ⟨_, rfl, line, e, written, value, valueLine, rfl, he, hvalue⟩

end

/-- A name that begins no statement of a kind of its own. -/
structure IsPlainName (word : String) : Prop extends IsName word where
  unowned : word ∉ ownWords
  unkeyed : word ∉ statementKeywords

theorem isPlainName_iff {word : String} :
    IsPlainName word ↔ IsName word ∧ word ∉ ownWords ∧ word ∉ statementKeywords :=
  ⟨fun h => ⟨h.toIsName, h.unowned, h.unkeyed⟩, fun h => ⟨h.1, h.2.1, h.2.2⟩⟩

instance (word : String) : Decidable (IsPlainName word) := decidable_of_iff _ isPlainName_iff.symm

namespace Says
variable {depth : Nat} {word : String} {behind : List Char}

private theorem wordStatement_plain (hword : IsPlainName word) (g : Rules whole) :
    wordStatement g word = expressionStatement g := by
  rw [wordStatement, if_neg (by simpa using hword.unkeyed)]

theorem expression {P : Expr → Prop} (hword : IsPlainName word)
    (hcut : ∀ rest, Stops .line rest → isCut (behind ++ rest))
    (h : Spells depth P (word.toList ++ behind)) (indents : List Nat) :
    Says (depth + 1) indents (fun s => ∃ e, s = .expression [e] ∧ P e)
      (word.toList ++ behind) := by
  refine .of_word hword.toIsName hword.unowned hcut fun whole n hn rest hrest => ?_
  obtain ⟨n, rfl⟩ : ∃ m, n = m + 1 := ⟨n - 1, by omega⟩
  have hleads : Leads .more (word.toList ++ (behind ++ rest)) (word.toList ++ behind ++ rest) := by
    rw [List.append_assoc]
    exact .name hword.toIsName _
  rw [wordStatement_plain hword]
  refine .bind (assigned_single (by omega : depth ≤ n) h hleads hrest) fun value hvalue => ?_
  obtain ⟨e, line, rfl, he⟩ := hvalue
  exact .pure ⟨e, rfl, he⟩

theorem assignment {value : List Char} {P Q : Expr → Prop} (hword : IsPlainName word)
    (hcut : ∀ rest, isCut rest → isCut (behind ++ rest))
    (htarget : Spells depth P (word.toList ++ behind)) (hassignable : ∀ e, P e → isAssignable e)
    (hvalue : Spells depth Q value) (indents : List Nat) :
    Says (depth + 2) indents (fun s => ∃ assignment, s = .assignment assignment ∧
      assignment.IsTo P Q) (word.toList ++ (behind ++ ' ' :: '=' :: ' ' :: value)) := by
  refine .of_word hword.toIsName hword.unowned (fun rest _ => ?_) fun whole n hn rest hrest => ?_
  · rw [List.append_assoc]
    exact hcut _ rfl
  · obtain ⟨n, rfl⟩ : ∃ m, n = m + 2 := ⟨n - 2, by omega⟩
    have hleads : Leads .more (word.toList ++ (behind ++ ' ' :: '=' :: ' ' :: value ++ rest))
        (word.toList ++ behind ++ (' ' :: '=' :: ' ' :: (value ++ rest))) := by
      simp only [List.append_assoc, List.cons_append]
      exact .name hword.toIsName _
    rw [wordStatement_plain hword]
    refine .bind (assigned_nested (by omega : depth ≤ n) htarget hassignable hvalue hleads hrest)
      fun value hvalue => ?_
    obtain ⟨assignment, rfl, hassignment⟩ := hvalue
    exact .pure ⟨assignment, rfl, hassignment⟩

end Says

end ElementBinding.Grammar
