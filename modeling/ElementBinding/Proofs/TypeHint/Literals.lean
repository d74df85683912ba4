import ElementBinding.Proofs.TypeHint.Spacing

/-!
# String literals in annotations

An annotation keeps its meaning if nothing but white space outside its string literals changes, the
quotes of a forward reference apart. Normal forms do not look at literals: they drop the quotes at
the two ends of a text whether these belong together or not, and lay out the inside of a literal
like any other text. So meaning is kept exactly if the quotes at the ends are those of one literal
and every other literal is spaced the way normal forms are.
-/
namespace ElementBinding.TypeHint
open ElementBinding.Text

/-- The quotes that open a literal and close it, the longer ones first. Inside a forward reference
quotes are escaped. -/
def quoteMarks : List (List Char) :=
  ["'''".toList, "\"\"\"".toList, "\\'".toList, "\\\"".toList, "'".toList, "\"".toList]

/-- A text split behind the first mark in it. A backslash takes the next character with it. -/
def closed (mark : List Char) : List Char → Option (List Char × List Char)
  | [] => none
  | '\\' :: c :: rest =>
    if mark.isPrefixOf ('\\' :: c :: rest) then some (mark, ('\\' :: c :: rest).drop mark.length)
    else (closed mark rest).map fun (front, back) => ('\\' :: c :: front, back)
  | c :: rest =>
    if mark.isPrefixOf (c :: rest) then some (mark, (c :: rest).drop mark.length)
    else (closed mark rest).map fun (front, back) => (c :: front, back)

/-- The string literal at the beginning of a text, and the rest. -/
def literal? (text : List Char) : Option (List Char × List Char) := do
  let mark ← quoteMarks.find? (·.isPrefixOf text)
  let (front, back) ← closed mark (text.drop mark.length)
  return (mark ++ front, back)

/-- What an annotation is made of. -/
inductive Piece where
  | code (c : Char)
  | literal (text : List Char)
deriving DecidableEq

def Piece.text : Piece → List Char
  | .code c => [c]
  | .literal text => text

/-- A text that neither begins nor ends with a blank, a bracket, a comma or a bar. -/
structure Delimited (text : List Char) : Prop where
  begins : ∃ c rest, text = c :: rest ∧ isBlank c = false ∧ isTight c = false
  ends : ∃ rest c, text = rest ++ [c] ∧ isBlank c = false ∧ isTight c = false

private theorem mark_ne_nil {mark : List Char} (h : mark ∈ quoteMarks) : mark ≠ [] := by
  have hall : ∀ mark ∈ quoteMarks, mark ≠ [] := by decide
  exact hall mark h

private theorem word_of_mem_mark {mark : List Char} (h : mark ∈ quoteMarks) {c : Char}
    (hc : c ∈ mark) : isBlank c = false ∧ isTight c = false := by
  have hall : quoteMarks.all (·.all fun c => !isBlank c && !isTight c) := by decide
  simpa using List.all_eq_true.mp (List.all_eq_true.mp hall mark h) c hc

private theorem eq_append_drop {mark text : List Char} (h : mark.isPrefixOf text) :
    text = mark ++ text.drop mark.length :=
  List.prefix_iff_eq_append.mp (List.isPrefixOf_iff_prefix.mp h) |>.symm

theorem closed_eq {mark text front back : List Char} (h : closed mark text = some (front, back)) :
    text = front ++ back ∧ mark <:+ front := by
  induction text using closed.induct mark generalizing front with
  | case1 => simp [closed] at h
  | case2 c rest hmark =>
    rw [closed, if_pos hmark] at h
    obtain ⟨rfl, rfl⟩ := Prod.mk.inj (Option.some.inj h)
    exact ⟨eq_append_drop hmark, List.suffix_refl _⟩
  | case3 c rest hmark ih =>
    rw [closed, if_neg hmark, Option.map_eq_some_iff] at h
    obtain ⟨⟨front', back'⟩, hrest, heq⟩ := h
    obtain ⟨rfl, rfl⟩ := Prod.mk.inj heq
    obtain ⟨rfl, hsuffix⟩ := ih hrest
    exact ⟨rfl, hsuffix.trans (List.suffix_append [_, _] _)⟩
  | case4 c rest hplain hmark =>
    rw [closed, if_pos hmark] at h
    · obtain ⟨rfl, rfl⟩ := Prod.mk.inj (Option.some.inj h)
      exact ⟨eq_append_drop hmark, List.suffix_refl _⟩
    · exact hplain
  | case5 c rest hplain hmark ih =>
    rw [closed, if_neg hmark, Option.map_eq_some_iff] at h
    · obtain ⟨⟨front', back'⟩, hrest, heq⟩ := h
      obtain ⟨rfl, rfl⟩ := Prod.mk.inj heq
      obtain ⟨rfl, hsuffix⟩ := ih hrest
      exact ⟨rfl, hsuffix.trans (List.suffix_cons _ _)⟩
    · exact hplain

theorem literal?_eq {text lit back : List Char} (h : literal? text = some (lit, back)) :
    text = lit ++ back ∧ Delimited lit := by
  simp only [literal?, Option.bind_eq_bind, Option.bind_eq_some_iff] at h
  obtain ⟨mark, hmark, ⟨front, back'⟩, hclosed, heq⟩ := h
  obtain ⟨rfl, rfl⟩ := Prod.mk.inj (Option.some.inj heq)
  have hmem := List.mem_of_find?_eq_some hmark
  have hprefix : mark.isPrefixOf text := by simpa using List.find?_some hmark
  obtain ⟨hrest, before, rfl⟩ := closed_eq hclosed
  refine ⟨?_, ?_, ?_⟩
  · rw [List.append_assoc, ← hrest]
    exact eq_append_drop hprefix
  · obtain ⟨c, more, hcons⟩ := List.exists_cons_of_ne_nil (mark_ne_nil hmem)
    refine ⟨c, more ++ (before ++ mark), ?_, word_of_mem_mark hmem (by simp [hcons])⟩
    rw [← List.cons_append, ← hcons]
  · obtain ⟨more, c, hconcat⟩ := List.eq_nil_or_concat mark |>.resolve_left (mark_ne_nil hmem)
    refine ⟨mark ++ before ++ more, c, ?_, word_of_mem_mark hmem (by simp [hconcat])⟩
    rw [List.append_assoc _ more, ← List.concat_eq_append, ← hconcat, List.append_assoc]

def pieces : List Char → List Piece
  | [] => []
  | c :: rest =>
    match _h : literal? (c :: rest) with
    | some (lit, back) => .literal lit :: pieces back
    | none => .code c :: pieces rest
termination_by text => text.length
decreasing_by
  · obtain ⟨htext, ⟨d, more, hlit, -⟩, -⟩ := literal?_eq _h
    rw [htext, hlit]
    simp
  · simp

theorem pieces_literal {text lit back : List Char} (h : literal? text = some (lit, back)) :
    pieces text = .literal lit :: pieces back := by
  cases text with
  | nil => simp [literal?, quoteMarks] at h
  | cons c rest =>
    rw [pieces]
    split
    · rename_i hsome
      rw [h] at hsome
      obtain ⟨rfl, rfl⟩ := Prod.mk.inj (Option.some.inj hsome)
      rfl
    · rename_i hnone
      simp [h] at hnone

theorem pieces_code {c : Char} {rest : List Char} (h : literal? (c :: rest) = none) :
    pieces (c :: rest) = .code c :: pieces rest := by
  rw [pieces]
  split
  · rename_i hsome
    simp [h] at hsome
  · rfl

theorem pieces_append {front : List Char} (h : ∀ c ∈ front, c ∉ "\\'\"".toList) (back : List Char) :
    pieces (front ++ back) = front.map .code ++ pieces back := by
  induction front with
  | nil => rfl
  | cons c rest ih =>
    have hc : c ≠ '\\' ∧ c ≠ '\'' ∧ c ≠ '"' := by simpa using h c (List.mem_cons_self ..)
    have hnone : literal? (c :: (rest ++ back)) = none := by
      simp [literal?, quoteMarks, List.isPrefixOf, Ne.symm hc.1, Ne.symm hc.2.1, Ne.symm hc.2.2]
    rw [List.cons_append, pieces_code hnone, ih (fun d hd => h d (List.mem_cons_of_mem _ hd))]
    rfl

/-- The pieces of a text are those of a literal and what follows it, or of a character and what
follows that. -/
theorem pieces_induction {motive : List Char → Prop} (nil : motive [])
    (literal : ∀ lit back, Delimited lit → pieces (lit ++ back) = .literal lit :: pieces back →
      motive back → motive (lit ++ back))
    (code : ∀ c rest, pieces (c :: rest) = .code c :: pieces rest → motive rest →
      motive (c :: rest))
    (text : List Char) : motive text := by
  induction text using pieces.induct with
  | case1 => exact nil
  | case2 c rest lit back h ih =>
    obtain ⟨htext, hlit⟩ := literal?_eq h
    have hpieces := pieces_literal h
    rw [htext] at hpieces ⊢
    exact literal lit back hlit hpieces ih
  | case3 c rest h ih => exact code c rest (pieces_code h) ih

theorem flatMap_pieces (text : List Char) : (pieces text).flatMap Piece.text = text := by
  induction text using pieces_induction with
  | nil => simp [pieces]
  | literal lit back _ heq ih => rw [heq, List.flatMap_cons, ih, Piece.text]
  | code c rest heq ih => rw [heq, List.flatMap_cons, ih, Piece.text, List.singleton_append]

/-- Pieces of which every literal is delimited. -/
def Piecewise (all : List Piece) : Prop := ∀ lit, .literal lit ∈ all → Delimited lit

theorem Piecewise.tail {piece : Piece} {more : List Piece} (h : Piecewise (piece :: more)) :
    Piecewise more := by
  intro lit hlit
  exact h lit (List.mem_cons_of_mem _ hlit)

theorem piecewise_pieces (text : List Char) : Piecewise (pieces text) := by
  induction text using pieces_induction with
  | nil => simp [Piecewise, pieces]
  | literal lit back hlit heq ih =>
    rw [heq]
    intro other hother
    rcases List.mem_cons.mp hother with hsame | hother
    · exact Piece.literal.inj hsame ▸ hlit
    · exact ih other hother
  | code c rest heq ih =>
    rw [heq]
    intro other hother
    rcases List.mem_cons.mp hother with hsame | hother
    · exact Piece.noConfusion hsame
    · exact ih other hother

/-- A text made of the same pieces with other white space between them. -/
inductive Respaced : List Piece → List Char → Prop
  | nil : Respaced [] []
  | literal (text : List Char) {more : List Piece} {rest : List Char} (h : Respaced more rest) :
      Respaced (.literal text :: more) (text ++ rest)
  | code {c : Char} (word : isBlank c = false) {more : List Piece} {rest : List Char}
      (h : Respaced more rest) : Respaced (.code c :: more) (c :: rest)
  | dropped {c : Char} (blank : isBlank c = true) {more : List Piece} {rest : List Char}
      (h : Respaced more rest) : Respaced (.code c :: more) rest
  | added {c : Char} (blank : isBlank c = true) {all : List Piece} {rest : List Char}
      (h : Respaced all rest) : Respaced all (c :: rest)

section Respacing
variable {all more : List Piece} {c : Char} {text rest blanks : List Char}

theorem Respaced.solid_eq (h : Respaced all text) :
    solid text = solid (all.flatMap Piece.text) := by
  induction h with
  | nil => rfl
  | literal lit h ih => rw [solid_append, ih, List.flatMap_cons, solid_append, Piece.text]
  | code word h ih =>
    rw [List.flatMap_cons, Piece.text, List.singleton_append, solid_cons, solid_cons, ih]
  | dropped blank h ih =>
    rw [List.flatMap_cons, Piece.text, List.singleton_append, solid_cons, if_pos blank, ih]
  | added blank h ih => rw [solid_cons, if_pos blank, ih]

private theorem Respaced.blanks_append (h : Respaced all text) (hblanks : Blanks blanks) :
    Respaced all (blanks ++ text) := by
  induction blanks with
  | nil => exact h
  | cons c more ih =>
    rw [blanks_cons_iff] at hblanks
    exact .added hblanks.1 (ih hblanks.2)

private theorem Respaced.append_blanks (h : Respaced all text) (hblanks : Blanks blanks) :
    Respaced all (text ++ blanks) := by
  induction h with
  | nil => exact List.append_nil blanks ▸ Respaced.nil.blanks_append hblanks
  | literal lit h ih =>
    rw [List.append_assoc]
    exact .literal lit ih
  | code word h ih => exact .code word ih
  | dropped blank h ih => exact .dropped blank ih
  | added blank h ih => exact .added blank ih

private theorem Respaced.of_blank_cons (h : Respaced all (c :: text)) (hall : Piecewise all)
    (hc : isBlank c) : Respaced all text := by
  generalize hwhole : c :: text = whole at h
  induction h with
  | nil => simp at hwhole
  | literal lit h ih =>
    obtain ⟨⟨d, more, rfl, hd, -⟩, -⟩ := hall lit (List.mem_cons_self ..)
    obtain ⟨rfl, -⟩ := List.cons.inj hwhole
    simp [hc] at hd
  | code word h ih =>
    obtain ⟨rfl, -⟩ := List.cons.inj hwhole
    simp [hc] at word
  | dropped blank h ih =>
    exact .dropped blank (ih hall.tail hwhole)
  | added blank h ih =>
    obtain ⟨-, rfl⟩ := List.cons.inj hwhole
    exact h

private theorem Respaced.of_append_blank (h : Respaced all (text ++ [c])) (hall : Piecewise all)
    (hc : isBlank c) : Respaced all text := by
  generalize hwhole : text ++ [c] = whole at h
  induction h generalizing text with
  | nil => simp at hwhole
  | @literal lit more rest h ih =>
    -- No literal ends with a blank, so the blank belongs to what follows it.
    obtain ⟨-, before, d, hlit, hd, -⟩ := hall lit (List.mem_cons_self ..)
    rcases List.eq_nil_or_concat rest with rfl | ⟨rest', last, rfl⟩
    · rw [List.append_nil, hlit] at hwhole
      obtain ⟨-, hsame⟩ := List.append_inj' hwhole rfl
      simp [← (List.cons.inj hsame).1, hc] at hd
    · rw [List.concat_eq_append, ← List.append_assoc] at hwhole
      obtain ⟨rfl, hsame⟩ := List.append_inj' hwhole rfl
      apply Respaced.literal
      apply ih hall.tail
      rw [hsame, List.concat_eq_append]
  | code word h ih =>
    cases text with
    | nil =>
      obtain ⟨rfl, -⟩ := List.cons.inj hwhole
      simp [hc] at word
    | cons d text =>
      obtain ⟨rfl, hrest⟩ := List.cons.inj hwhole
      exact .code word (ih hall.tail hrest)
  | dropped blank h ih =>
    exact .dropped blank (ih hall.tail hwhole)
  | added blank h ih =>
    cases text with
    | nil =>
      obtain ⟨-, rfl⟩ := List.cons.inj hwhole
      exact h
    | cons d text =>
      obtain ⟨rfl, hrest⟩ := List.cons.inj hwhole
      exact .added blank (ih hall hrest)

theorem respaced_blanks_append (hall : Piecewise all) (hblanks : Blanks blanks) :
    Respaced all (blanks ++ text) ↔ Respaced all text := by
  refine ⟨fun h => ?_, fun h => h.blanks_append hblanks⟩
  induction blanks with
  | nil => exact h
  | cons c more ih =>
    rw [blanks_cons_iff] at hblanks
    exact ih hblanks.2 (h.of_blank_cons hall hblanks.1)

theorem respaced_append_blanks (hall : Piecewise all) (hblanks : Blanks blanks) :
    Respaced all (text ++ blanks) ↔ Respaced all text := by
  refine ⟨fun h => ?_, fun h => h.append_blanks hblanks⟩
  induction blanks using List.reverseRecOn with
  | nil => exact List.append_nil text ▸ h
  | append_singleton more c ih =>
    rw [← List.append_assoc] at h
    apply ih (fun d hd => hblanks d (List.mem_append_left _ hd))
    exact h.of_append_blank hall (hblanks c (by simp))

theorem respaced_blank (hc : isBlank c) : Respaced (.code c :: all) text ↔ Respaced all text := by
  refine ⟨fun h => ?_, .dropped hc⟩
  generalize hwhole : Piece.code c :: all = whole at h
  induction h with
  | nil => simp at hwhole
  | literal lit h ih => simp at hwhole
  | code word h ih =>
    obtain ⟨hsame, -⟩ := List.cons.inj hwhole
    simp [← Piece.code.inj hsame, hc] at word
  | dropped blank h ih =>
    obtain ⟨-, rfl⟩ := List.cons.inj hwhole
    exact h
  | added blank h ih => exact .added blank (ih hwhole)

theorem respaced_word (hc : isBlank c = false) :
    Respaced (.code c :: all) (c :: text) ↔ Respaced all text := by
  refine ⟨fun h => ?_, .code hc⟩
  cases h with
  | code word h => exact h
  | dropped blank h => simp [hc] at blank
  | added blank h => simp [hc] at blank

private theorem eq_nil_of_solid_eq {first more : List Char} (h : Delimited (first ++ more))
    (hsolid : solid (first ++ more) = solid first) : more = [] := by
  rw [solid_append, List.append_right_eq_self] at hsolid
  rcases List.eq_nil_or_concat more with rfl | ⟨before, last, rfl⟩
  · rfl
  · rw [List.concat_eq_append] at h hsolid
    obtain ⟨-, rest, c, heq, hc, -⟩ := h
    rw [← List.append_assoc] at heq
    obtain ⟨-, hsame⟩ := List.append_inj' heq rfl
    rw [hsame, solid_append, solid_cons, hc] at hsolid
    simp at hsolid

private theorem eq_of_solid_eq {first second rest rest' : List Char}
    (hsolid : solid first = solid second) (hfirst : Delimited first) (hsecond : Delimited second)
    (h : first ++ rest = second ++ rest') : first = second ∧ rest = rest' := by
  rcases List.append_eq_append_iff.mp h with ⟨more, rfl, rfl⟩ | ⟨more, rfl, rfl⟩
  · obtain rfl := eq_nil_of_solid_eq hsecond hsolid.symm
    simp
  · obtain rfl := eq_nil_of_solid_eq hfirst hsolid
    simp

theorem respaced_literal {lit laid : List Char} (hlit : Delimited lit) (hlaid : Delimited laid)
    (hsolid : solid laid = solid lit) :
    Respaced (.literal lit :: all) (laid ++ text) ↔ laid = lit ∧ Respaced all text := by
  constructor
  · intro h
    generalize hwhole : laid ++ text = whole at h
    cases h with
    | literal _ h =>
      obtain ⟨hsame, rfl⟩ := eq_of_solid_eq hsolid hlaid hlit hwhole
      exact ⟨hsame, h⟩
    | added blank h =>
      obtain ⟨c, rest, rfl, hc, -⟩ := hlaid.begins
      obtain ⟨rfl, -⟩ := List.cons.inj hwhole
      simp [hc] at blank
  · rintro ⟨rfl, h⟩
    exact .literal laid h

end Respacing

/-- The spacing of annotations: a single space follows a comma and stands on both sides of a bar,
and further single spaces stand between words only. -/
inductive WellSpaced : (afterTight : Bool) → List Char → Prop
  | nil {afterTight : Bool} : WellSpaced afterTight []
  | bracket {afterTight : Bool} {c : Char} {rest : List Char} (h : c ∈ "[]()".toList)
      (more : WellSpaced true rest) : WellSpaced afterTight (c :: rest)
  | comma {afterTight : Bool} {rest : List Char} (more : WellSpaced true rest) :
      WellSpaced afterTight (',' :: ' ' :: rest)
  | bar {afterTight : Bool} {rest : List Char} (more : WellSpaced true rest) :
      WellSpaced afterTight (' ' :: '|' :: ' ' :: rest)
  | word {afterTight : Bool} {c : Char} {rest : List Char} (h : isBlank c = false)
      (loose : c ∉ "[](),|".toList) (more : WellSpaced false rest) :
      WellSpaced afterTight (c :: rest)
  | gap {c : Char} {rest : List Char} (h : isBlank c = false) (loose : c ∉ "[](),|".toList)
      (more : WellSpaced false rest) : WellSpaced false (' ' :: c :: rest)

private theorem isTight_false_iff {c : Char} : isTight c = false ↔ c ∉ "[](),|".toList := by
  rw [← isTight_iff, Bool.not_eq_true]

private theorem bracket_iff {c : Char} :
    c ∈ "[]()".toList ↔ isTight c = true ∧ spaced c = [c] := by
  constructor
  · intro h
    have hall : "[]()".toList.all fun c => isTight c && spaced c == [c] := by decide
    simpa using List.all_eq_true.mp hall c h
  · rintro ⟨htight, hspaced⟩
    have hall :
        "[](),|".toList.all fun c => spaced c != [c] || "[]()".toList.contains c := by decide
    have hc := List.all_eq_true.mp hall c (isTight_iff.mp htight)
    rw [hspaced] at hc
    simpa using hc

private theorem spaced_loose {c : Char} (h : isTight c = false) : spaced c = [c] := by
  rcases spaced_cases c with ⟨rfl, -⟩ | ⟨rfl, -⟩ | heq
  · exact absurd h (by decide)
  · exact absurd h (by decide)
  · exact heq

private theorem exists_spaced (c : Char) :
    ∃ front, Blanks front ∧ ∃ back, Blanks back ∧ spaced c = front ++ c :: back := by
  rcases spaced_cases c with ⟨rfl, heq⟩ | ⟨rfl, heq⟩ | heq
  · exact ⟨[], .nil, [' '], .space, heq⟩
  · exact ⟨[' '], .space, [' '], .space, heq⟩
  · exact ⟨[], .nil, [], .nil, heq⟩

theorem wellSpaced_layout (gap afterTight : Bool) (text : List Char) :
    WellSpaced afterTight (layout gap afterTight text) := by
  induction text generalizing gap afterTight with
  | nil => exact .nil
  | cons c rest ih =>
    cases hc : isBlank c with
    | true =>
      rw [layout_blank hc]
      exact ih true afterTight
    | false =>
      rw [layout_word hc]
      cases htight : isTight c with
      | true =>
        have hrest := ih false true
        rw [spaceBefore_tight _ _ htight, List.nil_append]
        rcases spaced_cases c with ⟨rfl, heq⟩ | ⟨rfl, heq⟩ | heq
        · rw [heq]
          exact .comma hrest
        · rw [heq]
          exact .bar hrest
        · rw [heq]
          exact .bracket (bracket_iff.mpr ⟨htight, heq⟩) hrest
      | false =>
        have hrest := ih false false
        have hloose := isTight_false_iff.mp htight
        rw [spaced_loose htight]
        by_cases hspace : gap = true ∧ afterTight = false
        · obtain ⟨rfl, rfl⟩ := hspace
          rw [spaceBefore_loose htight]
          exact .gap hc hloose hrest
        · have hnone : spaceBefore gap afterTight c = [] := by
            rw [spaceBefore, if_neg]
            intro hall
            simp only [Bool.and_eq_true, Bool.not_eq_true'] at hall
            exact hspace hall.1
          rw [hnone]
          exact .word hc hloose hrest

/-- A text is spaced as annotations are if laying it out changes nothing. -/
theorem wellSpaced_iff {afterTight : Bool} {text : List Char} :
    WellSpaced afterTight text ↔ layout false afterTight text = text := by
  refine ⟨fun h => ?_, fun h => h ▸ wellSpaced_layout false afterTight text⟩
  have hspace : isBlank ' ' := by decide
  induction h with
  | nil => rfl
  | bracket h more ih =>
    obtain ⟨htight, hspaced⟩ := bracket_iff.mp h
    rw [layout_word (not_isBlank_of_isTight htight), hspaced, htight, ih]
    rfl
  | comma more ih =>
    have htight : isTight ',' = true := by decide
    rw [layout_word (not_isBlank_of_isTight htight), htight, layout_blank hspace, layout_afterTight,
      ih]
    rfl
  | bar more ih =>
    have htight : isTight '|' = true := by decide
    rw [layout_blank hspace, layout_word (not_isBlank_of_isTight htight),
      spaceBefore_tight _ _ htight,
      htight, layout_blank hspace, layout_afterTight, ih]
    rfl
  | word h loose more ih =>
    have htight := isTight_false_iff.mpr loose
    rw [layout_word h, htight, spaced_loose htight, ih]
    rfl
  | gap h loose more ih =>
    have htight := isTight_false_iff.mpr loose
    rw [layout_blank hspace, layout_word h, htight, spaced_loose htight,
      spaceBefore_loose htight, ih]
    rfl

/-- A literal is laid out by itself, whatever stands around it. -/
theorem layout_literal {lit : List Char} (hlit : Delimited lit) (gap afterTight : Bool)
    (back : List Char) :
    ∃ front, Blanks front ∧ layout gap afterTight (lit ++ back) =
      front ++ (layout false false lit ++ layout false false back) := by
  have hlast : layout gap afterTight (lit ++ back) =
      layout gap afterTight lit ++ layout false false back := by
    obtain ⟨before, d, rfl, hd, hloose⟩ := hlit.ends
    rw [layout, List.append_assoc, List.singleton_append, squeeze_append hd, hloose,
      List.flatMap_append, layout, layout]
  obtain ⟨c, more, rfl, hc, -⟩ := hlit.begins
  refine ⟨spaceBefore gap afterTight c, spaceBefore_blanks gap afterTight c, ?_⟩
  rw [hlast, layout_word hc, layout_word hc, spaceBefore_noGap, List.nil_append,
    List.append_assoc]

theorem delimited_layout {lit : List Char} (hlit : Delimited lit) :
    Delimited (layout false false lit) := by
  constructor
  · obtain ⟨c, rest, rfl, hc, hloose⟩ := hlit.begins
    refine ⟨c, layout false false rest, ?_, hc, hloose⟩
    rw [layout_word hc, spaced_loose hloose, hloose]
    rfl
  · obtain ⟨before, c, rfl, hc, hloose⟩ := hlit.ends
    obtain ⟨gap, -, heq⟩ := squeeze_end hc false false before
    refine ⟨(squeeze false false before ++ gap).flatMap spaced, c, ?_, hc, hloose⟩
    rw [layout, heq, List.flatMap_append, List.flatMap_singleton, spaced_loose hloose]

def LiteralsWellSpaced (text : List Char) : Prop :=
  ∀ lit, .literal lit ∈ pieces text → WellSpaced false lit

/-- Laying a text out respaces it if it leaves the literals alone. -/
theorem respaced_layout_iff (gap afterTight : Bool) (text : List Char) :
    Respaced (pieces text) (layout gap afterTight text) ↔ LiteralsWellSpaced text := by
  induction text using pieces_induction generalizing gap afterTight with
  | nil => simp [LiteralsWellSpaced, pieces, layout, squeeze, Respaced.nil]
  | literal lit back hlit heq ih =>
    have hall := piecewise_pieces (lit ++ back)
    rw [heq] at hall
    obtain ⟨front, hfront, hlayout⟩ := layout_literal hlit gap afterTight back
    rw [LiteralsWellSpaced, heq, hlayout, respaced_blanks_append hall hfront,
      respaced_literal hlit (delimited_layout hlit) (solid_layout ..), ih]
    simp [LiteralsWellSpaced, wellSpaced_iff]
  | code c rest heq ih =>
    have hall := piecewise_pieces rest
    rw [LiteralsWellSpaced, heq]
    cases hc : isBlank c with
    | true =>
      rw [layout_blank hc, respaced_blank hc, ih]
      simp [LiteralsWellSpaced]
    | false =>
      obtain ⟨front, hfront, more, hmore, hspaced⟩ := exists_spaced c
      have hall' : Piecewise (.code c :: pieces rest) := by
        simpa [Piecewise] using hall
      rw [layout_word hc, hspaced, respaced_blanks_append hall' (spaceBefore_blanks _ _ c),
        List.append_assoc, respaced_blanks_append hall' hfront, List.cons_append, respaced_word hc,
        respaced_blanks_append hall hmore, ih]
      simp [LiteralsWellSpaced]

/-- A text that is one string literal, delimited by single or by double quotes, and what stands
between the quotes. -/
def PlainLiteral (text inside : List Char) : Prop :=
  ∃ quote, (quote = '\'' ∨ quote = '"') ∧ text = quote :: (inside ++ [quote]) ∧
    closed [quote] (inside ++ [quote]) = some (inside ++ [quote], [])

/-- The normal form of an annotation has the annotation's meaning: but for the quotes of a forward
reference, it differs in nothing but white space outside string literals. -/
structure KeepsMeaning (raw : String) : Prop where
  quoted : ∀ inside, PlainLiteral (trim raw.toList) inside →
    Respaced (pieces inside) (normalize raw).toList
  other : (∀ inside, ¬PlainLiteral (trim raw.toList) inside) →
    Respaced (pieces raw.toList) (normalize raw).toList

private theorem respaced_normalize {raw : String} {text : List Char}
    (h : (normalize raw).toList = trim (layout false true text)) :
    Respaced (pieces text) (normalize raw).toList ↔ LiteralsWellSpaced text := by
  have hall := piecewise_pieces text
  obtain ⟨front, back, hfront, hback, heq⟩ := exists_trim (layout false true text)
  rw [← respaced_layout_iff false true, heq, ← h, List.append_assoc,
    respaced_blanks_append hall hfront, respaced_append_blanks hall hback]

theorem PlainLiteral.quoted {text inside : List Char} (h : PlainLiteral text inside) :
    Quoted text inside := by
  obtain ⟨quote, hquote, htext, -⟩ := h
  exact ⟨quote, hquote, htext⟩

private theorem not_respaced_of_quoted {raw : String} {inside : List Char}
    (h : Quoted (trim raw.toList) inside) :
    ¬Respaced (pieces raw.toList) (normalize raw).toList := by
  intro hsame
  have hsolid := hsame.solid_eq
  rw [flatMap_pieces, normalize_of_quoted h, solid_trim, solid_layout,
    ← solid_trim raw.toList] at hsolid
  obtain ⟨quote, hquote, htext⟩ := h
  rw [htext, solid_cons, not_isBlank_of_quote hquote, solid_append] at hsolid
  have hlength := congrArg List.length hsolid
  simp only [Bool.false_eq_true, if_false, List.length_cons, List.length_append] at hlength
  omega

theorem KeepsMeaning.plainLiteral {raw : String} {inside : List Char} (h : KeepsMeaning raw)
    (hquoted : Quoted (trim raw.toList) inside) : PlainLiteral (trim raw.toList) inside := by
  by_contra hnot
  apply not_respaced_of_quoted hquoted
  apply h.other
  intro other hother
  exact hnot (hquoted.eq hother.quoted ▸ hother)

theorem KeepsMeaning.literalsWellSpaced {raw : String} (h : KeepsMeaning raw)
    (hnot : ∀ inside, ¬Quoted (trim raw.toList) inside) : LiteralsWellSpaced raw.toList := by
  apply (respaced_normalize (normalize_of_unquoted hnot)).mp
  apply h.other
  intro inside hplain
  exact hnot inside hplain.quoted

/-- Meaning is kept exactly if quotes at both ends of the text are those of one literal and every
literal that stays is spaced as normal forms are. -/
theorem keepsMeaning_iff (raw : String) :
    KeepsMeaning raw ↔
      (∀ inside, Quoted (trim raw.toList) inside →
        PlainLiteral (trim raw.toList) inside ∧ LiteralsWellSpaced inside) ∧
      ((∀ inside, ¬Quoted (trim raw.toList) inside) → LiteralsWellSpaced raw.toList) := by
  constructor
  · intro h
    refine ⟨fun inside hquoted => ?_, h.literalsWellSpaced⟩
    have hplain := h.plainLiteral hquoted
    exact ⟨hplain, (respaced_normalize (normalize_of_quoted hquoted)).mp (h.quoted inside hplain)⟩
  · rintro ⟨hquoted, hunquoted⟩
    constructor
    · intro inside hplain
      have hspaced := (hquoted inside hplain.quoted).2
      exact (respaced_normalize (normalize_of_quoted hplain.quoted)).mpr hspaced
    · intro hnone
      have hnot : ∀ inside, ¬Quoted (trim raw.toList) inside := by
        intro inside h
        exact hnone inside (hquoted inside h).1
      exact (respaced_normalize (normalize_of_unquoted hnot)).mpr (hunquoted hnot)

/-- Of a union of two forward references the outer quotes are dropped, and a comma inside a literal
is spaced. -/
theorem meaning_lost : ¬KeepsMeaning "\"A\" | \"B\"" ∧ ¬KeepsMeaning "Literal[\"a,b\"]" := by
  constructor
  · intro h
    have hquoted : Quoted (trim "\"A\" | \"B\"".toList) "A\" | \"B".toList :=
      ⟨'"', .inr rfl, by decide⟩
    obtain ⟨quote, -, htext, hclosed⟩ := h.plainLiteral hquoted
    obtain rfl : quote = '"' := by
      rw [show trim "\"A\" | \"B\"".toList = '"' :: "A\" | \"B\"".toList by decide] at htext
      exact (List.cons.inj htext).1.symm
    exact absurd hclosed (by decide)
  · intro h
    have hnot : ∀ inside, ¬Quoted (trim "Literal[\"a,b\"]".toList) inside := by
      rintro inside ⟨quote, hquote, htext⟩
      rw [show trim "Literal[\"a,b\"]".toList = 'L' :: "iteral[\"a,b\"]".toList by decide] at htext
      obtain rfl := (List.cons.inj htext).1
      simp at hquote
    have hplain : ∀ c ∈ "Literal[".toList, c ∉ "\\'\"".toList := by simp
    have hpieces : pieces "Literal[\"a,b\"]".toList =
        "Literal[".toList.map .code ++ pieces "\"a,b\"]".toList :=
      pieces_append hplain _
    have hliteral : pieces "\"a,b\"]".toList = .literal "\"a,b\"".toList :: pieces "]".toList :=
      pieces_literal (by decide)
    have hmem : .literal "\"a,b\"".toList ∈ pieces "Literal[\"a,b\"]".toList := by
      rw [hpieces, hliteral]
      exact List.mem_append_right _ (List.mem_cons_self ..)
    exact absurd (wellSpaced_iff.mp (h.literalsWellSpaced hnot _ hmem)) (by decide)

end ElementBinding.TypeHint
