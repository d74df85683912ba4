import ElementBinding.Proofs.Text.Blank
import ElementBinding.TypeHint

/-!
# The spacing of annotations

The normal form of an annotation is a function of its squeezed text, in which a single space stands
between two words and no other white space is left. Squeezing does not see how a text is laid out,
so normal forms depend on no layout: not on line breaks, not on what stands beside brackets, commas
and bars.
-/
namespace ElementBinding.TypeHint
open ElementBinding.Text

theorem isTight_iff {c : Char} : isTight c = true ↔ c ∈ "[](),|".toList := by
  simp [isTight, or_assoc]

theorem not_isBlank_of_isTight {c : Char} (h : isTight c) : isBlank c = false := by
  have hall : "[](),|".toList.all (!isBlank ·) := by decide
  simpa using List.all_eq_true.mp hall c (isTight_iff.mp h)

/-- The space before a word: one if white space was passed and neither the character passed before
it nor the word itself is tight. -/
def spaceBefore (gap afterTight : Bool) (c : Char) : List Char :=
  if gap && !afterTight && !isTight c then [' '] else []

/-- A text whose gaps between words are single spaces and that has no others. The flags tell whether
white space was passed since the last word, and whether that was a tight character. -/
def squeeze : (gap afterTight : Bool) → List Char → List Char
  | _, _, [] => []
  | gap, afterTight, c :: rest =>
    if isBlank c then squeeze true afterTight rest
    else spaceBefore gap afterTight c ++ c :: squeeze false (isTight c) rest

/-- A text laid out as annotations are. -/
def layout (gap afterTight : Bool) (text : List Char) : List Char :=
  (squeeze gap afterTight text).flatMap spaced

section SpaceBefore
variable (gap afterTight : Bool) (c : Char)

theorem spaceBefore_blanks : Blanks (spaceBefore gap afterTight c) := by
  unfold spaceBefore
  split
  · exact .space
  · exact .nil

@[simp] theorem spaceBefore_noGap : spaceBefore false afterTight c = [] := rfl

@[simp] theorem spaceBefore_afterTight : spaceBefore gap true c = [] := by simp [spaceBefore]

theorem spaceBefore_tight {c : Char} (h : isTight c) : spaceBefore gap afterTight c = [] := by
  simp [spaceBefore, h]

theorem spaceBefore_loose {c : Char} (h : isTight c = false) :
    spaceBefore true false c = [' '] := by
  simp [spaceBefore, h]

end SpaceBefore

section Squeezing
variable {gap afterTight : Bool} {c : Char} {rest blanks front back : List Char}

theorem squeeze_blank (h : isBlank c) :
    squeeze gap afterTight (c :: rest) = squeeze true afterTight rest := by
  rw [squeeze, if_pos h]

theorem squeeze_word (h : isBlank c = false) :
    squeeze gap afterTight (c :: rest) =
      spaceBefore gap afterTight c ++ c :: squeeze false (isTight c) rest := by
  rw [squeeze, if_neg (by simp [h])]

/-- Gaps beside a tight character do not show. -/
theorem squeeze_afterTight (gap : Bool) (text : List Char) :
    squeeze gap true text = squeeze false true text := by
  cases text with
  | nil => rfl
  | cons c rest => simp [squeeze]

theorem squeeze_blanks (h : Blanks blanks) (hne : blanks ≠ []) :
    squeeze gap afterTight (blanks ++ rest) = squeeze true afterTight rest := by
  induction blanks generalizing gap with
  | nil => exact absurd rfl hne
  | cons c more ih =>
    rw [blanks_cons_iff] at h
    rw [List.cons_append, squeeze_blank h.1]
    by_cases hmore : more = []
    · rw [hmore, List.nil_append]
    · exact ih h.2 hmore

theorem squeeze_tight_blanks (h : Blanks blanks) :
    squeeze gap true (blanks ++ rest) = squeeze gap true rest := by
  by_cases hne : blanks = []
  · rw [hne, List.nil_append]
  · rw [squeeze_blanks h hne, squeeze_afterTight, squeeze_afterTight gap]

theorem squeeze_append_blanks (h : Blanks blanks) (text : List Char) :
    squeeze gap afterTight (text ++ blanks) = squeeze gap afterTight text := by
  induction text generalizing gap afterTight with
  | nil =>
    by_cases hne : blanks = []
    · rw [hne, List.nil_append]
    · have hnone : squeeze gap afterTight (blanks ++ []) = squeeze true afterTight [] :=
        squeeze_blanks h hne
      rw [List.append_nil] at hnone
      exact hnone
  | cons c rest ih => simp [squeeze, ih]

theorem squeeze_trim (text : List Char) :
    squeeze false true (trim text) = squeeze false true text := by
  obtain ⟨front, back, hfront, hback, htext⟩ := exists_trim text
  conv_rhs => rw [htext, squeeze_append_blanks hback, squeeze_tight_blanks hfront]

theorem squeeze_append (h : isBlank c = false) (front back : List Char) :
    squeeze gap afterTight (front ++ c :: back) =
      squeeze gap afterTight (front ++ [c]) ++ squeeze false (isTight c) back := by
  induction front generalizing gap afterTight with
  | nil => simp [squeeze, h]
  | cons d rest ih =>
    cases hd : isBlank d with
    | true => rw [List.cons_append, List.cons_append, squeeze_blank hd, squeeze_blank hd, ih]
    | false =>
      rw [List.cons_append, List.cons_append, squeeze_word hd, squeeze_word hd, ih,
        List.append_assoc, List.cons_append]

/-- Texts that are squeezed alike are squeezed alike behind others. -/
theorem squeeze_congr {first second : List Char}
    (h : ∀ gap afterTight, squeeze gap afterTight first = squeeze gap afterTight second)
    (front : List Char) :
    squeeze gap afterTight (front ++ first) = squeeze gap afterTight (front ++ second) := by
  induction front generalizing gap afterTight with
  | nil => exact h gap afterTight
  | cons c rest ih => simp [squeeze, ih]

/-- At the beginning of a text no gap shows. -/
theorem squeeze_beginning (gap afterTight : Bool) (text : List Char) :
    ∃ front, Blanks front ∧ squeeze gap afterTight text = front ++ squeeze false true text := by
  induction text generalizing gap afterTight with
  | nil => exact ⟨[], .nil, rfl⟩
  | cons c rest ih =>
    cases hc : isBlank c with
    | true =>
      rw [squeeze_blank hc, squeeze_blank hc, squeeze_afterTight]
      exact ih true afterTight
    | false =>
      rw [squeeze_word hc, squeeze_word hc]
      exact ⟨_, spaceBefore_blanks gap afterTight c, rfl⟩

theorem squeeze_end (h : isBlank c = false) (gap afterTight : Bool) (text : List Char) :
    ∃ back, Blanks back ∧
      squeeze gap afterTight (text ++ [c]) = squeeze gap afterTight text ++ back ++ [c] := by
  induction text generalizing gap afterTight with
  | nil =>
    refine ⟨_, spaceBefore_blanks gap afterTight c, ?_⟩
    rw [List.nil_append, squeeze_word h]
    rfl
  | cons d rest ih =>
    cases hd : isBlank d with
    | true =>
      rw [List.cons_append, squeeze_blank hd, squeeze_blank hd]
      exact ih true afterTight
    | false =>
      obtain ⟨back, hback, heq⟩ := ih false (isTight d)
      refine ⟨back, hback, ?_⟩
      rw [List.cons_append, squeeze_word hd, squeeze_word hd, heq]
      simp only [List.append_assoc, List.cons_append]

theorem mem_squeeze (h : c ∈ squeeze gap afterTight rest) : isBlank c = false ∨ c = ' ' := by
  induction rest generalizing gap afterTight with
  | nil => simp [squeeze] at h
  | cons d rest ih =>
    cases hd : isBlank d with
    | true =>
      rw [squeeze_blank hd] at h
      exact ih h
    | false =>
      rw [squeeze_word hd, List.mem_append, List.mem_cons] at h
      rcases h with h | rfl | h
      · right
        unfold spaceBefore at h
        split at h
        · exact List.mem_singleton.mp h
        · simp at h
      · exact .inl hd
      · exact ih h

private theorem squeeze_last (h : (squeeze gap afterTight rest).getLast? = some c) :
    isBlank c = false := by
  induction rest generalizing gap afterTight c with
  | nil => simp [squeeze] at h
  | cons d rest ih =>
    cases hd : isBlank d with
    | true =>
      rw [squeeze_blank hd] at h
      exact ih h
    | false =>
      rw [squeeze_word hd, List.getLast?_append, List.getLast?_cons] at h
      cases hmore : (squeeze false (isTight d) rest).getLast? with
      | none =>
        simp only [hmore, Option.getD_none, Option.some_or, Option.some.injEq] at h
        exact h ▸ hd
      | some e =>
        simp only [hmore, Option.getD_some, Option.some_or, Option.some.injEq] at h
        exact h ▸ ih hmore

theorem squeeze_trimmed (text : List Char) : Trimmed (squeeze false true text) := by
  constructor
  · intro c hc
    induction text with
    | nil => simp [squeeze] at hc
    | cons d rest ih =>
      cases hd : isBlank d with
      | true =>
        rw [squeeze_blank hd, squeeze_afterTight] at hc
        exact ih hc
      | false =>
        rw [squeeze_word hd] at hc
        obtain rfl : d = c := by simpa using hc
        exact hd
  · intro c hc
    exact squeeze_last hc

@[simp] theorem solid_squeeze (gap afterTight : Bool) (text : List Char) :
    solid (squeeze gap afterTight text) = solid text := by
  induction text generalizing gap afterTight with
  | nil => rfl
  | cons c rest ih =>
    cases hc : isBlank c with
    | true => rw [squeeze_blank hc, ih, solid_cons, if_pos hc]
    | false =>
      rw [squeeze_word hc, solid_append, (spaceBefore_blanks gap afterTight c).solid_eq,
        List.nil_append, solid_cons, solid_cons, ih]

end Squeezing

section Layout
variable {gap afterTight : Bool} {c : Char} {rest : List Char}

theorem spaced_cases (c : Char) :
    c = ',' ∧ spaced c = [',', ' '] ∨ c = '|' ∧ spaced c = [' ', '|', ' '] ∨ spaced c = [c] := by
  unfold spaced
  split
  · exact .inl ⟨‹_›, rfl⟩
  · split
    · exact .inr (.inl ⟨‹_›, rfl⟩)
    · exact .inr (.inr rfl)

theorem layout_blank (h : isBlank c) :
    layout gap afterTight (c :: rest) = layout true afterTight rest := by
  rw [layout, squeeze_blank h, layout]

theorem layout_afterTight (gap : Bool) (text : List Char) :
    layout gap true text = layout false true text := by
  rw [layout, squeeze_afterTight, layout]

theorem layout_word (h : isBlank c = false) :
    layout gap afterTight (c :: rest) =
      spaceBefore gap afterTight c ++ (spaced c ++ layout false (isTight c) rest) := by
  have hspace : (spaceBefore gap afterTight c).flatMap spaced = spaceBefore gap afterTight c := by
    unfold spaceBefore
    split
    · decide
    · rfl
  rw [layout, squeeze_word h, List.flatMap_append, hspace, List.flatMap_cons, layout]

@[simp] theorem solid_spaced (c : Char) : solid (spaced c) = solid [c] := by
  rcases spaced_cases c with ⟨rfl, -⟩ | ⟨rfl, -⟩ | heq
  · decide
  · decide
  · rw [heq]

@[simp] theorem solid_layout (gap afterTight : Bool) (text : List Char) :
    solid (layout gap afterTight text) = solid text := by
  induction text generalizing gap afterTight with
  | nil => rfl
  | cons c rest ih =>
    cases hc : isBlank c with
    | true => rw [layout_blank hc, ih, solid_cons, if_pos hc]
    | false =>
      rw [layout_word hc, solid_append, solid_append, solid_spaced, ih,
        (spaceBefore_blanks gap afterTight c).solid_eq, List.nil_append, ← solid_append,
        List.singleton_append]

/-- The spaces beside commas and bars are squeezed out again. -/
theorem squeeze_spaced (h : isBlank c = false) (gap afterTight : Bool) (more : List Char) :
    squeeze gap afterTight (spaced c ++ more) =
      spaceBefore gap afterTight c ++ c :: squeeze false (isTight c) more := by
  have hspace : isBlank ' ' := by decide
  rcases spaced_cases c with ⟨rfl, heq⟩ | ⟨rfl, heq⟩ | heq
  · have htight : isTight ',' = true := by decide
    rw [heq, List.cons_append, squeeze_word h, htight, List.singleton_append, squeeze_blank hspace,
      squeeze_afterTight]
  · have htight : isTight '|' = true := by decide
    rw [heq, List.cons_append, List.cons_append, squeeze_blank hspace, squeeze_word h,
      spaceBefore_tight _ _ htight, spaceBefore_tight _ _ htight, htight, List.singleton_append,
      squeeze_blank hspace, squeeze_afterTight]
  · rw [heq, List.singleton_append, squeeze_word h]

/-- Laying a text out does not change how it is squeezed. -/
theorem squeeze_layout (gap afterTight : Bool) (text : List Char) :
    squeeze false afterTight (layout gap afterTight text) = squeeze gap afterTight text := by
  induction text generalizing gap afterTight with
  | nil => rfl
  | cons c rest ih =>
    cases hc : isBlank c with
    | true =>
      rw [layout_blank hc, squeeze_blank hc]
      exact ih true afterTight
    | false =>
      rw [layout_word hc, squeeze_word hc]
      by_cases hnone : spaceBefore gap afterTight c = []
      · rw [hnone, List.nil_append, squeeze_spaced hc, ih]
        rfl
      · -- The space in front is passed as a gap, which shows before the same word.
        have hgap : gap = true ∧ afterTight = false ∧ isTight c = false := by
          by_contra hnot
          apply hnone
          rw [spaceBefore, if_neg]
          simpa [and_assoc] using hnot
        obtain ⟨rfl, rfl, hloose⟩ := hgap
        rw [spaceBefore_loose hloose, List.singleton_append, squeeze_blank (by decide),
          squeeze_spaced hc, ih, spaceBefore_loose hloose]

theorem squeeze_trim_layout (text : List Char) :
    squeeze false true (trim (layout false true text)) = squeeze false true text := by
  rw [squeeze_trim, squeeze_layout]

theorem mem_layout (h : c ∈ layout gap afterTight rest) : isBlank c = false ∨ c = ' ' := by
  obtain ⟨d, hd, hspaced⟩ := List.mem_flatMap.mp h
  rcases spaced_cases d with ⟨-, heq⟩ | ⟨-, heq⟩ | heq
  · simp only [heq, List.mem_cons, List.not_mem_nil, or_false] at hspaced
    rcases hspaced with rfl | rfl
    · exact .inl (by decide)
    · exact .inr rfl
  · simp only [heq, List.mem_cons, List.not_mem_nil, or_false] at hspaced
    rcases hspaced with rfl | rfl | rfl
    · exact .inr rfl
    · exact .inl (by decide)
    · exact .inr rfl
  · rw [heq, List.mem_singleton] at hspaced
    exact hspaced ▸ mem_squeeze hd

end Layout

private theorem tighten_word {c : Char} (h : isBlank c = false) (afterTight : Bool)
    (rest : List Char) : tighten afterTight (c :: rest) = c :: tighten (isTight c) rest := by
  have hne : c ≠ ' ' := by
    rintro rfl
    exact absurd h (by decide)
  cases rest <;> simp [tighten, hne]

private theorem tighten_space (afterTight : Bool) (c : Char) (rest : List Char) :
    tighten afterTight (' ' :: c :: rest) =
      if afterTight || isTight c then tighten false (c :: rest)
      else ' ' :: tighten false (c :: rest) := by
  simp [tighten, show isTight ' ' = false by decide]

/-- Collapsing and tightening a trimmed text squeezes it. -/
private theorem tighten_collapse {text : List Char}
    (h : ∀ c, text.getLast? = some c → isBlank c = false) (afterTight : Bool) :
    tighten afterTight (collapse false text) = squeeze false afterTight text ∧
      (text ≠ [] → tighten afterTight (' ' :: collapse true text) =
        squeeze true afterTight text) := by
  induction text generalizing afterTight with
  | nil => exact ⟨rfl, fun hne => absurd rfl hne⟩
  | cons c rest ih =>
    have hrest : ∀ d, rest.getLast? = some d → isBlank d = false := by
      intro d hd
      exact h d (by rw [List.getLast?_cons, hd]; rfl)
    cases hc : isBlank c with
    | true =>
      have hne : rest ≠ [] := by
        rintro rfl
        simp [h c rfl] at hc
      have hgap := (ih hrest afterTight).2 hne
      rw [squeeze_blank hc, squeeze_blank hc, collapse, if_pos hc, collapse, if_pos hc]
      exact ⟨hgap, fun _ => hgap⟩
    | false =>
      have hmore := (ih hrest (isTight c)).1
      have hfirst (afterBlank : Bool) :
          collapse afterBlank (c :: rest) = c :: collapse false rest := by
        rw [collapse, if_neg (by simp [hc])]
      rw [squeeze_word hc, squeeze_word hc, hfirst, hfirst]
      refine ⟨?_, fun _ => ?_⟩
      · rw [tighten_word hc, hmore]
        rfl
      · rw [tighten_space, tighten_word hc, hmore, spaceBefore]
        generalize squeeze false (isTight c) rest = more
        cases afterTight <;> cases isTight c <;> rfl

/-- A text with the same quote at its two ends, and what stands between them. -/
def Quoted (text inside : List Char) : Prop :=
  ∃ quote, (quote = '\'' ∨ quote = '"') ∧ text = quote :: (inside ++ [quote])

theorem not_isBlank_of_quote {c : Char} (h : c = '\'' ∨ c = '"') : isBlank c = false := by
  rcases h with rfl | rfl <;> decide

theorem Quoted.eq {text inside other : List Char} (h : Quoted text inside)
    (h' : Quoted text other) : inside = other := by
  obtain ⟨quote, -, rfl⟩ := h
  obtain ⟨_, -, heq⟩ := h'
  exact (List.append_inj' (List.cons.inj heq).2 rfl).1

private theorem unquote_of_quoted {text inside : List Char} (h : Quoted text inside) :
    unquote text = trim inside := by
  obtain ⟨quote, hquote, rfl⟩ := h
  have hlast : (quote :: (inside ++ [quote])).getLast? = some quote := by
    rw [← List.cons_append, List.getLast?_concat]
  have hdrop : ((quote :: (inside ++ [quote])).drop 1).dropLast = inside := by
    rw [List.drop_one, List.tail_cons, List.dropLast_concat]
  unfold unquote
  rw [hlast, hdrop]
  cases inside with
  | nil => simp [hquote]
  | cons c rest => simp [hquote]

private theorem unquote_eq_self {text : List Char} (h : ∀ inside, ¬Quoted text inside) :
    unquote text = text := by
  unfold unquote
  split
  · rename_i first second rest last hlast
    rw [if_neg]
    intro hboth
    simp only [Bool.and_eq_true, Bool.or_eq_true, decide_eq_true_eq] at hboth
    obtain ⟨rfl, hquote⟩ := hboth
    rw [List.getLast?_cons_cons] at hlast
    obtain ⟨inside, hinside⟩ := List.getLast?_eq_some_iff.mp hlast
    exact h inside ⟨first, hquote, by rw [hinside]⟩
  · rfl

private theorem toList_normalize (raw : String) :
    (normalize raw).toList = trim (layout false true (unquote (trim raw.toList))) := by
  have htrimmed : Trimmed (unquote (trim raw.toList)) := by
    by_cases h : ∃ inside, Quoted (trim raw.toList) inside
    · obtain ⟨inside, hinside⟩ := h
      rw [unquote_of_quoted hinside]
      exact trim_trimmed inside
    · rw [unquote_eq_self (not_exists.mp h)]
      exact trim_trimmed _
  rw [normalize, String.toList_ofList]
  generalize unquote (trim raw.toList) = text at htrimmed
  rw [(tighten_collapse htrimmed.last false).1, layout]
  cases text with
  | nil => rfl
  | cons c rest =>
    have hc := htrimmed.head c rfl
    rw [squeeze_word hc, squeeze_word hc]
    rfl

theorem normalize_of_quoted {raw : String} {inside : List Char}
    (h : Quoted (trim raw.toList) inside) :
    (normalize raw).toList = trim (layout false true inside) := by
  rw [toList_normalize, unquote_of_quoted h, layout, squeeze_trim, layout]

theorem normalize_of_unquoted {raw : String} (h : ∀ inside, ¬Quoted (trim raw.toList) inside) :
    (normalize raw).toList = trim (layout false true raw.toList) := by
  rw [toList_normalize, unquote_eq_self h, layout, squeeze_trim, layout]

theorem exists_layout (raw : String) :
    ∃ text, (normalize raw).toList = trim (layout false true text) ∧ text ⊆ raw.toList := by
  by_cases h : ∃ inside, Quoted (trim raw.toList) inside
  · obtain ⟨inside, hinside⟩ := h
    refine ⟨inside, normalize_of_quoted hinside, fun c hc => ?_⟩
    obtain ⟨quote, -, htrim⟩ := hinside
    apply mem_of_mem_trim
    rw [htrim]
    exact List.mem_cons_of_mem _ (List.mem_append_left _ hc)
  · exact ⟨raw.toList, normalize_of_unquoted (not_exists.mp h), List.Subset.refl _⟩

theorem normalize_trimmed (raw : String) : Trimmed (normalize raw).toList := by
  obtain ⟨text, heq, -⟩ := exists_layout raw
  rw [heq]
  exact trim_trimmed _

/-- The only blank in the normal form of an annotation is the space. -/
theorem not_mem_normalize {blank : Char} (hblank : isBlank blank) (hspace : blank ≠ ' ')
    (raw : String) : blank ∉ (normalize raw).toList := by
  intro h
  obtain ⟨text, heq, -⟩ := exists_layout raw
  rw [heq] at h
  rcases mem_layout (mem_of_mem_trim h) with hword | hsame
  · simp [hblank] at hword
  · exact hspace hsame

theorem mem_of_mem_normalize {raw : String} {c : Char} (h : c ∈ (normalize raw).toList) :
    c = ' ' ∨ c ∈ raw.toList := by
  obtain ⟨text, heq, hsub⟩ := exists_layout raw
  cases hc : isBlank c with
  | true =>
    left
    by_contra hspace
    exact not_mem_normalize hc hspace raw h
  | false =>
    right
    have hsolid : c ∈ solid (normalize raw).toList := List.mem_filter.mpr ⟨h, by simp [hc]⟩
    rw [heq, solid_trim, solid_layout] at hsolid
    exact hsub (List.mem_of_mem_filter hsolid)

private theorem quoted_of_solid_eq {text other inside : List Char} {quote : Char}
    (hquote : quote = '\'' ∨ quote = '"') (h : Trimmed other) (hsolid : solid other = solid text)
    (htext : text = quote :: (inside ++ [quote])) :
    ∃ inside', other = quote :: (inside' ++ [quote]) := by
  have hblank := not_isBlank_of_quote hquote
  have hends : solid other = quote :: (solid inside ++ [quote]) := by
    rw [hsolid, htext, solid_cons, solid_append, solid_cons, hblank]
    rfl
  cases other with
  | nil => simp [solid] at hends
  | cons c rest =>
    have hc := h.head c rfl
    rw [solid_cons, hc] at hends
    obtain ⟨rfl, hrest⟩ := List.cons.inj hends
    rcases List.eq_nil_or_concat rest with rfl | ⟨inside', last, rfl⟩
    · simp [solid] at hrest
    · rw [List.concat_eq_append] at h hrest ⊢
      have hlast := h.last last (by rw [← List.cons_append, List.getLast?_concat])
      rw [solid_append, solid_cons, hlast] at hrest
      obtain ⟨-, hsame⟩ := List.append_inj' hrest rfl
      obtain ⟨rfl, -⟩ := List.cons.inj hsame
      exact ⟨inside', rfl⟩

private theorem squeeze_quoted {text inside : List Char} {quote : Char}
    (hquote : quote = '\'' ∨ quote = '"') (h : trim text = quote :: (inside ++ [quote])) :
    ∃ front back, Blanks front ∧ Blanks back ∧
      squeeze false true text =
        quote :: (front ++ squeeze false true inside ++ back ++ [quote]) := by
  have hblank := not_isBlank_of_quote hquote
  obtain ⟨back, hback, hend⟩ := squeeze_end hblank false (isTight quote) inside
  obtain ⟨front, hfront, hbeginning⟩ := squeeze_beginning false (isTight quote) inside
  refine ⟨front, back, hfront, hback, ?_⟩
  rw [← squeeze_trim, h, squeeze_word hblank, hend, hbeginning]
  rfl

theorem normalize_congr {raw other : String}
    (h : squeeze false true raw.toList = squeeze false true other.toList) :
    normalize raw = normalize other := by
  have hsolid : solid (trim raw.toList) = solid (trim other.toList) := by
    rw [solid_trim, solid_trim, ← solid_squeeze false true, h, solid_squeeze]
  apply String.toList_inj.mp
  by_cases hraw : ∃ inside, Quoted (trim raw.toList) inside
  · obtain ⟨inside, quote, hquote, htrim⟩ := hraw
    obtain ⟨inside', htrim'⟩ := quoted_of_solid_eq hquote (trim_trimmed _) hsolid.symm htrim
    obtain ⟨front, back, hfront, hback, heq⟩ := squeeze_quoted hquote htrim
    obtain ⟨front', back', hfront', hback', heq'⟩ := squeeze_quoted hquote htrim'
    have hbetween : front ++ squeeze false true inside ++ back =
        front' ++ squeeze false true inside' ++ back' := by
      rw [h, heq'] at heq
      exact ((List.append_inj' (List.cons.inj heq).2 rfl).1).symm
    have hinside : squeeze false true inside = squeeze false true inside' := by
      rw [← trim_eq hfront hback (squeeze_trimmed inside), hbetween,
        trim_eq hfront' hback' (squeeze_trimmed inside')]
    rw [normalize_of_quoted ⟨quote, hquote, htrim⟩, normalize_of_quoted ⟨quote, hquote, htrim'⟩,
      layout, layout, hinside]
  · have hother : ∀ inside, ¬Quoted (trim other.toList) inside := by
      rintro inside ⟨quote, hquote, htrim⟩
      obtain ⟨inside', htrim'⟩ := quoted_of_solid_eq hquote (trim_trimmed _) hsolid htrim
      exact hraw ⟨inside', quote, hquote, htrim'⟩
    rw [normalize_of_unquoted (not_exists.mp hraw), normalize_of_unquoted hother, layout, layout, h]

/-- One change of the layout of a text: white space is put at an end of it or beside a bracket, a
comma or a bar, or a gap is made another one. -/
inductive Reformats : List Char → List Char → Prop
  | leading {blanks text : List Char} (blank : Blanks blanks) : Reformats text (blanks ++ text)
  | trailing {blanks text : List Char} (blank : Blanks blanks) : Reformats text (text ++ blanks)
  | before {front blanks back : List Char} {c : Char} (tight : c ∈ "[](),|".toList)
      (blank : Blanks blanks) : Reformats (front ++ c :: back) (front ++ (blanks ++ c :: back))
  | after {front blanks back : List Char} {c : Char} (tight : c ∈ "[](),|".toList)
      (blank : Blanks blanks) : Reformats (front ++ c :: back) (front ++ c :: (blanks ++ back))
  | regapped {front blanks others back : List Char} (blank : Blanks blanks) (blank' : Blanks others)
      (some : blanks ≠ []) (some' : others ≠ []) :
      Reformats (front ++ (blanks ++ back)) (front ++ (others ++ back))

theorem Reformats.squeeze_eq {text other : List Char} (h : Reformats text other) :
    squeeze false true text = squeeze false true other := by
  cases h with
  | leading blank => rw [squeeze_tight_blanks blank]
  | trailing blank => rw [squeeze_append_blanks blank]
  | @before front blanks back c tight blank =>
    apply squeeze_congr
    intro gap afterTight
    have htight := isTight_iff.mpr tight
    have hword := not_isBlank_of_isTight htight
    by_cases hne : blanks = []
    · rw [hne, List.nil_append]
    · rw [squeeze_blanks blank hne, squeeze_word hword, squeeze_word hword,
        spaceBefore_tight _ _ htight, spaceBefore_tight _ _ htight]
  | after tight blank =>
    apply squeeze_congr
    intro gap afterTight
    have htight := isTight_iff.mpr tight
    have hword := not_isBlank_of_isTight htight
    rw [squeeze_word hword, squeeze_word hword, htight, squeeze_tight_blanks blank]
  | regapped blank blank' some some' =>
    apply squeeze_congr
    intro gap afterTight
    rw [squeeze_blanks blank some, squeeze_blanks blank' some']

/-- A normal form is normalized to itself unless there are quotes around it. -/
theorem normalize_normalize_iff (raw : String) :
    normalize (normalize raw) = normalize raw ↔
      ∀ inside, ¬Quoted (normalize raw).toList inside := by
  have htrim := trim_eq_self (normalize_trimmed raw)
  constructor
  · intro hsame inside hquoted
    have hnormal := normalize_of_quoted (htrim.symm ▸ hquoted)
    obtain ⟨quote, hquote, htext⟩ := hquoted
    rw [hsame, htext] at hnormal
    have hshorter := congrArg solid hnormal
    rw [solid_trim, solid_layout, solid_cons, not_isBlank_of_quote hquote, solid_append] at hshorter
    have hlength := congrArg List.length hshorter
    simp only [Bool.false_eq_true, if_false, List.length_cons, List.length_append] at hlength
    omega
  · intro hquoted
    obtain ⟨text, heq, -⟩ := exists_layout raw
    apply String.toList_inj.mp
    rw [normalize_of_unquoted (htrim.symm ▸ hquoted), layout, heq, squeeze_trim_layout]
    rfl

/-- A text with quotes at its two ends whose inside has quotes at its two ends as well. -/
def TwiceQuoted (text : List Char) : Prop :=
  ∃ inside inner, Quoted (trim text) inside ∧ Quoted (trim inside) inner

/-- There are quotes around a normal form exactly if there were two pairs around the text. -/
theorem quoted_normalize_iff (raw : String) :
    (∃ inside, Quoted (normalize raw).toList inside) ↔ TwiceQuoted raw.toList := by
  -- A normal form is quoted if the text is that was laid out.
  have hlaid {text : List Char} (hnormal : (normalize raw).toList = trim (layout false true text)) :
      (∃ inside, Quoted (normalize raw).toList inside) ↔ ∃ inner, Quoted (trim text) inner := by
    have hsolid : solid (normalize raw).toList = solid (trim text) := by
      rw [hnormal, solid_trim, solid_trim, solid_layout]
    constructor
    · rintro ⟨inside, quote, hquote, htext⟩
      obtain ⟨inner, hinner⟩ := quoted_of_solid_eq hquote (trim_trimmed _) hsolid.symm htext
      exact ⟨inner, quote, hquote, hinner⟩
    · rintro ⟨inner, quote, hquote, htext⟩
      obtain ⟨inside, hinside⟩ := quoted_of_solid_eq hquote (normalize_trimmed raw) hsolid htext
      exact ⟨inside, quote, hquote, hinside⟩
  by_cases h : ∃ inside, Quoted (trim raw.toList) inside
  · obtain ⟨inside, hinside⟩ := h
    rw [hlaid (normalize_of_quoted hinside)]
    constructor
    · rintro ⟨inner, hinner⟩
      exact ⟨inside, inner, hinside, hinner⟩
    · rintro ⟨inside', inner, hinside', hinner⟩
      exact ⟨inner, hinside'.eq hinside ▸ hinner⟩
  · rw [hlaid (normalize_of_unquoted (not_exists.mp h))]
    refine iff_of_false h ?_
    rintro ⟨inside, -, hinside, -⟩
    exact h ⟨inside, hinside⟩

/-- Normal forms depend on no layout: white space may be put or left out beside brackets, commas and
bars and at the ends, and every gap may be another one. The only white space they have is the space,
at neither end. To normalize once more changes something exactly if a second pair of quotes is
met. -/
theorem normalize_normal_form :
    (∀ raw other : String, Relation.EqvGen Reformats raw.toList other.toList →
      normalize raw = normalize other) ∧
    ∀ raw : String, (∀ c ∈ (normalize raw).toList, isBlank c → c = ' ') ∧
      Trimmed (normalize raw).toList ∧
      (normalize (normalize raw) = normalize raw ↔ ¬TwiceQuoted raw.toList) := by
  refine ⟨fun raw other h => ?_, fun raw => ⟨?_, normalize_trimmed raw, ?_⟩⟩
  · apply normalize_congr
    generalize raw.toList = text, other.toList = text' at h
    induction h with
    | rel _ _ hstep => exact hstep.squeeze_eq
    | refl => rfl
    | symm _ _ _ ih => exact ih.symm
    | trans _ _ _ _ _ ih ih' => exact ih.trans ih'
  · intro c hc hblank
    by_contra hspace
    exact not_mem_normalize hblank hspace raw hc
  · rw [normalize_normalize_iff, ← quoted_normalize_iff, not_exists]

example : normalize "Dict[ str ,\n    int|None ]" = "Dict[str, int | None]" := by decide

end ElementBinding.TypeHint
