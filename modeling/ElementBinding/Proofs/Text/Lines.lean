import ElementBinding.Text.Lines
import Mathlib

/-!
# Line ends and splitting

A text without carriage returns is read as it stands. A beginning that holds no line end is seen in
the first line exactly if it is seen in the whole text. Splitting at a separator undoes joining
parts that do not hold it.
-/
namespace ElementBinding.Text

theorem unifyLineEnds_eq_self {text : List Char} (h : '\r' ∉ text) : unifyLineEnds text = text := by
  fun_induction unifyLineEnds text with
  | case1 => rfl
  | case2 rest ih => simp at h
  | case3 rest hrest ih => simp at h
  | case4 c rest hc hcr ih =>
    rw [ih (fun hmem => h (List.mem_cons_of_mem _ hmem))]

theorem isPrefixOf_unifyLineEnds {start : List Char} (hcr : '\r' ∉ start) (hlf : '\n' ∉ start)
    (text : List Char) : start.isPrefixOf (unifyLineEnds text) = start.isPrefixOf text := by
  induction start generalizing text with
  | nil => simp
  | cons c rest ih =>
    simp only [List.mem_cons, not_or] at hcr hlf
    have hcr' : (c == '\r') = false := beq_eq_false_iff_ne.mpr (Ne.symm hcr.1)
    have hlf' : (c == '\n') = false := beq_eq_false_iff_ne.mpr (Ne.symm hlf.1)
    fun_cases unifyLineEnds text with
    | case1 => rfl
    | case2 more => simp [List.isPrefixOf, hcr', hlf']
    | case3 more _ => simp [List.isPrefixOf, hcr', hlf']
    | case4 d more _ _ => simp [List.isPrefixOf, ih hcr.2 hlf.2 more]

theorem isPrefixOf_firstLine {start : List Char} (hlf : '\n' ∉ start) (text : List Char) :
    start.isPrefixOf (firstLine text) = start.isPrefixOf text := by
  induction start generalizing text with
  | nil => simp
  | cons c rest ih =>
    simp only [List.mem_cons, not_or] at hlf
    have hlf' : (c == '\n') = false := beq_eq_false_iff_ne.mpr (Ne.symm hlf.1)
    cases text with
    | nil => rfl
    | cons d more =>
      by_cases hd : d = '\n'
      · subst d
        simp [firstLine, List.isPrefixOf, hlf']
      · simp [firstLine, hd, List.isPrefixOf, ih hlf.2 more]

theorem takeWhile_append {c : Char} {text : List Char} (h : c ∉ text) (rest : List Char) :
    (text ++ c :: rest).takeWhile (· ≠ c) = text := by
  rw [List.takeWhile_append_of_pos]
  · simp
  · intro d hd
    have hne : d ≠ c := fun heq => h (heq ▸ hd)
    simpa using hne

theorem splitAt_ne_nil (separator : Char) (text : List Char) : splitAt separator text ≠ [] := by
  induction text with
  | nil => simp [splitAt]
  | cons c rest ih =>
    simp only [splitAt]
    split
    · simp
    · split <;> simp

theorem not_mem_of_mem_splitAt {separator : Char} {text part : List Char}
    (h : part ∈ splitAt separator text) : separator ∉ part := by
  induction text generalizing part with
  | nil =>
    have hpart : part = [] := by simpa [splitAt] using h
    simp [hpart]
  | cons c rest ih =>
    simp only [splitAt] at h
    by_cases hc : c = separator
    · rw [if_pos hc] at h
      rcases List.mem_cons.mp h with rfl | h
      · simp
      · exact ih h
    · rw [if_neg hc] at h
      cases hparts : splitAt separator rest with
      | nil => exact absurd hparts (splitAt_ne_nil separator rest)
      | cons first more =>
        rw [hparts] at h ih
        rcases List.mem_cons.mp h with rfl | h
        · simp [Ne.symm hc, ih List.mem_cons_self]
        · exact ih (List.mem_cons_of_mem _ h)

theorem mem_of_mem_splitAt {separator : Char} {text part : List Char} {c : Char}
    (h : part ∈ splitAt separator text) (hc : c ∈ part) : c ∈ text := by
  induction text generalizing part with
  | nil =>
    have hpart : part = [] := by simpa [splitAt] using h
    simp [hpart] at hc
  | cons d rest ih =>
    simp only [splitAt] at h
    by_cases hd : d = separator
    · rw [if_pos hd] at h
      rcases List.mem_cons.mp h with rfl | h
      · simp at hc
      · exact List.mem_cons_of_mem _ (ih h hc)
    · rw [if_neg hd] at h
      cases hparts : splitAt separator rest with
      | nil => exact absurd hparts (splitAt_ne_nil separator rest)
      | cons first more =>
        rw [hparts] at h ih
        rcases List.mem_cons.mp h with rfl | h
        · rcases List.mem_cons.mp hc with rfl | hc
          · exact List.mem_cons_self
          · exact List.mem_cons_of_mem _ (ih List.mem_cons_self hc)
        · exact List.mem_cons_of_mem _ (ih (List.mem_cons_of_mem _ h) hc)

theorem not_mem_intercalate {separator c : Char} {parts : List (List Char)} (hc : c ≠ separator)
    (h : ∀ part ∈ parts, c ∉ part) : c ∉ [separator].intercalate parts := by
  induction parts with
  | nil => simp
  | cons first rest ih =>
    have hfirst := h first List.mem_cons_self
    have hrest := ih fun part hpart => h part (List.mem_cons_of_mem _ hpart)
    cases rest with
    | nil => simpa using hfirst
    | cons second more =>
      rw [List.intercalate_cons_cons]
      simp [hc, hfirst, hrest]

theorem splitAt_of_not_mem {separator : Char} {text : List Char} (h : separator ∉ text) :
    splitAt separator text = [text] := by
  induction text with
  | nil => rfl
  | cons c rest ih =>
    simp only [List.mem_cons, not_or] at h
    simp [splitAt, ih h.2, Ne.symm h.1]

theorem splitAt_append (separator : Char) (first rest : List Char) :
    splitAt separator (first ++ separator :: rest) =
      splitAt separator first ++ splitAt separator rest := by
  induction first with
  | nil => simp [splitAt]
  | cons c first ih =>
    simp only [List.cons_append, splitAt, ih]
    by_cases hc : c = separator
    · simp [hc]
    · cases hparts : splitAt separator first with
      | nil => exact absurd hparts (splitAt_ne_nil separator first)
      | cons part more => simp [hc]

theorem intercalate_cons (separator : Char) (first : List Char) (more : List (List Char)) :
    [separator].intercalate (first :: more) = first ++ more.flatMap (separator :: ·) := by
  induction more generalizing first with
  | nil => simp
  | cons second more ih =>
    rw [List.intercalate_cons_cons, ih, List.flatMap_cons, List.append_assoc, List.singleton_append,
      List.cons_append]

/-- Joining undoes splitting. -/
theorem intercalate_splitAt (separator : Char) (text : List Char) :
    [separator].intercalate (splitAt separator text) = text := by
  induction text with
  | nil => rfl
  | cons c rest ih =>
    cases hparts : splitAt separator rest with
    | nil => exact absurd hparts (splitAt_ne_nil separator rest)
    | cons part more =>
      rw [hparts] at ih
      by_cases hc : c = separator
      · simp only [splitAt, hparts, if_pos hc]
        rw [List.intercalate_cons_cons, ih, hc]
        rfl
      · simp only [splitAt, hparts, if_neg hc]
        cases more with
        | nil => simpa using ih
        | cons next more =>
          rw [List.intercalate_cons_cons] at ih ⊢
          rw [← ih]
          rfl

/-- Splitting undoes joining. -/
theorem splitAt_intercalate {separator : Char} {parts : List (List Char)} (hne : parts ≠ [])
    (h : ∀ part ∈ parts, separator ∉ part) :
    splitAt separator ([separator].intercalate parts) = parts := by
  induction parts with
  | nil => exact absurd rfl hne
  | cons first rest ih =>
    have hfirst := h first List.mem_cons_self
    cases rest with
    | nil => simpa using splitAt_of_not_mem hfirst
    | cons second more =>
      rw [List.intercalate_cons_cons, List.append_assoc, List.singleton_append,
        splitAt_append, splitAt_of_not_mem hfirst, List.singleton_append,
        ih (by simp) fun part hpart => h part (List.mem_cons_of_mem _ hpart)]

end ElementBinding.Text
