import ElementBinding.Text.Blank
import Mathlib

/-!
# White space of a text

Trimming takes the blank characters off both ends and nothing else. Beside the trimmed text stands
the solid one, which has no blank character at all.
-/
namespace ElementBinding.Text

def Blanks (text : List Char) : Prop := ∀ c ∈ text, isBlank c

def solid (text : List Char) : List Char := text.filter fun c => !isBlank c

/-- A text that has no blank character at its ends. -/
structure Trimmed (text : List Char) : Prop where
  head : ∀ c, text.head? = some c → isBlank c = false
  last : ∀ c, text.getLast? = some c → isBlank c = false

theorem Blanks.nil : Blanks [] := by simp [Blanks]

theorem Blanks.space : Blanks [' '] := by simp [Blanks, show isBlank ' ' = true by decide]

@[simp] theorem blanks_cons_iff {c : Char} {rest : List Char} :
    Blanks (c :: rest) ↔ isBlank c = true ∧ Blanks rest := List.forall_mem_cons

@[simp] theorem solid_append (first rest : List Char) :
    solid (first ++ rest) = solid first ++ solid rest := List.filter_append ..

theorem solid_cons (c : Char) (rest : List Char) :
    solid (c :: rest) = if isBlank c then solid rest else c :: solid rest := by
  cases h : isBlank c <;> simp [solid, h]

theorem Blanks.solid_eq {text : List Char} (h : Blanks text) : solid text = [] := by
  apply List.filter_eq_nil_iff.mpr
  intro c hc
  simp [h c hc]

private theorem dropWhile_blanks {blanks : List Char} (h : Blanks blanks) (text : List Char) :
    (blanks ++ text).dropWhile isBlank = text.dropWhile isBlank := by
  induction blanks with
  | nil => rfl
  | cons c rest ih =>
    rw [blanks_cons_iff] at h
    rw [List.cons_append, List.dropWhile_cons, if_pos h.1]
    exact ih h.2

private theorem dropWhile_of_head {text : List Char}
    (h : ∀ c, text.head? = some c → isBlank c = false) : text.dropWhile isBlank = text := by
  cases text with
  | nil => rfl
  | cons c rest => simp [h c rfl]

theorem trim_eq {front middle back : List Char} (hfront : Blanks front) (hback : Blanks back)
    (h : Trimmed middle) : trim (front ++ middle ++ back) = middle := by
  rw [trim, List.append_assoc, dropWhile_blanks hfront]
  cases middle with
  | nil =>
    have hnone := dropWhile_blanks hback []
    rw [List.append_nil] at hnone
    rw [List.nil_append, hnone]
    rfl
  | cons c rest =>
    have hlast : ∀ d, (c :: rest).reverse.head? = some d → isBlank d = false := by
      intro d hd
      rw [List.head?_reverse] at hd
      exact h.last d hd
    rw [List.cons_append, List.dropWhile_cons, if_neg (by simp [h.head c rfl]), ← List.cons_append,
      List.reverse_append, dropWhile_blanks (fun d hd => hback d (List.mem_reverse.mp hd)),
      dropWhile_of_head hlast, List.reverse_reverse]

theorem trim_eq_self {text : List Char} (h : Trimmed text) : trim text = text := by
  simpa using trim_eq .nil .nil h

theorem trim_trimmed (text : List Char) : Trimmed (trim text) := by
  have hfirst {rest : List Char} {c : Char} (hc : (rest.dropWhile isBlank).head? = some c) :
      isBlank c = false := by
    have h := List.head?_dropWhile_not isBlank rest
    rw [hc] at h
    exact h
  constructor
  · intro c hc
    obtain ⟨more, hmore⟩ : trim text <+: text.dropWhile isBlank := by
      rw [trim, ← List.reverse_suffix, List.reverse_reverse]
      exact List.dropWhile_suffix _
    apply hfirst
    rw [← hmore, List.head?_append, hc]
    rfl
  · intro c hc
    rw [trim, List.getLast?_reverse] at hc
    exact hfirst hc

/-- What trimming takes off is blank. -/
theorem exists_trim (text : List Char) :
    ∃ front back, Blanks front ∧ Blanks back ∧ text = front ++ trim text ++ back := by
  let rest := text.dropWhile isBlank
  have hback : rest = trim text ++ (rest.reverse.takeWhile isBlank).reverse := by
    rw [trim, ← List.reverse_append, List.takeWhile_append_dropWhile, List.reverse_reverse]
  refine ⟨text.takeWhile isBlank, (rest.reverse.takeWhile isBlank).reverse, ?_, ?_, ?_⟩
  · intro c hc
    exact List.mem_takeWhile_imp hc
  · intro c hc
    exact List.mem_takeWhile_imp (List.mem_reverse.mp hc)
  · rw [List.append_assoc, ← hback, List.takeWhile_append_dropWhile]

theorem mem_of_mem_trim {text : List Char} {c : Char} (h : c ∈ trim text) : c ∈ text := by
  obtain ⟨front, back, -, -, htext⟩ := exists_trim text
  rw [htext]
  exact List.mem_append_left _ (List.mem_append_right _ h)

@[simp] theorem solid_trim (text : List Char) : solid (trim text) = solid text := by
  obtain ⟨front, back, hfront, hback, htext⟩ := exists_trim text
  conv_rhs => rw [htext, solid_append, solid_append, hfront.solid_eq, hback.solid_eq]
  simp

end ElementBinding.Text
