import ElementBinding.Text.Blank
import ElementBinding.Text.Identifier
import Mathlib

/-!
# Characters of names

The characters of names are none of white space: the classes have no code point in common.
-/
namespace ElementBinding.Text

def CharClass.Apart (first second : CharClass) : Prop :=
  ∀ range ∈ first.ranges, ∀ other ∈ second.ranges, other.2 < range.1 ∨ range.2 < other.1

theorem CharClass.Apart.not_contains {first second : CharClass} (h : first.Apart second) {c : Char}
    (hc : first.contains c) : second.contains c = false := by
  obtain ⟨range, hrange, hinside⟩ := List.any_eq_true.mp hc
  by_contra hother
  rw [Bool.not_eq_false] at hother
  obtain ⟨other, hmem, hin⟩ := List.any_eq_true.mp hother
  simp only [Bool.and_eq_true, decide_eq_true_eq] at hinside hin
  rcases h range hrange other hmem with hbelow | habove <;> omega

instance (first second : CharClass) : Decidable (first.Apart second) :=
  inferInstanceAs (Decidable (∀ range ∈ first.ranges, ∀ other ∈ second.ranges,
    other.2 < range.1 ∨ range.2 < other.1))

/-- Whatever may stand in a name: digits, letters, the underscore and the characters of the two
classes. -/
private def nameClass : CharClass :=
  ⟨[(48, 57), (65, 90), (95, 95), (97, 122)] ++
    (identifierStartClass.ranges ++ identifierExtendClass.ranges)⟩

private theorem mem_nameClass {c : Char} (h : isIdentifierRest c) : nameClass.contains c := by
  have hin (range : Nat × Nat) (hrange : range ∈ nameClass.ranges)
      (hc : range.1 ≤ c.toNat ∧ c.toNat ≤ range.2) : nameClass.contains c :=
    List.any_eq_true.mpr ⟨range, hrange, by simpa using hc⟩
  have hclass (cls : CharClass) (hcls : ∀ range ∈ cls.ranges, range ∈ nameClass.ranges)
      (hc : cls.contains c) : nameClass.contains c := by
    obtain ⟨range, hrange, hinside⟩ := List.any_eq_true.mp hc
    exact hin range (hcls range hrange) (by simpa using hinside)
  simp only [isIdentifierRest, isIdentifierStart, Bool.or_eq_true, Bool.and_eq_true,
    decide_eq_true_eq] at h
  rcases h with ((((rfl | hletter) | ⟨-, hstart⟩) | hdigit) | ⟨-, hextend⟩)
  · exact hin (95, 95) (by simp [nameClass]) (by decide)
  · have hrange : (65 ≤ c.toNat ∧ c.toNat ≤ 90) ∨ (97 ≤ c.toNat ∧ c.toNat ≤ 122) := by
      simpa [Char.isAlpha, Char.isUpper, Char.isLower, UInt32.le_iff_toNat_le] using hletter
    rcases hrange with hrange | hrange
    · exact hin (65, 90) (by simp [nameClass]) hrange
    · exact hin (97, 122) (by simp [nameClass]) hrange
  · exact hclass _ (by simp +contextual [nameClass]) hstart
  · have hrange : 48 ≤ c.toNat ∧ c.toNat ≤ 57 := by
      simpa [Char.isDigit, UInt32.le_iff_toNat_le] using hdigit
    exact hin (48, 57) (by simp [nameClass]) hrange
  · exact hclass _ (by simp +contextual [nameClass]) hextend

/-- No range of the class meets a range of characters of names. -/
def CharClass.IsNameless (cls : CharClass) : Prop := cls.Apart nameClass

theorem CharClass.IsNameless.isIdentifierRest {cls : CharClass} (h : cls.IsNameless) {c : Char}
    (hc : cls.contains c) : isIdentifierRest c = false := by
  have hname := h.not_contains hc
  by_contra hrest
  rw [Bool.not_eq_false] at hrest
  simp [mem_nameClass hrest] at hname

instance (cls : CharClass) : Decidable cls.IsNameless :=
  inferInstanceAs (Decidable (cls.Apart nameClass))

private theorem blank_nameless : blankClass.IsNameless := by decide +kernel

theorem isIdentifierRest_of_isBlank {c : Char} (h : isBlank c) : isIdentifierRest c = false :=
  blank_nameless.isIdentifierRest h

theorem isIdentifierStart_of_isDigit {c : Char} (h : c.isDigit) : isIdentifierStart c = false := by
  have hrange : 48 ≤ c.toNat ∧ c.toNat ≤ 57 := by
    simpa [Char.isDigit, UInt32.le_iff_toNat_le] using h
  have hletter : c.isAlpha = false := by
    by_contra halpha
    rw [Bool.not_eq_false] at halpha
    have hletters : (65 ≤ c.toNat ∧ c.toNat ≤ 90) ∨ (97 ≤ c.toNat ∧ c.toNat ≤ 122) := by
      simpa [Char.isAlpha, Char.isUpper, Char.isLower, UInt32.le_iff_toNat_le] using halpha
    omega
  have hunderscore : c ≠ '_' := by
    rintro rfl
    exact absurd hrange.2 (by decide)
  have hsmall : ¬127 < c.toNat := by omega
  simp [isIdentifierStart, hunderscore, hletter, hsmall]

end ElementBinding.Text
