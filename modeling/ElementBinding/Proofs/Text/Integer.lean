import ElementBinding.Text.Integer
import Mathlib

/-!
# Decimal text

What is written for an integer of not too many digits is read back as that integer.
-/
namespace ElementBinding.Text

/-- The decimal text of an integer of any length. -/
def decimalText (n : Int) : String :=
  String.ofList (if n < 0 then '-' :: decimalDigits n.natAbs else decimalDigits n.natAbs)

/-- The integer needs no more digits than are read or written. -/
def IsShort (n : Int) : Prop := (decimalDigits n.natAbs).length ≤ digitLimit

instance (n : Int) : Decidable (IsShort n) := inferInstanceAs (Decidable (_ ≤ _))

/-- The integers that are written are those below a power of ten. -/
theorem isShort_iff {n : Int} : IsShort n ↔ n.natAbs < 10 ^ digitLimit :=
  Nat.length_toDigits_le_iff (by decide) (by decide)

theorem isDigit_of_mem_decimalDigits {n : Nat} {c : Char} (h : c ∈ decimalDigits n) : c.isDigit :=
  Nat.isDigit_of_mem_toDigits (by decide) (by decide) h

theorem decimalDigits_ne_nil (n : Nat) : decimalDigits n ≠ [] := Nat.toDigits_ne_nil

theorem sign_or_digit_of_mem_decimalText {n : Int} {c : Char} (h : c ∈ (decimalText n).toList) :
    c = '-' ∨ c.isDigit := by
  rw [decimalText, String.toList_ofList] at h
  split at h
  · exact (List.mem_cons.mp h).imp id isDigit_of_mem_decimalDigits
  · exact .inr (isDigit_of_mem_decimalDigits h)

theorem decimal?_eq_some_iff {n : Int} {text : String} :
    decimal? n = some text ↔ IsShort n ∧ text = decimalText n := by
  unfold decimal?
  simp only [Option.ite_none_left_eq_some, Option.some.injEq, Nat.not_lt]
  exact and_congr_right fun _ => eq_comm

private theorem digitValue?_of_isDigit {c : Char} (h : c.isDigit) :
    digitValue? 10 c = some (c.toNat - '0'.toNat) := by
  have hrange : 48 ≤ c.toNat ∧ c.toNat ≤ 57 := by
    simpa [Char.isDigit, UInt32.le_iff_toNat_le] using h
  have hsmall : c.toNat - 48 < 10 := by omega
  simp [digitValue?, h, hsmall]

private theorem digitsTail?_eq {text : List Char} (h : ∀ c ∈ text, c.isDigit) :
    digitsTail? 10 text = some (text.map fun c => c.toNat - '0'.toNat) := by
  induction text with
  | nil => rfl
  | cons c rest ih =>
    have hc := h c List.mem_cons_self
    have hrest := ih fun other hother => h other (List.mem_cons_of_mem _ hother)
    have hunderscore : c ≠ '_' := by
      rintro rfl
      simp at hc
    rw [digitsTail?, digitValue?_of_isDigit hc, hrest]
    · rfl
    · rintro _ _ rfl
      exact absurd rfl hunderscore

private theorem digits?_eq {text : List Char} (hne : text ≠ []) (h : ∀ c ∈ text, c.isDigit) :
    digits? 10 text = some (text.map fun c => c.toNat - '0'.toNat) := by
  cases text with
  | nil => exact absurd rfl hne
  | cons c rest =>
    have hc := h c List.mem_cons_self
    have hrest := digitsTail?_eq fun other hother => h other (List.mem_cons_of_mem _ hother)
    rw [digits?, digitValue?_of_isDigit hc, hrest]
    rfl

private theorem ofDigits_map (text : List Char) :
    ofDigits 10 (text.map fun c => c.toNat - '0'.toNat) = Nat.ofDigitChars 10 text 0 := by
  rw [ofDigits, Nat.ofDigitChars_eq_foldl, List.foldl_map]
  simp only [Nat.mul_comm]

private theorem isPlain_of_sign_or_digit {c : Char} (h : c = '-' ∨ c.isDigit) :
    plainDigit c = c ∧ isPlainBlank c = false := by
  have hrange : 33 ≤ c.toNat ∧ c.toNat ≤ 57 := by
    rcases h with rfl | h
    · decide
    · have hdigit : 48 ≤ c.toNat ∧ c.toNat ≤ 57 := by
        simpa [Char.isDigit, UInt32.le_iff_toNat_le] using h
      omega
  have hspace : c ≠ ' ' := by
    rintro rfl
    exact absurd hrange.1 (by decide)
  refine ⟨if_pos (by omega), ?_⟩
  simp [isPlainBlank, hspace]
  omega

private theorem dropWhile_eq_self {p : Char → Bool} {text : List Char}
    (h : ∀ c ∈ text, p c = false) : text.dropWhile p = text := by
  cases text with
  | nil => rfl
  | cons c rest => rw [List.dropWhile_cons_of_neg (by simp [h c List.mem_cons_self])]

theorem digits?_decimalDigits (n : Nat) : ∃ ds, digits? 10 (decimalDigits n) = some ds ∧
    ds.length = (decimalDigits n).length ∧ ofDigits 10 ds = n := by
  refine ⟨_, digits?_eq (decimalDigits_ne_nil n) fun c => isDigit_of_mem_decimalDigits,
    List.length_map _, ?_⟩
  rw [ofDigits_map]
  exact Nat.ofDigitChars_ten_toDigits

/-- Reading undoes writing. -/
theorem readInteger_decimalText {n : Int} (h : IsShort n) :
    readInteger (decimalText n) = .ok n := by
  have hdigits := @isDigit_of_mem_decimalDigits n.natAbs
  obtain ⟨ds, hread, hcount, hvalue⟩ := digits?_decimalDigits n.natAbs
  have hlength : ¬digitLimit < ds.length := hcount ▸ Nat.not_lt.mpr h
  have hchars (c : Char) (hc : c ∈ (decimalText n).toList) := sign_or_digit_of_mem_decimalText hc
  -- Signs and digits are neither converted nor stripped.
  have hplain : (decimalText n).toList.map plainDigit = (decimalText n).toList :=
    (List.map_congr_left fun c hc => (isPlain_of_sign_or_digit (hchars c hc)).1).trans
      (List.map_id' _)
  have hfront : (decimalText n).toList.dropWhile isPlainBlank = (decimalText n).toList :=
    dropWhile_eq_self fun c hc => (isPlain_of_sign_or_digit (hchars c hc)).2
  have hback : (decimalText n).toList.reverse.dropWhile isPlainBlank =
      (decimalText n).toList.reverse :=
    dropWhile_eq_self fun c hc =>
      (isPlain_of_sign_or_digit (hchars c (List.mem_reverse.mp hc))).2
  unfold readInteger
  simp only [hplain, hfront, hback, List.reverse_reverse]
  by_cases hneg : n < 0
  · have htext : (decimalText n).toList = '-' :: decimalDigits n.natAbs := by
      rw [decimalText, String.toList_ofList, if_pos hneg]
    simp only [htext, hread, hlength, if_false, hvalue, if_true]
    congr 1
    omega
  · have htext : (decimalText n).toList = decimalDigits n.natAbs := by
      rw [decimalText, String.toList_ofList, if_neg hneg]
    have hunsigned (sign : Char) (hsign : sign.isDigit = false) (rest : List Char) :
        decimalDigits n.natAbs ≠ sign :: rest := by
      intro heq
      have hdigit := hdigits (heq ▸ List.mem_cons_self : sign ∈ decimalDigits n.natAbs)
      simp [hsign] at hdigit
    have hminus := hunsigned '-' rfl
    have hplus := hunsigned '+' rfl
    simp only [htext]
    split
    · rename_i hnone
      rw [hread] at hnone
      simp at hnone
    · rename_i hsome
      rw [hread] at hsome
      obtain rfl := Option.some.inj hsome
      simp only [hlength, if_false, hvalue, Bool.false_eq_true]
      congr 1
      omega

end ElementBinding.Text
