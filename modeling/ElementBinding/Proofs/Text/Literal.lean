import ElementBinding.Proofs.Text.Integer

/-!
# Integer literals

What an integer literal is, and what it stands for: digits in positional notation, with single
underscores between them, and a mark in front for any base but ten. The literals that are read are
just these, and the decimal text of a natural number is one of them.
-/
namespace ElementBinding.Text

def smallDigits : List Char := "0123456789abcdef".toList

def capitalDigits : List Char := "0123456789ABCDEF".toList

structure IsDigit (base : Nat) (c : Char) (value : Nat) : Prop where
  small : value < base
  written : smallDigits[value]? = some c ∨ capitalDigits[value]? = some c

/-- The text is written in a number of digits, the most significant first, and stands for a value.
An underscore may stand between two digits. -/
inductive Numeral (base : Nat) : (text : List Char) → (count value : Nat) → Prop
  | last {c : Char} {d : Nat} (digit : IsDigit base c d) : Numeral base [c] 1 d
  | next {c : Char} {d : Nat} {rest : List Char} {count value : Nat} (digit : IsDigit base c d)
      (more : Numeral base rest count value) :
      Numeral base (c :: rest) (count + 1) (d * base ^ count + value)
  | separated {c : Char} {d : Nat} {rest : List Char} {count value : Nat} (digit : IsDigit base c d)
      (more : Numeral base rest count value) :
      Numeral base (c :: '_' :: rest) (count + 1) (d * base ^ count + value)

def baseMarks : List (Char × Nat) :=
  [('x', 16), ('X', 16), ('o', 8), ('O', 8), ('b', 2), ('B', 2)]

/-- The text is an integer literal of source code, and stands for a value. A decimal literal has no
more digits than are read, and begins with a zero only if it is zero. -/
inductive IsLiteral : (text : List Char) → (value : Nat) → Prop
  | decimal {text : List Char} {count value : Nat} (numeral : Numeral 10 text count value)
      (short : count ≤ digitLimit) (unpadded : text.head? = some '0' → value = 0) :
      IsLiteral text value
  | marked {mark : Char} {base : Nat} {text : List Char} {count value : Nat}
      (marks : (mark, base) ∈ baseMarks) (numeral : Numeral base text count value) :
      IsLiteral ('0' :: mark :: text) value
  | separated {mark : Char} {base : Nat} {text : List Char} {count value : Nat}
      (marks : (mark, base) ∈ baseMarks) (numeral : Numeral base text count value) :
      IsLiteral ('0' :: mark :: '_' :: text) value

variable {base : Nat}

private theorem written_of_range : (∀ d < 10, smallDigits[d]? = some (Char.ofNat (48 + d))) ∧
    ∀ d < 6, smallDigits[10 + d]? = some (Char.ofNat (97 + d)) ∧
      capitalDigits[10 + d]? = some (Char.ofNat (65 + d)) := by
  decide

private theorem read_of_written : ∀ d < 16, smallDigits[d]?.bind (digitValue? 16) = some d ∧
    capitalDigits[d]?.bind (digitValue? 16) = some d := by
  decide

theorem digitValue?_eq_some_iff (hbase : base ≤ 16) {c : Char} {d : Nat} :
    digitValue? base c = some d ↔ IsDigit base c d := by
  have hbound : digitValue? base c = some d ↔ digitValue? 16 c = some d ∧ d < base := by
    simp only [digitValue?, Option.filter_eq_some_iff, decide_eq_true_eq]
    constructor
    · rintro ⟨hvalue, hd⟩
      exact ⟨⟨hvalue, by omega⟩, hd⟩
    · rintro ⟨⟨hvalue, -⟩, hd⟩
      exact ⟨hvalue, hd⟩
  rw [hbound]
  constructor
  · rintro ⟨hread, hd⟩
    refine ⟨hd, ?_⟩
    simp only [digitValue?, Option.filter_eq_some_iff, decide_eq_true_eq] at hread
    obtain ⟨hvalue, -⟩ := hread
    obtain ⟨hdigits, hletters⟩ := written_of_range
    split at hvalue
    · rename_i hdigit
      have hrange : 48 ≤ c.toNat ∧ c.toNat ≤ 57 := by
        simpa [Char.isDigit, UInt32.le_iff_toNat_le] using hdigit
      have hsum : 48 + d = c.toNat := by simp at hvalue; omega
      left
      rw [hdigits d (by omega), hsum, Char.ofNat_toNat]
    · split at hvalue
      · rename_i hsmall
        have hrange : 97 ≤ c.toNat ∧ c.toNat ≤ 102 := by
          simpa [Char.le_def, UInt32.le_iff_toNat_le] using hsmall
        have hsum : 97 + (d - 10) = c.toNat ∧ d = 10 + (d - 10) := by simp at hvalue; omega
        left
        rw [hsum.2, (hletters (d - 10) (by omega)).1, hsum.1, Char.ofNat_toNat]
      · split at hvalue
        · rename_i hcapital
          have hrange : 65 ≤ c.toNat ∧ c.toNat ≤ 70 := by
            simpa [Char.le_def, UInt32.le_iff_toNat_le] using hcapital
          have hsum : 65 + (d - 10) = c.toNat ∧ d = 10 + (d - 10) := by simp at hvalue; omega
          right
          rw [hsum.2, (hletters (d - 10) (by omega)).2, hsum.1, Char.ofNat_toNat]
        · cases hvalue
  · rintro ⟨hd, hsmall | hcapital⟩
    · have hread := (read_of_written d (by omega)).1
      rw [hsmall] at hread
      exact ⟨hread, hd⟩
    · have hread := (read_of_written d (by omega)).2
      rw [hcapital] at hread
      exact ⟨hread, hd⟩

theorem ofDigits_cons (d : Nat) (ds : List Nat) :
    ofDigits base (d :: ds) = d * base ^ ds.length + ofDigits base ds := by
  have hfold (start : Nat) : ds.foldl (fun value d => value * base + d) start =
      start * base ^ ds.length + ofDigits base ds := by
    unfold ofDigits
    induction ds generalizing start with
    | nil => simp
    | cons first rest ih =>
      rw [List.foldl_cons, List.foldl_cons, ih (start * base + first), ih (0 * base + first),
        List.length_cons]
      ring
  rw [ofDigits, List.foldl_cons, hfold]
  simp

section

variable (hbase : base ≤ 16)

include hbase

private theorem ne_underscore {c : Char} {d : Nat} (h : IsDigit base c d) : c ≠ '_' := by
  rintro rfl
  have hread := (digitValue?_eq_some_iff hbase).mpr h
  simp [digitValue?] at hread

theorem digits?_cons {c : Char} {d : Nat} (h : IsDigit base c d) (rest : List Char) :
    digits? base (c :: rest) = (digitsTail? base rest).map (d :: ·) := by
  rw [digits?, (digitValue?_eq_some_iff hbase).mpr h]
  cases digitsTail? base rest <;> rfl

theorem digitsTail?_cons {c : Char} {d : Nat} (h : IsDigit base c d) (rest : List Char) :
    digitsTail? base (c :: rest) = (digitsTail? base rest).map (d :: ·) := by
  have hmark := ne_underscore hbase h
  rw [digitsTail?, (digitValue?_eq_some_iff hbase).mpr h]
  · cases digitsTail? base rest <;> rfl
  · rintro other more rfl
    exact absurd rfl hmark

theorem digitsTail?_separated {c : Char} {d : Nat} (h : IsDigit base c d) (rest : List Char) :
    digitsTail? base ('_' :: c :: rest) = (digitsTail? base rest).map (d :: ·) := by
  rw [digitsTail?, (digitValue?_eq_some_iff hbase).mpr h]
  cases digitsTail? base rest <;> rfl

theorem Numeral.digits {text : List Char} {count value : Nat} (h : Numeral base text count value) :
    ∃ ds, digits? base text = some ds ∧ digitsTail? base text = some ds ∧
      digitsTail? base ('_' :: text) = some ds ∧ ds.length = count ∧ ofDigits base ds = value := by
  induction h with
  | @last c d digit =>
    refine ⟨[d], ?_, ?_, ?_, rfl, by simp [ofDigits]⟩
    · simp [digits?_cons hbase digit, digitsTail?]
    · simp [digitsTail?_cons hbase digit, digitsTail?]
    · simp [digitsTail?_separated hbase digit, digitsTail?]
  | @next c d rest count value digit more ih =>
    obtain ⟨ds, -, hrest, -, rfl, rfl⟩ := ih
    refine ⟨d :: ds, ?_, ?_, ?_, rfl, ofDigits_cons d ds⟩
    · simp [digits?_cons hbase digit, hrest]
    · simp [digitsTail?_cons hbase digit, hrest]
    · simp [digitsTail?_separated hbase digit, hrest]
  | @separated c d rest count value digit more ih =>
    obtain ⟨ds, -, -, hrest, rfl, rfl⟩ := ih
    refine ⟨d :: ds, ?_, ?_, ?_, rfl, ofDigits_cons d ds⟩
    · simp [digits?_cons hbase digit, hrest]
    · simp [digitsTail?_cons hbase digit, hrest]
    · simp [digitsTail?_separated hbase digit, hrest]

private theorem numeral_of_digitsTail? {rest : List Char} {ds : List Nat}
    (h : digitsTail? base rest = some ds) {c : Char} {d : Nat} (hc : IsDigit base c d) :
    Numeral base (c :: rest) (ds.length + 1) (d * base ^ ds.length + ofDigits base ds) := by
  fun_induction digitsTail? base rest generalizing c d ds with
  | case1 =>
    obtain rfl := Option.some.inj h
    simpa [ofDigits] using Numeral.last hc
  | case2 first more ih =>
    simp only [Option.bind_eq_bind, Option.bind_eq_some_iff, Option.pure_def,
      Option.some.injEq] at h
    obtain ⟨d', hd', ds', hds', rfl⟩ := h
    have hnext := ih hds' ((digitValue?_eq_some_iff hbase).mp hd')
    rw [ofDigits_cons, List.length_cons]
    exact .separated hc hnext
  | case3 first more hmark ih =>
    simp only [Option.bind_eq_bind, Option.bind_eq_some_iff, Option.pure_def,
      Option.some.injEq] at h
    obtain ⟨d', hd', ds', hds', rfl⟩ := h
    have hnext := ih hds' ((digitValue?_eq_some_iff hbase).mp hd')
    rw [ofDigits_cons, List.length_cons]
    exact .next hc hnext

theorem numeral_of_digits? {text : List Char} {ds : List Nat} (h : digits? base text = some ds) :
    Numeral base text ds.length (ofDigits base ds) := by
  unfold digits? at h
  split at h
  · cases h
  · simp only [Option.bind_eq_bind, Option.bind_eq_some_iff, Option.pure_def,
      Option.some.injEq] at h
    obtain ⟨d, hd, more, hmore, rfl⟩ := h
    rw [ofDigits_cons, List.length_cons]
    exact numeral_of_digitsTail? hbase hmore ((digitValue?_eq_some_iff hbase).mp hd)

end

private theorem ofDigits_eq_zero_iff {ds : List Nat} (hbase : 0 < base) :
    ofDigits base ds = 0 ↔ ∀ d ∈ ds, d = 0 := by
  induction ds with
  | nil => simp [ofDigits]
  | cons d rest ih =>
    have hpower : base ^ rest.length ≠ 0 := (Nat.pow_pos hbase).ne'
    rw [ofDigits_cons, Nat.add_eq_zero_iff, ih, List.forall_mem_cons, Nat.mul_eq_zero,
      or_iff_left hpower]

theorem exists_digit_of_digits? (hbase : base ≤ 16) {text : List Char} {ds : List Nat}
    (h : digits? base text = some ds) :
    ∃ c d rest more, text = c :: rest ∧ ds = d :: more ∧ IsDigit base c d := by
  unfold digits? at h
  split at h
  · cases h
  · simp only [Option.bind_eq_bind, Option.bind_eq_some_iff, Option.pure_def,
      Option.some.injEq] at h
    obtain ⟨d, hd, more, -, rfl⟩ := h
    exact ⟨_, d, _, more, rfl, rfl, (digitValue?_eq_some_iff hbase).mp hd⟩

private theorem head_of_digits? {text : List Char} {ds : List Nat} (h : digits? 10 text = some ds) :
    ds.head? = some 0 ↔ text.head? = some '0' := by
  obtain ⟨c, d, rest, more, rfl, rfl, hdigit⟩ := exists_digit_of_digits? (by decide) h
  simp only [List.head?_cons, Option.some.injEq]
  constructor
  · rintro rfl
    rcases hdigit.written with hzero | hzero
    · exact (Option.some.inj hzero).symm
    · exact (Option.some.inj hzero).symm
  · rintro rfl
    have hvalue := (digitValue?_eq_some_iff (by decide)).mpr hdigit
    exact (Option.some.inj hvalue).symm

/-- A decimal literal is read as what it stands for, and nothing else is read as one. -/
theorem decimalLiteral?_eq_some_iff {text : List Char} {value : Nat} :
    decimalLiteral? text = some value ↔ ∃ count, Numeral 10 text count value ∧
      count ≤ digitLimit ∧ (text.head? = some '0' → value = 0) := by
  have hread {ds : List Nat} (hdigits : digits? 10 text = some ds) :
      decimalLiteral? text = some value ↔ ds.length ≤ digitLimit ∧
        (text.head? = some '0' → ofDigits 10 ds = 0) ∧ ofDigits 10 ds = value := by
    have hzero : ¬(ds.head? = some 0 ∧ ∃ d ∈ ds, d ≠ 0) ↔
        (ds.head? = some 0 → ∀ d ∈ ds, d = 0) := by
      simp
    rw [ofDigits_eq_zero_iff (by decide), ← head_of_digits? hdigits, ← hzero]
    simp [decimalLiteral?, hdigits]
  constructor
  · intro h
    obtain ⟨ds, hdigits, -⟩ := Option.bind_eq_some_iff.mp h
    obtain ⟨hshort, hzero, rfl⟩ := (hread hdigits).mp h
    exact ⟨ds.length, numeral_of_digits? (by decide) hdigits, hshort, hzero⟩
  · rintro ⟨count, hnumeral, hshort, hzero⟩
    obtain ⟨ds, hdigits, -, -, rfl, rfl⟩ := hnumeral.digits (by decide)
    exact (hread hdigits).mpr ⟨hshort, hzero, rfl⟩

private theorem le_of_mem_baseMarks {mark : Char} (h : (mark, base) ∈ baseMarks) : base ≤ 16 := by
  simp only [baseMarks, List.mem_cons, Prod.mk.injEq, List.not_mem_nil, or_false] at h
  omega

private theorem literalValue?_marked {mark : Char} (h : (mark, base) ∈ baseMarks)
    (text : List Char) : literalValue? ('0' :: mark :: text) =
      (markedDigits? base text).map (ofDigits base) := by
  simp only [baseMarks, List.mem_cons, Prod.mk.injEq, List.not_mem_nil, or_false] at h
  rcases h with ⟨rfl, rfl⟩ | ⟨rfl, rfl⟩ | ⟨rfl, rfl⟩ | ⟨rfl, rfl⟩ | ⟨rfl, rfl⟩ | ⟨rfl, rfl⟩
  all_goals rfl

private theorem literalValue?_unmarked {text : List Char}
    (h : ∀ mark base rest, text = '0' :: mark :: rest → (mark, base) ∉ baseMarks) :
    literalValue? text = decimalLiteral? text := by
  unfold literalValue?
  split
  · rename_i mark rest
    have hmark (base : Nat) : (mark, base) ∉ baseMarks := h mark base rest rfl
    have hsixteen := hmark 16
    have height := hmark 8
    have htwo := hmark 2
    simp [baseMarks] at hsixteen height htwo
    simp [hsixteen, height, htwo]
  · rfl

private theorem markedDigits?_eq (hbase : base ≤ 16) {text : List Char} {ds : List Nat}
    (h : digits? base text = some ds) : markedDigits? base text = some ds := by
  obtain ⟨c, d, rest, more, rfl, rfl, hdigit⟩ := exists_digit_of_digits? hbase h
  unfold markedDigits?
  split
  · rename_i heq
    exact absurd (List.cons.inj heq).1 (ne_underscore hbase hdigit)
  · exact h

private theorem not_marked_of_numeral {text : List Char} {count value : Nat}
    (h : Numeral 10 text count value) (mark : Char) (base : Nat) (rest : List Char)
    (htext : text = '0' :: mark :: rest) : (mark, base) ∉ baseMarks := by
  intro hmem
  have hnone : digits? 10 text = none := by
    simp only [baseMarks, List.mem_cons, Prod.mk.injEq, List.not_mem_nil, or_false] at hmem
    rcases hmem with ⟨rfl, -⟩ | ⟨rfl, -⟩ | ⟨rfl, -⟩ | ⟨rfl, -⟩ | ⟨rfl, -⟩ | ⟨rfl, -⟩
    all_goals subst htext; rfl
  obtain ⟨ds, hdigits, -⟩ := h.digits (by decide)
  rw [hnone] at hdigits
  cases hdigits

/-- A literal is read as what it stands for, and nothing else is read. -/
theorem literalValue?_eq_some_iff {text : List Char} {value : Nat} :
    literalValue? text = some value ↔ IsLiteral text value := by
  constructor
  · intro h
    by_cases hmarked : ∃ mark base rest, text = '0' :: mark :: rest ∧ (mark, base) ∈ baseMarks
    · obtain ⟨mark, base, rest, rfl, hmark⟩ := hmarked
      have hbase := le_of_mem_baseMarks hmark
      rw [literalValue?_marked hmark] at h
      obtain ⟨ds, hdigits, rfl⟩ := Option.map_eq_some_iff.mp h
      unfold markedDigits? at hdigits
      split at hdigits
      · exact .separated hmark (numeral_of_digits? hbase hdigits)
      · exact .marked hmark (numeral_of_digits? hbase hdigits)
    · have hplain : ∀ mark base rest, text = '0' :: mark :: rest → (mark, base) ∉ baseMarks :=
        fun mark base rest htext hmem => hmarked ⟨mark, base, rest, htext, hmem⟩
      rw [literalValue?_unmarked hplain] at h
      obtain ⟨count, hnumeral, hshort, hzero⟩ := decimalLiteral?_eq_some_iff.mp h
      exact .decimal hnumeral hshort hzero
  · intro h
    cases h with
    | decimal numeral short unpadded =>
      rw [literalValue?_unmarked (not_marked_of_numeral numeral)]
      exact decimalLiteral?_eq_some_iff.mpr ⟨_, numeral, short, unpadded⟩
    | marked marks numeral =>
      have hbase := le_of_mem_baseMarks marks
      obtain ⟨ds, hdigits, -, -, -, rfl⟩ := numeral.digits hbase
      rw [literalValue?_marked marks, markedDigits?_eq hbase hdigits]
      rfl
    | separated marks numeral =>
      obtain ⟨ds, hdigits, -, -, -, rfl⟩ := numeral.digits (le_of_mem_baseMarks marks)
      rw [literalValue?_marked marks, markedDigits?, hdigits]
      rfl

theorem eq_zero_of_decimalDigits {n : Nat} (h : (decimalDigits n).head? = some '0') : n = 0 := by
  unfold decimalDigits at h
  induction n using Nat.strongRecOn with
  | ind n ih =>
    rw [Nat.toDigits_eq_if (by decide)] at h
    split at h
    · rename_i hsmall
      have hchar : ∀ d < 10, Nat.digitChar d = '0' → d = 0 := by decide
      exact hchar n hsmall (Option.some.inj h)
    · rename_i hlarge
      rw [List.head?_append_of_ne_nil _ Nat.toDigits_ne_nil] at h
      have hzero := ih (n / 10) (by omega) h
      omega

/-- The decimal digits of a number are a literal for it, unless they are too many to be read. -/
theorem isLiteral_decimalDigits {n : Nat} (h : (decimalDigits n).length ≤ digitLimit) :
    IsLiteral (decimalDigits n) n := by
  obtain ⟨ds, hdigits, hcount, hvalue⟩ := digits?_decimalDigits n
  have hnumeral := numeral_of_digits? (by decide) hdigits
  rw [hcount, hvalue] at hnumeral
  exact .decimal hnumeral h eq_zero_of_decimalDigits

theorem literalValue?_decimalText {n : Int} (h : IsShort n) (value : Nat) :
    literalValue? (decimalText n).toList = some value ↔ n = value := by
  rw [decimalText, String.toList_ofList]
  split
  · have hnone : literalValue? ('-' :: decimalDigits n.natAbs) = none := rfl
    rw [hnone]
    simp only [reduceCtorEq, false_iff]
    omega
  · rw [literalValue?_eq_some_iff.mpr (isLiteral_decimalDigits h), Option.some.injEq]
    omega

end ElementBinding.Text
