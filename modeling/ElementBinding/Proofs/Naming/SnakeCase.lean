import ElementBinding.Proofs.Naming

/-!
# Snake case in one pass

The two passes of the snake-case form put an underscore before exactly the capitals that begin a
word. Whether a capital does is told by the characters next to it: the first pass skips the word it
has just marked, but only over small letters, and behind a small letter the second pass marks every
capital.
-/
namespace ElementBinding
open ElementBinding.Text

namespace Text

private theorem lowerAfter_of_ascii {before text : List Char} (h : ∀ c ∈ text, c.toNat < 128) :
    lowerAfter before text = text.map Char.toLower := by
  induction text generalizing before with
  | nil => rfl
  | cons c rest ih =>
    have hc := h c List.mem_cons_self
    have hsigma : (c.toNat = 931) = False := eq_false (by omega)
    rw [lowerAfter, ih fun d hd => h d (List.mem_cons_of_mem _ hd), lowerChar, if_pos hc]
    simp [hsigma]

theorem lower_of_ascii {text : List Char} (h : ∀ c ∈ text, c.toNat < 128) :
    lower text = text.map Char.toLower :=
  lowerAfter_of_ascii h

end Text

namespace Naming

/-- A capital behind the character begins a word. -/
def endsWord (c : Char) : Bool := isSmall c || c.isDigit

/-- The position of a name holds a capital that begins a word and does not begin the name. -/
def beginsWord (name : List Char) (i : Nat) : Bool :=
  decide (1 ≤ i) && name[i]?.any isCapital &&
    (name[i + 1]?.any isSmall || name[i - 1]?.any endsWord)

/-- The name with an underscore before each word but the first. -/
def separated (name : List Char) : List Char :=
  name.zipIdx.flatMap fun (c, i) => if beginsWord name i then ['_', c] else [c]

/-- The text with its words separated behind the character that stands before it. -/
def separatedAfter : (before : Option Char) → List Char → List Char
  | _, [] => []
  | before, c :: rest =>
    (if before.isSome && isCapital c && (rest.head?.any isSmall || before.any endsWord) then
      ['_', c]
    else [c]) ++ separatedAfter (some c) rest

theorem beginsWord_append (before : List Char) (c : Char) (rest : List Char) :
    beginsWord (before ++ c :: rest) before.length =
      (before.getLast?.isSome && isCapital c &&
        (rest.head?.any isSmall || before.getLast?.any endsWord)) := by
  rcases List.eq_nil_or_concat before with rfl | ⟨init, last, rfl⟩
  · simp [beginsWord]
  · have hnext : (init ++ [last] ++ c :: rest)[(init ++ [last]).length + 1]? = rest.head? := by
      rw [List.getElem?_append_right (by omega), Nat.add_sub_cancel_left, List.getElem?_cons_succ,
        List.head?_eq_getElem?]
    rw [List.concat_eq_append, beginsWord, hnext]
    simp

theorem flatMap_separated (before text : List Char) :
    (text.zipIdx before.length).flatMap
        (fun (c, i) => if beginsWord (before ++ text) i then ['_', c] else [c]) =
      separatedAfter before.getLast? text := by
  induction text generalizing before with
  | nil => rfl
  | cons c rest ih =>
    have hrest := ih (before ++ [c])
    rw [List.append_assoc, List.singleton_append, List.length_append, List.length_singleton,
      List.getLast?_concat] at hrest
    simp only [List.zipIdx_cons, List.flatMap_cons, hrest, beginsWord_append, separatedAfter]

theorem separated_eq (name : List Char) : separated name = separatedAfter none name :=
  flatMap_separated [] name

theorem markCapitals_cons (c : Char) (text : List Char) :
    markCapitals (c :: text) = c ::
      ((if endsWord c && text.head?.any isCapital then ['_'] else []) ++ markCapitals text) := by
  cases text with
  | nil => simp [markCapitals]
  | cons next rest =>
    rw [markCapitals]
    split <;> simp_all [endsWord]

theorem separatedAfter_cons (c : Char) (text : List Char) :
    separatedAfter none (c :: text) = c :: separatedAfter (some c) text := by
  simp [separatedAfter]

theorem separatedAfter_some (c : Char) (text : List Char) :
    separatedAfter (some c) text =
      (if text.head?.any isCapital && (text[1]?.any isSmall || endsWord c) then ['_'] else []) ++
        separatedAfter none text := by
  cases text with
  | nil => rfl
  | cons next rest =>
    rw [separatedAfter, separatedAfter, List.getElem?_cons_succ, ← List.head?_eq_getElem?]
    by_cases hmark : isCapital next && (rest.head?.any isSmall || endsWord c)
    · simp [hmark]
    · simp [hmark]

theorem head?_markWords (inWord : Bool) (text : List Char) :
    (markWords inWord text).head? = text.head? := by
  fun_cases markWords inWord text <;> simp_all

private theorem not_isCapital {c : Char} (h : isSmall c) : isCapital c = false := by
  simp only [isSmall, isCapital, Bool.and_eq_true, decide_eq_true_eq, Char.le_def] at h ⊢
  grind

private theorem not_endsWord {c : Char} (h : isCapital c) : endsWord c = false := by
  simp only [isCapital, endsWord, isSmall, Char.isDigit, Bool.and_eq_true, decide_eq_true_eq,
    Char.le_def] at h ⊢
  grind

/-- Two passes over a text do what one does that sees the characters around each capital. -/
theorem markCapitals_markWords {text : List Char} (h : '\n' ∉ text) (inWord : Bool) :
    markCapitals (markWords inWord text) = separatedAfter none text := by
  fun_induction markWords inWord text with
  | case1 => rfl
  | case2 inWord c capital small rest hskip ih =>
    -- the letter passed over is small, so the second pass marks a capital behind it anyway
    have hends : endsWord c = true := by simp_all [endsWord]
    rw [markCapitals_cons, head?_markWords, ih (List.not_mem_of_not_mem_cons h),
      separatedAfter_cons c, separatedAfter_some c, hends]
    simp
  | case3 inWord c capital small rest hskip hmark ih =>
    simp only [Bool.and_eq_true, decide_eq_true_eq] at hmark
    obtain ⟨⟨-, hcapital⟩, hsmall⟩ := hmark
    have hrest : '\n' ∉ rest := by simp_all
    have hends : endsWord small = true := by simp [endsWord, hsmall]
    have hmarked : separatedAfter none (c :: capital :: small :: rest) =
        c :: '_' :: capital :: separatedAfter none (small :: rest) := by
      rw [separatedAfter_cons, separatedAfter_some, separatedAfter_cons capital,
        separatedAfter_some capital]
      simp [hcapital, hsmall, not_isCapital hsmall]
    rw [hmarked, separatedAfter_cons small, separatedAfter_some small, hends, markCapitals_cons,
      markCapitals_cons, markCapitals_cons capital, markCapitals_cons small, head?_markWords,
      ih hrest, hends, not_endsWord hcapital]
    have hunder : isCapital '_' = false ∧ endsWord '_' = false := by decide
    simp [hunder]
  | case4 inWord c capital small rest hskip hmark ih =>
    have hline : c ≠ '\n' := fun heq => h (heq ▸ List.mem_cons_self)
    have hunmarked : (isCapital capital && isSmall small) = false := by simpa [hline] using hmark
    rw [markCapitals_cons, head?_markWords, ih (List.not_mem_of_not_mem_cons h),
      separatedAfter_cons c, separatedAfter_some c]
    by_cases hends : endsWord c
    · simp [hends]
    · simpa [hends] using hunmarked
  | case5 inWord c rest hshort ih =>
    have hsecond : rest[1]? = none := by
      rcases rest with _ | ⟨capital, _ | ⟨small, rest⟩⟩
      · rfl
      · rfl
      · exact absurd rfl (hshort capital small rest)
    rw [markCapitals_cons, head?_markWords, ih (List.not_mem_of_not_mem_cons h),
      separatedAfter_cons, separatedAfter_some, hsecond]
    simp [Bool.and_comm]

/-- A word of a name in camel case: a capital and small letters behind it. -/
def isWord : List Char → Bool
  | capital :: small :: rest => isCapital capital && isSmall small && rest.all isSmall
  | _ => false

theorem exists_of_isWord {word : List Char} (h : isWord word) :
    ∃ capital small rest, word = capital :: small :: rest ∧ isCapital capital ∧
      ∀ c ∈ small :: rest, isSmall c := by
  rcases word with _ | ⟨capital, _ | ⟨small, rest⟩⟩
  · cases h
  · cases h
  · simp only [isWord, Bool.and_eq_true, List.all_eq_true] at h
    exact ⟨capital, small, rest, rfl, h.1.1, List.forall_mem_cons.mpr ⟨h.1.2, h.2⟩⟩

theorem separatedAfter_small {letters text marked : List Char} (h : ∀ c ∈ letters, isSmall c)
    (htext : ∀ c, separatedAfter (some c) text = marked) (before : Char) :
    separatedAfter (some before) (letters ++ text) = letters ++ marked := by
  induction letters generalizing before with
  | nil => exact htext before
  | cons letter rest ih =>
    have hletter := not_isCapital (h letter List.mem_cons_self)
    rw [List.cons_append, separatedAfter_some, separatedAfter_cons,
      ih (fun c hc => h c (List.mem_cons_of_mem _ hc)) letter]
    simp [hletter]

theorem separatedAfter_words {words : List (List Char)} (h : ∀ word ∈ words, isWord word)
    (before : Char) :
    separatedAfter (some before) words.flatten = words.flatMap ('_' :: ·) := by
  induction words generalizing before with
  | nil => rfl
  | cons word more ih =>
    obtain ⟨capital, small, rest, rfl, hcapital, hsmall⟩ :=
      exists_of_isWord (h word List.mem_cons_self)
    have hmore := ih fun other hother => h other (List.mem_cons_of_mem _ hother)
    have hletters := separatedAfter_small hsmall hmore capital
    rw [List.flatten_cons, List.cons_append, separatedAfter_some, separatedAfter_cons, hletters]
    simp [hcapital, hsmall small List.mem_cons_self]

theorem separated_flatten {words : List (List Char)} (h : ∀ word ∈ words, isWord word) :
    separated words.flatten = ['_'].intercalate words := by
  rw [separated_eq]
  cases words with
  | nil => rfl
  | cons word more =>
    obtain ⟨capital, small, rest, rfl, -, hsmall⟩ :=
      exists_of_isWord (h word List.mem_cons_self)
    have hmore := separatedAfter_words fun other hother => h other (List.mem_cons_of_mem _ hother)
    rw [List.flatten_cons, List.cons_append, separatedAfter_cons,
      separatedAfter_small hsmall hmore capital, intercalate_cons]
    rfl

theorem toLower_of_isCapital {c : Char} (h : isCapital c) :
    c.toNat ≤ 90 ∧ c.toLower.toNat = c.toNat + 32 := by
  have hrange : c.val ≥ 'A'.val ∧ c.val ≤ 'Z'.val := by
    simpa [isCapital, Char.le_def] using h
  have hvalue : c.toNat ≤ 90 := UInt32.le_iff_toNat_le.mp hrange.2
  refine ⟨hvalue, ?_⟩
  rw [Char.toLower, dif_pos hrange]
  change (c.val + 32).toNat = _
  rw [UInt32.toNat_add]
  change (c.toNat + 32) % 2 ^ 32 = _
  omega

theorem toLower_of_not_isCapital {c : Char} (h : isCapital c = false) : c.toLower = c := by
  have hrange : ¬(c.val ≥ 'A'.val ∧ c.val ≤ 'Z'.val) := by
    simpa [isCapital, Char.le_def] using h
  rw [Char.toLower, dif_neg hrange]

theorem ascii_of_isSmall {c : Char} (h : isSmall c) : c.toNat < 128 := by
  have hrange : 'a' ≤ c ∧ c ≤ 'z' := by simpa [isSmall] using h
  have hvalue : c.toNat ≤ 122 := UInt32.le_iff_toNat_le.mp hrange.2
  omega

theorem ascii_of_isWord {word : List Char} (h : isWord word) : ∀ c ∈ word, c.toNat < 128 := by
  obtain ⟨capital, small, rest, rfl, hcapital, hsmall⟩ := exists_of_isWord h
  intro c hc
  rcases List.mem_cons.mp hc with rfl | hc
  · exact Nat.lt_of_le_of_lt (toLower_of_isCapital hcapital).1 (by decide)
  · exact ascii_of_isSmall (hsmall c hc)

theorem lower_of_isWord {capital small : Char} {rest : List Char} (hcapital : isCapital capital)
    (hsmall : ∀ c ∈ small :: rest, isSmall c) :
    lower (capital :: small :: rest) = capital.toLower :: small :: rest := by
  have hword : isWord (capital :: small :: rest) := by simp_all [isWord]
  rw [lower_of_ascii (ascii_of_isWord hword), List.map_cons,
    List.map_congr_left fun c hc => toLower_of_not_isCapital (not_isCapital (hsmall c hc)),
    List.map_id']

theorem lower_injOn_words {word other : List Char} (hword : isWord word) (hother : isWord other)
    (h : lower word = lower other) : word = other := by
  obtain ⟨capital, small, rest, rfl, hcapital, hsmall⟩ := exists_of_isWord hword
  obtain ⟨capital', small', rest', rfl, hcapital', hsmall'⟩ := exists_of_isWord hother
  rw [lower_of_isWord hcapital hsmall, lower_of_isWord hcapital' hsmall', List.cons.injEq] at h
  have hvalue := congrArg Char.toNat h.1
  rw [(toLower_of_isCapital hcapital).2, (toLower_of_isCapital hcapital').2] at hvalue
  have hfirst : capital = capital' := Char.toNat_inj.mp (by omega)
  rw [hfirst, h.2]

theorem not_mem_of_isWord {word : List Char} {d : Char} (h : isWord word)
    (hd : isCapital d = false ∧ isSmall d = false) : d ∉ word := by
  obtain ⟨capital, small, rest, rfl, hcapital, hsmall⟩ := exists_of_isWord h
  intro hmem
  rcases List.mem_cons.mp hmem with rfl | hmem
  · rw [hd.1] at hcapital
    cases hcapital
  · have hletter := hsmall d hmem
    rw [hd.2] at hletter
    cases hletter

theorem map_lower_injective {words others : List (List Char)}
    (hwords : ∀ word ∈ words, isWord word) (hothers : ∀ word ∈ others, isWord word)
    (h : words.map lower = others.map lower) :
    words = others := by
  induction words generalizing others with
  | nil => simpa using h.symm
  | cons word more ih =>
    cases others with
    | nil => simp at h
    | cons other rest =>
      rw [List.map_cons, List.map_cons, List.cons.injEq] at h
      rw [List.forall_mem_cons] at hwords hothers
      rw [lower_injOn_words hwords.1 hothers.1 h.1, ih hwords.2 hothers.2 h.2]

/-- The words of a name are told by their lower-cased forms, joined with underscores. -/
theorem words_injective {words others : List (List Char)} (hwords : ∀ word ∈ words, isWord word)
    (hothers : ∀ word ∈ others, isWord word)
    (h : ['_'].intercalate (words.map lower) = ['_'].intercalate (others.map lower)) :
    words = others := by
  have hsplit {parts : List (List Char)} (hparts : ∀ word ∈ parts, isWord word)
      (hne : parts ≠ []) :
      splitAt '_' (['_'].intercalate (parts.map lower)) = parts.map lower := by
    apply splitAt_intercalate (by simpa using hne)
    intro part hpart
    obtain ⟨word, hword, rfl⟩ := List.mem_map.mp hpart
    exact not_mem_lower (by decide) (not_mem_of_isWord (hparts word hword) (by decide))
  -- no words are joined to the empty text, which one word is not
  have hempty {parts : List (List Char)} (hparts : ∀ word ∈ parts, isWord word)
      (hjoined : ['_'].intercalate (parts.map lower) = []) : parts = [] := by
    by_contra hne
    obtain ⟨word, more, rfl⟩ := List.exists_cons_of_ne_nil hne
    obtain ⟨capital, small, rest, rfl, hcapital, hsmall⟩ :=
      exists_of_isWord (hparts word List.mem_cons_self)
    rw [List.map_cons, intercalate_cons, lower_of_isWord hcapital hsmall] at hjoined
    cases hjoined
  by_cases hnil : words = []
  · subst hnil
    exact (hempty hothers h.symm).symm
  · have hnil' : others ≠ [] := by
      intro heq
      rw [heq] at h
      exact hnil (hempty hwords h)
    apply map_lower_injective hwords hothers
    rw [← hsplit hwords hnil, ← hsplit hothers hnil', h]

theorem marked_of_not_isCapital {text : List Char} (h : ∀ c ∈ text, isCapital c = false) :
    markCapitals (markWords false text) = text := by
  have hwords (inWord : Bool) : markWords inWord text = text := by
    fun_induction markWords inWord text <;> simp_all
  have hcapitals : markCapitals text = text := by
    clear hwords
    fun_induction markCapitals text <;> simp_all
  rw [hwords, hcapitals]

theorem ascii_marked {name : List Char} (h : ∀ c ∈ name, c.toNat < 128) :
    ∀ c ∈ markCapitals (markWords false name), c.toNat < 128 := by
  intro c hc
  by_cases hmark : c = '_'
  · rw [hmark]
    decide
  · apply h c
    by_contra hnot
    exact not_mem_markCapitals hmark (not_mem_markWords hmark hnot false) hc

theorem toLower_of_ascii {c : Char} (h : c.toNat < 128) :
    c.toLower.toNat < 128 ∧ isCapital c.toLower = false := by
  by_cases hcapital : isCapital c
  · obtain ⟨hbound, hlower⟩ := toLower_of_isCapital hcapital
    refine ⟨by omega, ?_⟩
    by_contra hagain
    have hcapital' : 65 ≤ c.toNat := by
      have hrange : 'A' ≤ c ∧ c ≤ 'Z' := by simpa [isCapital] using hcapital
      exact UInt32.le_iff_toNat_le.mp hrange.1
    have hbound' := (toLower_of_isCapital (by simpa using hagain)).1
    omega
  · rw [Bool.not_eq_true] at hcapital
    rw [toLower_of_not_isCapital hcapital]
    exact ⟨h, hcapital⟩

theorem snakeCase_idempotent_of_ascii {name : String} (h : ∀ c ∈ name.toList, c.toNat < 128) :
    snakeCase (snakeCase name) = snakeCase name := by
  have hascii := ascii_marked h
  have hform : (snakeCase name).toList =
      (markCapitals (markWords false name.toList)).map Char.toLower := by
    rw [snakeCase, String.toList_ofList, lower_of_ascii hascii]
  have hlow : ∀ c ∈ (snakeCase name).toList, c.toNat < 128 ∧ isCapital c = false := by
    intro c hc
    rw [hform] at hc
    obtain ⟨d, hd, rfl⟩ := List.mem_map.mp hc
    exact toLower_of_ascii (hascii d hd)
  have hsame : (snakeCase name).toList.map Char.toLower = (snakeCase name).toList := by
    rw [List.map_congr_left fun c hc => toLower_of_not_isCapital (hlow c hc).2, List.map_id']
  rw [snakeCase.eq_1 (snakeCase name), marked_of_not_isCapital fun c hc => (hlow c hc).2,
    lower_of_ascii fun c hc => (hlow c hc).1, hsame, String.ofList_toList]

theorem snakeCase_eq_separated {name : String} (h : '\n' ∉ name.toList) :
    snakeCase name = String.ofList (lower (separated name.toList)) := by
  rw [snakeCase, markCapitals_markWords h, separated_eq]

theorem lower_intercalate {words : List (List Char)} (h : ∀ word ∈ words, isWord word) :
    lower (['_'].intercalate words) = ['_'].intercalate (words.map lower) := by
  have hmap : words.map lower = words.map (·.map Char.toLower) :=
    List.map_congr_left fun word hword => lower_of_ascii (ascii_of_isWord (h word hword))
  have hascii : ∀ c ∈ ['_'].intercalate words, c.toNat < 128 := by
    intro c hc
    by_contra hnot
    have hmark : c ≠ '_' := by
      rintro rfl
      exact hnot (by decide)
    refine not_mem_intercalate hmark (fun word hword hmem => hnot ?_) hc
    exact ascii_of_isWord (h word hword) c hmem
  rw [lower_of_ascii hascii, hmap]
  cases words with
  | nil => rfl
  | cons word more =>
    rw [List.map_cons, intercalate_cons, intercalate_cons, List.map_append, List.map_flatMap,
      List.flatMap_map]
    rfl

theorem snakeCase_join {words : List String} (h : ∀ word ∈ words, isWord word.toList) :
    snakeCase (String.join words) =
      "_".intercalate (words.map fun word => String.ofList (lower word.toList)) := by
  have hwords : ∀ word ∈ words.map (·.toList), isWord word := by
    intro word hword
    obtain ⟨text, htext, rfl⟩ := List.mem_map.mp hword
    exact h text htext
  have hjoin : (String.join words).toList = (words.map (·.toList)).flatten := by
    rw [String.toList_join, List.flatMap_def]
  have hline : '\n' ∉ (String.join words).toList := by
    rw [hjoin]
    intro hmem
    obtain ⟨word, hword, hmem⟩ := List.mem_flatten.mp hmem
    exact not_mem_of_isWord (hwords word hword) (by decide) hmem
  apply String.toList_inj.mp
  rw [snakeCase_eq_separated hline, String.toList_ofList, hjoin, separated_flatten hwords,
    lower_intercalate hwords, String.toList_intercalate]
  simp [Function.comp_def]

theorem snakeCase_join_injective {words others : List String}
    (hwords : ∀ word ∈ words, isWord word.toList) (hothers : ∀ word ∈ others, isWord word.toList)
    (h : snakeCase (String.join words) = snakeCase (String.join others)) : words = others := by
  have hlists {parts : List String} (hparts : ∀ word ∈ parts, isWord word.toList) :
      (∀ word ∈ parts.map (·.toList), isWord word) ∧
        (snakeCase (String.join parts)).toList =
          ['_'].intercalate ((parts.map (·.toList)).map lower) := by
    refine ⟨fun word hword => ?_, ?_⟩
    · obtain ⟨text, htext, rfl⟩ := List.mem_map.mp hword
      exact hparts text htext
    · rw [snakeCase_join hparts, String.toList_intercalate]
      simp [Function.comp_def]
  obtain ⟨hwords', hname⟩ := hlists hwords
  obtain ⟨hothers', hname'⟩ := hlists hothers
  have hsame := words_injective hwords' hothers' (by rw [← hname, ← hname', h])
  exact List.map_injective_iff.mpr (fun _ _ => String.toList_injective) hsame

/-- The snake-case form of a name in one line is the lower-cased name with an underscore before
each word but the first. So the words of a name in camel case stand there joined with underscores,
no two such names have one form, and an ASCII name in snake case stays as it is. -/
theorem snakeCase_separates_words :
    (∀ name : String, '\n' ∉ name.toList →
      snakeCase name = String.ofList (lower (separated name.toList))) ∧
    (∀ words : List String, (∀ word ∈ words, isWord word.toList) →
      snakeCase (String.join words) =
        "_".intercalate (words.map fun word => String.ofList (lower word.toList))) ∧
    (∀ words others : List String, (∀ word ∈ words, isWord word.toList) →
      (∀ word ∈ others, isWord word.toList) →
      snakeCase (String.join words) = snakeCase (String.join others) → words = others) ∧
    ∀ name : String, (∀ c ∈ name.toList, c.toNat < 128) →
      snakeCase (snakeCase name) = snakeCase name :=
  ⟨fun _ hline => snakeCase_eq_separated hline, fun _ hwords => snakeCase_join hwords,
    fun _ _ hwords hothers hsame => snakeCase_join_injective hwords hothers hsame,
    fun _ hascii => snakeCase_idempotent_of_ascii hascii⟩

/-- Words side by side, an acronym, a digit and an underscore. -/
theorem snakeCase_separates_words_acronym :
    snakeCase "HTTPViewPane2A_IOBox" = "http_view_pane2_a_io_box" ∧
    snakeCase (String.join ["Up", "To", "Main"]) = "up_to_main" ∧
    snakeCase (String.join ["Main", "Up"]) ≠ snakeCase (String.join ["Mai", "Nup"]) ∧
    snakeCase (snakeCase "HTTPView_2") = snakeCase "HTTPView_2" := by
  obtain ⟨hpass, hjoin, hinjective, hagain⟩ := snakeCase_separates_words
  have hline : '\n' ∉ "HTTPViewPane2A_IOBox".toList := by decide
  have hwords : ∀ word ∈ ["Up", "To", "Main"], isWord word.toList := by decide
  have hascii : ∀ c ∈ "HTTPView_2".toList, c.toNat < 128 := by simp
  refine ⟨?_, ?_, fun hsame => ?_, hagain _ hascii⟩
  · rw [hpass _ hline]
    decide +kernel
  · rw [hjoin _ hwords]
    decide +kernel
  · exact absurd (hinjective _ _ (by decide) (by decide) hsame) (by decide)

end Naming
end ElementBinding
