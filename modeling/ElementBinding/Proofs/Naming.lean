import ElementBinding.Naming
import ElementBinding.Proofs.Path

/-!
# Where binder modules stand

The snake-case form of a name has no slash that the name has not, so the path of a binder module is
read back component by component: directories without dots, and a file name with the ending of a
source file. The file of a module is told by the parts of its name, and tells them if none of them
is empty. The package of a module is what stands before the last dot of its name.
-/
namespace ElementBinding
open ElementBinding.Text

namespace Text

private theorem lower_of_mem_caseRuns : ∀ run ∈ caseRuns, 97 ≤ (run.first : Int) + run.shift ∧
    ((run.last : Int) + run.shift < 0xD800 ∨
      0xDFFF < (run.first : Int) + run.shift ∧ (run.last : Int) + run.shift < 0x110000) := by
  decide +kernel

private theorem toLower_of_lt : ∀ n < 128, (Char.ofNat n).toLower.toNat < 97 →
    (Char.ofNat n).toLower = Char.ofNat n := by
  decide

private theorem mem_lowerChar {c d : Char} (hd : d.toNat < 97) (h : d ∈ lowerChar c) : d = c := by
  unfold lowerChar at h
  split at h
  · rename_i hascii
    obtain rfl := List.mem_singleton.mp h
    have hc := toLower_of_lt c.toNat hascii
    rw [Char.ofNat_toNat] at hc
    exact hc hd
  · split at h
    · rcases List.mem_pair.mp h with rfl | rfl <;> exact absurd hd (by decide)
    · split at h
      · obtain rfl := List.mem_singleton.mp h
        exact absurd hd (by decide)
      · split at h
        · rename_i run hrun
          obtain ⟨hbound, hscalar⟩ := lower_of_mem_caseRuns run (List.mem_of_find?_eq_some hrun)
          have hcovers := List.find?_some hrun
          simp only [CaseRun.covers, Bool.and_eq_true, decide_eq_true_eq] at hcovers
          have hvalue : d.toNat = (Char.ofNat (c.toNat + run.shift).toNat).toNat :=
            congrArg Char.toNat (List.mem_singleton.mp h)
          rw [Char.toNat_ofNat] at hvalue
          split at hvalue <;> omega
        · exact List.mem_singleton.mp h

theorem not_mem_lower {d : Char} (hd : d.toNat < 97) {text : List Char} (h : d ∉ text) :
    d ∉ lower text := by
  unfold lower
  generalize ([] : List Char) = before
  induction text generalizing before with
  | nil => simp [lowerAfter]
  | cons c rest ih =>
    simp only [List.mem_cons, not_or] at h
    rw [lowerAfter, List.mem_append, not_or]
    refine ⟨?_, ih h.2 _⟩
    split
    · intro hmem
      obtain rfl := List.mem_singleton.mp hmem
      exact absurd hd (by decide)
    · exact fun hmem => h.1 (mem_lowerChar hd hmem)

end Text

namespace Naming

section

variable {d : Char} (hmark : d ≠ '_')

include hmark

theorem not_mem_markWords {text : List Char} (h : d ∉ text) (inWord : Bool) :
    d ∉ markWords inWord text := by
  fun_induction markWords inWord text <;> simp_all

theorem not_mem_markCapitals {text : List Char} (h : d ∉ text) :
    d ∉ markCapitals text := by
  fun_induction markCapitals text <;> simp_all

/-- The snake-case form of a name holds nothing in front of the small letters but underscores and
what the name holds. -/
theorem not_mem_snakeCase (hd : d.toNat < 97) {name : String} (h : d ∉ name.toList) :
    d ∉ (snakeCase name).toList := by
  rw [snakeCase, String.toList_ofList]
  exact not_mem_lower hd (not_mem_markCapitals hmark (not_mem_markWords hmark h false))

end

private theorem lower_ne_nil {text : List Char} (h : text ≠ []) : lower text ≠ [] := by
  have hchar (c : Char) : lowerChar c ≠ [] := by
    unfold lowerChar
    repeat' split
    all_goals simp
  obtain ⟨c, rest, rfl⟩ := List.exists_cons_of_ne_nil h
  rw [lower, lowerAfter]
  split
  · simp
  · simp [hchar]

private theorem markWords_ne_nil {text : List Char} (h : text ≠ []) (inWord : Bool) :
    markWords inWord text ≠ [] := by
  fun_cases markWords inWord text <;> simp_all

private theorem markCapitals_ne_nil {text : List Char} (h : text ≠ []) :
    markCapitals text ≠ [] := by
  fun_cases markCapitals text <;> simp_all

theorem snakeCase_ne_empty {name : String} (h : name ≠ "") : snakeCase name ≠ "" := by
  have hname : name.toList ≠ [] := by simpa using h
  intro hempty
  rw [snakeCase, String.ofList_eq_empty_iff] at hempty
  exact lower_ne_nil (markCapitals_ne_nil (markWords_ne_nil hname false)) hempty

theorem not_mem_packageOf {moduleName : String} {c : Char} (h : c ∉ moduleName.toList) :
    c ∉ (packageOf moduleName).toList := by
  unfold packageOf
  split
  · simp
  · rename_i dot before heq
    rw [String.toList_ofList, List.mem_reverse]
    intro hmem
    have hdrop : c ∈ moduleName.toList.reverse.dropWhile (· ≠ '.') := by
      rw [heq]
      exact List.mem_cons_of_mem _ hmem
    exact h (List.mem_reverse.mp ((List.dropWhile_suffix _).subset hdrop))

theorem packageOf_of_dotless {moduleName : String} (h : '.' ∉ moduleName.toList) :
    packageOf moduleName = "" := by
  have hdrop : moduleName.toList.reverse.dropWhile (· ≠ '.') = [] := by
    rw [List.dropWhile_eq_nil_iff]
    intro c hc
    have hne : c ≠ '.' := fun heq => h (heq ▸ List.mem_reverse.mp hc)
    simpa using hne
  rw [packageOf, hdrop]

theorem packageOf_append {package leaf : List Char} (h : '.' ∉ leaf) :
    packageOf (String.ofList (package ++ '.' :: leaf)) = String.ofList package := by
  have hdrop : (package ++ '.' :: leaf).reverse.dropWhile (· ≠ '.') = '.' :: package.reverse := by
    rw [List.reverse_append, List.reverse_cons, List.append_assoc, List.dropWhile_append_of_pos]
    · simp
    · intro c hc
      have hne : c ≠ '.' := fun heq => h (heq ▸ List.mem_reverse.mp hc)
      simpa using hne
  rw [packageOf, String.toList_ofList, hdrop]
  simp

/-- The package of a module is named by all parts of the module's name but the last. -/
theorem packageOf_intercalate {parts : List String} {last : String} (h : '.' ∉ last.toList) :
    packageOf (".".intercalate (parts ++ [last])) = ".".intercalate parts := by
  by_cases hparts : parts = []
  · simpa [hparts] using packageOf_of_dotless h
  · have hname : ".".intercalate (parts ++ [last]) =
        String.ofList ((".".intercalate parts).toList ++ '.' :: last.toList) := by
      apply String.toList_inj.mp
      rw [String.intercalate_append_of_ne_nil hparts (by simp)]
      simp
    rw [hname, packageOf_append h, String.ofList_toList]

/-- A name has no dot, or it is a package's name, a dot and a name without dots. -/
theorem dotless_or_append (moduleName : String) :
    '.' ∉ moduleName.toList ∨
      ∃ package leaf, '.' ∉ leaf ∧ moduleName = String.ofList (package ++ '.' :: leaf) := by
  by_cases h : '.' ∈ moduleName.toList
  · obtain ⟨leaf, package, heq, hleaf⟩ := List.eq_append_cons_of_mem (List.mem_reverse.mpr h)
    refine .inr ⟨package.reverse, leaf.reverse, by simpa using hleaf, ?_⟩
    have hlist : moduleName.toList = package.reverse ++ '.' :: leaf.reverse := by
      rw [← List.reverse_reverse moduleName.toList, heq]
      simp
    rw [← hlist, String.ofList_toList]
  · exact .inl h

private theorem not_mem_joined {package leaf : String} {c : Char} (hdot : c ≠ '.')
    (hpackage : c ∉ package.toList) (hleaf : c ∉ leaf.toList) :
    c ∉ (if package = "" then leaf else package ++ "." ++ leaf).toList := by
  split
  · exact hleaf
  · simp [hdot, hpackage, hleaf]

/-- The binder of an owner is named in the package whose name has the given parts. -/
theorem binderModule_intercalate {owner : Owner} {profile : Profile} {dirs : List String}
    (hdirs : ∀ dir ∈ dirs, dir ≠ "")
    (hpackage : (if owner.isPackage then owner.moduleName else packageOf owner.moduleName) =
      ".".intercalate dirs) :
    owner.binderModule profile =
      ".".intercalate (dirs ++ [snakeCase owner.name ++ profile.moduleSuffix]) := by
  unfold Owner.binderModule
  rw [hpackage]
  by_cases hparts : dirs = []
  · simp [hparts]
  · obtain ⟨first, more, rfl⟩ := List.exists_cons_of_ne_nil hparts
    have hfirst := hdirs first List.mem_cons_self
    have hne : ".".intercalate (first :: more) ≠ "" := by
      intro hempty
      have hlist := congrArg String.toList hempty
      rw [String.toList_intercalate, List.map_cons] at hlist
      have hdot : ".".toList = ['.'] := rfl
      rw [hdot, intercalate_cons] at hlist
      simp [hfirst] at hlist
    rw [String.intercalate_append_of_ne_nil hparts (by simp)]
    simp [hne]

theorem slash_not_mem_binderModule {owner : Owner} (hmodule : '/' ∉ owner.moduleName.toList)
    (hname : '/' ∉ owner.name.toList) {profile : Profile}
    (hsuffix : '/' ∉ profile.moduleSuffix.toList) :
    '/' ∉ (owner.binderModule profile).toList := by
  refine not_mem_joined (by decide) ?_ ?_
  · split
    · exact hmodule
    · exact not_mem_packageOf hmodule
  · rw [String.toList_append, List.mem_append, not_or]
    exact ⟨not_mem_snakeCase (by decide) (by decide) hname, hsuffix⟩

private theorem extend_part (base : Path) {part : String} (hdot : '.' ∉ part.toList)
    (hslash : '/' ∉ part.toList) :
    base.extend part = { base with parts := base.parts ++ [part].filter (· ≠ "") } := by
  by_cases hempty : part = ""
  · subst hempty
    simp [Path.extend, Path.splitRoot, Path.components, splitAt]
  · have hname : IsFileName part := .of_dotless hempty hdot hslash
    have hjoined : base.extend ("/".intercalate [part]) =
        { base with parts := base.parts ++ [part] } :=
      Path.extend_intercalate base (by simp) (by simpa using hname)
    rw [String.intercalate_singleton] at hjoined
    rw [hjoined]
    simp [hempty]

private theorem foldl_extend_parts (base : Path) {parts : List String}
    (h : ∀ part ∈ parts, '.' ∉ part.toList ∧ '/' ∉ part.toList) :
    parts.foldl Path.extend base =
      { base with parts := base.parts ++ parts.filter (· ≠ "") } := by
  induction parts generalizing base with
  | nil => simp
  | cons part rest ih =>
    obtain ⟨hdot, hslash⟩ := h part List.mem_cons_self
    rw [List.foldl_cons, extend_part base hdot hslash,
      ih _ fun other hother => h other (List.mem_cons_of_mem _ hother), List.append_assoc,
      ← List.filter_append, List.singleton_append]

private theorem dottedParts_plain {moduleName : String} (h : '/' ∉ moduleName.toList) :
    ∀ part ∈ dottedParts moduleName, '.' ∉ part.toList ∧ '/' ∉ part.toList := by
  intro part hpart
  obtain ⟨chars, hchars, rfl⟩ := List.mem_map.mp hpart
  rw [String.toList_ofList]
  exact ⟨not_mem_of_mem_splitAt hchars, fun hmem => h (mem_of_mem_splitAt hchars hmem)⟩

theorem intercalate_dottedParts (moduleName : String) :
    ".".intercalate (dottedParts moduleName) = moduleName := by
  apply String.toList_inj.mp
  rw [String.toList_intercalate, dottedParts, List.map_map]
  simpa using intercalate_splitAt '.' moduleName.toList

theorem dottedParts_ne_nil (moduleName : String) : dottedParts moduleName ≠ [] := by
  simpa [dottedParts] using splitAt_ne_nil '.' moduleName.toList

structure IsPart (part : String) : Prop where
  nonempty : part ≠ ""
  dotless : '.' ∉ part.toList
  slashless : '/' ∉ part.toList

instance : DecidablePred IsPart := fun part =>
  decidable_of_iff (part ≠ "" ∧ '.' ∉ part.toList ∧ '/' ∉ part.toList)
    ⟨fun ⟨hne, hdot, hslash⟩ => ⟨hne, hdot, hslash⟩,
      fun h => ⟨h.nonempty, h.dotless, h.slashless⟩⟩

theorem IsPart.isFileName {part : String} (h : IsPart part) : IsFileName part :=
  .of_dotless h.nonempty h.dotless h.slashless

theorem dottedParts_intercalate {parts : List String} (hne : parts ≠ [])
    (h : ∀ part ∈ parts, '.' ∉ part.toList) : dottedParts (".".intercalate parts) = parts := by
  have hdot : ".".toList = ['.'] := rfl
  have hsplit : splitAt '.' (".".intercalate parts).toList = parts.map (·.toList) := by
    rw [String.toList_intercalate, hdot]
    refine splitAt_intercalate (by simpa using hne) fun part hpart => ?_
    obtain ⟨name, hname, rfl⟩ := List.mem_map.mp hpart
    exact h name hname
  rw [dottedParts, hsplit, List.map_map]
  simp [Function.comp_def]

theorem intercalate_concat_append (separator ending last : String) (parts : List String) :
    separator.intercalate (parts ++ [last ++ ending]) =
      separator.intercalate (parts ++ [last]) ++ ending := by
  by_cases hparts : parts = []
  · simp [hparts]
  · rw [String.intercalate_append_of_ne_nil hparts (by simp),
      String.intercalate_append_of_ne_nil hparts (by simp)]
    simp [String.append_assoc]

theorem modulePath_intercalate {parts : List String} (hne : parts ≠ [])
    (h : ∀ part ∈ parts, IsPart part) :
    modulePath (".".intercalate parts) = "/".intercalate parts ++ ".py" := by
  have hpath : Path.ofSegments parts = ⟨"", parts⟩ := by
    rw [Path.ofSegments, foldl_extend_parts {} fun part hpart =>
      ⟨(h part hpart).dotless, (h part hpart).slashless⟩,
      List.filter_eq_self.mpr fun part hpart => by simpa using (h part hpart).nonempty]
    rfl
  rw [modulePath, dottedParts_intercalate hne fun part hpart => (h part hpart).dotless, hpath,
    Path.text_of_names hne fun part hpart => (h part hpart).isFileName]

theorem modulePath_isUnitPath {moduleName : String} (h : '/' ∉ moduleName.toList) :
    ∃ dirs leaf, IsUnitPath (modulePath moduleName) dirs leaf := by
  have hplain := dottedParts_plain h
  have hparts : Path.ofSegments (dottedParts moduleName) =
      ⟨"", (dottedParts moduleName).filter (· ≠ "")⟩ := foldl_extend_parts {} hplain
  have hnames : ∀ part ∈ (dottedParts moduleName).filter (· ≠ ""),
      part ≠ "" ∧ '.' ∉ part.toList ∧ '/' ∉ part.toList := by
    intro part hpart
    obtain ⟨hmem, hne⟩ := List.mem_filter.mp hpart
    exact ⟨by simpa using hne, hplain part hmem⟩
  unfold modulePath
  rw [hparts]
  generalize (dottedParts moduleName).filter (· ≠ "") = parts at hnames
  rcases List.eq_nil_or_concat parts with rfl | ⟨dirs, last, rfl⟩
  · exact ⟨[], "..py", rfl, by simp, by decide⟩
  · rw [List.concat_eq_append] at hnames ⊢
    have hlast := hnames last (by simp)
    refine ⟨dirs, last ++ ".py", ?_, fun dir hdir => hnames dir (by simp [hdir]), ?_, ?_⟩
    · rw [Path.text_of_names (by simp) fun part hpart =>
        .of_dotless (hnames part hpart).1 (hnames part hpart).2.1 (hnames part hpart).2.2,
        intercalate_concat_append]
    · rw [String.toList_append, List.mem_append, not_or]
      exact ⟨hlast.2.2, by decide⟩
    · rw [String.toList_append]
      exact List.suffix_append _ _

/-- Modules have files of their own if no component of their names is empty. An empty component is
dropped on the way from a name to a path. -/
theorem modulePath_injective {first second : String} (hfirst : '/' ∉ first.toList)
    (hsecond : '/' ∉ second.toList) (hparts : "" ∉ dottedParts first)
    (hparts' : "" ∉ dottedParts second) (hpath : modulePath first = modulePath second) :
    first = second := by
  have hnames {moduleName : String} (hslash : '/' ∉ moduleName.toList)
      (hempty : "" ∉ dottedParts moduleName) : ∀ part ∈ dottedParts moduleName, IsPart part :=
    fun part hpart => ⟨fun heq => hempty (heq ▸ hpart), (dottedParts_plain hslash part hpart).1,
      (dottedParts_plain hslash part hpart).2⟩
  have hread {moduleName : String} (hslash : '/' ∉ moduleName.toList)
      (hempty : "" ∉ dottedParts moduleName) :
      Path.components ("/".intercalate (dottedParts moduleName)).toList = dottedParts moduleName :=
    Path.components_intercalate (dottedParts_ne_nil moduleName) fun part hpart =>
      (hnames hslash hempty part hpart).isFileName
  have htext : "/".intercalate (dottedParts first) = "/".intercalate (dottedParts second) := by
    rw [← intercalate_dottedParts first, ← intercalate_dottedParts second,
      modulePath_intercalate (dottedParts_ne_nil first) (hnames hfirst hparts),
      modulePath_intercalate (dottedParts_ne_nil second) (hnames hsecond hparts')] at hpath
    have hlist := congrArg String.toList hpath
    rw [String.toList_append, String.toList_append] at hlist
    exact String.toList_injective (List.append_cancel_right hlist)
  rw [← intercalate_dottedParts first, ← intercalate_dottedParts second, ← hread hfirst hparts,
    ← hread hsecond hparts', htext]

end Naming
end ElementBinding
