import ElementBinding.Naming
import ElementBinding.Proofs.Text.Lines

/-!
# Paths made of names

A name is what a directory can hold: not empty, no dot or double dot, and without slashes. Joining
names with slashes and reading the text as a segment gives the names back, so a path below a root is
told by its text.
-/
namespace ElementBinding
open ElementBinding.Text

/-- A text that can name a file or a directory. -/
structure IsFileName (name : String) : Prop where
  nonempty : name ≠ ""
  notDot : name ≠ "."
  notDots : name ≠ ".."
  slashless : '/' ∉ name.toList

instance : DecidablePred IsFileName := fun name =>
  decidable_of_iff (name ≠ "" ∧ name ≠ "." ∧ name ≠ ".." ∧ '/' ∉ name.toList)
    ⟨fun ⟨hne, hdot, hdots, hslash⟩ => ⟨hne, hdot, hdots, hslash⟩,
      fun h => ⟨h.nonempty, h.notDot, h.notDots, h.slashless⟩⟩

theorem IsFileName.of_dotless {name : String} (hne : name ≠ "") (hdot : '.' ∉ name.toList)
    (hslash : '/' ∉ name.toList) : IsFileName name := by
  refine ⟨hne, ?_, ?_, hslash⟩ <;> rintro rfl <;> exact hdot (by decide)

namespace Path

theorem toList_intercalate (names : List String) :
    ("/".intercalate names).toList = ['/'].intercalate (names.map (·.toList)) := by
  rw [String.toList_intercalate]
  rfl

theorem components_intercalate {names : List String} (hne : names ≠ [])
    (h : ∀ name ∈ names, IsFileName name) :
    components ("/".intercalate names).toList = names := by
  have hparts : splitAt '/' ("/".intercalate names).toList = names.map (·.toList) := by
    rw [toList_intercalate]
    refine splitAt_intercalate (by simpa using hne) fun part hpart => ?_
    obtain ⟨name, hname, rfl⟩ := List.mem_map.mp hpart
    exact (h name hname).slashless
  unfold components
  rw [hparts, List.filter_eq_self.mpr, List.map_map]
  · simp [Function.comp_def]
  · intro part hpart
    obtain ⟨name, hname, rfl⟩ := List.mem_map.mp hpart
    have hnonempty : name.toList ≠ [] := fun hnil =>
      (h name hname).nonempty (String.toList_eq_nil_iff.mp hnil)
    have hdot : name.toList ≠ ['.'] := fun hdot =>
      (h name hname).notDot (String.toList_injective hdot)
    simp [hnonempty, hdot]

private theorem splitRoot_of_head {segment : List Char} (h : segment.head? ≠ some '/') :
    splitRoot segment = ("", segment) := by
  have hbody : segment.dropWhile (· = '/') = segment := by
    cases segment with
    | nil => rfl
    | cons c rest =>
      have hc : c ≠ '/' := fun hc => h (congrArg some hc)
      simp [hc]
  simp [splitRoot, hbody]

private theorem head?_intercalate {names : List String} (h : ∀ name ∈ names, IsFileName name) :
    ("/".intercalate names).toList.head? ≠ some '/' := by
  cases names with
  | nil => simp
  | cons first rest =>
    have hfirst := h first List.mem_cons_self
    rw [toList_intercalate]
    cases hchars : first.toList with
    | nil => exact absurd (String.toList_eq_nil_iff.mp hchars) hfirst.nonempty
    | cons c more =>
      have hc : c ≠ '/' := by
        rintro rfl
        exact hfirst.slashless (by rw [hchars]; exact List.mem_cons_self)
      cases rest with
      | nil => simpa [hchars] using hc
      | cons second others => simpa [hchars, List.intercalate_cons_cons] using hc

theorem extend_intercalate (base : Path) {names : List String} (hne : names ≠ [])
    (h : ∀ name ∈ names, IsFileName name) :
    base.extend ("/".intercalate names) = { base with parts := base.parts ++ names } := by
  unfold extend
  rw [splitRoot_of_head (head?_intercalate h)]
  simp only [if_true, components_intercalate hne h]

/-- What a text spells between its slashes: components that can be names, but for double dots. -/
theorem mem_components {body : List Char} {name : String} (h : name ∈ components body) :
    name ≠ "" ∧ name ≠ "." ∧ '/' ∉ name.toList := by
  obtain ⟨part, hpart, rfl⟩ := List.mem_map.mp h
  obtain ⟨hsplit, hkept⟩ := List.mem_filter.mp hpart
  simp only [ne_eq, Bool.and_eq_true, decide_eq_true_eq] at hkept
  rw [String.toList_ofList]
  refine ⟨fun hempty => hkept.1 ?_, fun hdot => hkept.2 ?_, not_mem_of_mem_splitAt hsplit⟩
  · simpa using congrArg String.toList hempty
  · simpa using congrArg String.toList hdot

theorem extend_of_relative {base : Path} {segment : String} (h : (base.extend segment).root = "") :
    ∃ names, base.extend segment = { base with parts := base.parts ++ names } ∧
      ∀ name ∈ names, name ≠ "" ∧ name ≠ "." ∧ '/' ∉ name.toList := by
  unfold extend at h ⊢
  dsimp only at h ⊢
  split at h
  · rename_i hroot
    rw [if_pos hroot]
    exact ⟨_, rfl, fun name hname => mem_components hname⟩
  · rename_i hroot
    exact absurd h hroot

theorem text_of_names {names : List String} (hne : names ≠ [])
    (h : ∀ name ∈ names, IsFileName name) : (⟨"", names⟩ : Path).text = "/".intercalate names := by
  have hbody : "/".intercalate names ≠ "" := by
    intro hempty
    have hnames := components_intercalate hne h
    rw [hempty] at hnames
    exact hne (by rw [← hnames]; rfl)
  simp [text, hbody]

/-- Relative paths of names are told apart by their texts. -/
theorem eq_of_text {first second : Path} (hrelative : first.root = "")
    (hrelative' : second.root = "") (hne : first.parts ≠ []) (hne' : second.parts ≠ [])
    (hnames : ∀ name ∈ first.parts, IsFileName name)
    (hnames' : ∀ name ∈ second.parts, IsFileName name) (htext : first.text = second.text) :
    first = second := by
  obtain ⟨_, names⟩ := first
  obtain ⟨_, names'⟩ := second
  simp only at hrelative hrelative' hne hne' hnames hnames'
  subst hrelative hrelative'
  rw [text_of_names hne hnames, text_of_names hne' hnames'] at htext
  rw [← components_intercalate hne hnames, htext, components_intercalate hne' hnames']

end Path

/-- The path of a unit's file: directories without dots, and a file with the ending of a source. -/
structure IsUnitPath (path : String) (dirs : List String) (leaf : String) : Prop where
  text : path = "/".intercalate (dirs ++ [leaf])
  dirs : ∀ dir ∈ dirs, dir ≠ "" ∧ '.' ∉ dir.toList ∧ '/' ∉ dir.toList
  leaf : '/' ∉ leaf.toList ∧ ".py".toList <:+ leaf.toList

namespace IsUnitPath
variable {path leaf : String} {dirs : List String}

theorem names (h : IsUnitPath path dirs leaf) : ∀ name ∈ dirs ++ [leaf], IsFileName name := by
  intro name hname
  rcases List.mem_append.mp hname with hname | hname
  · obtain ⟨hnonempty, hdot, hslash⟩ := h.dirs name hname
    exact .of_dotless hnonempty hdot hslash
  · obtain rfl := List.mem_singleton.mp hname
    obtain ⟨hslash, hending⟩ := h.leaf
    refine ⟨?_, ?_, ?_, hslash⟩ <;> rintro rfl <;> exact absurd hending (by decide)

theorem extend (h : IsUnitPath path dirs leaf) (base : Path) :
    base.extend path = { base with parts := base.parts ++ (dirs ++ [leaf]) } := by
  rw [h.text, Path.extend_intercalate base (by simp) h.names]

theorem text_eq (h : IsUnitPath path dirs leaf) : (⟨"", dirs ++ [leaf]⟩ : Path).text = path := by
  rw [Path.text_of_names (by simp) h.names, h.text]

theorem dotless (h : IsUnitPath path dirs leaf) : ∀ dir ∈ dirs, '.' ∉ dir.toList :=
  fun dir hdir => (h.dirs dir hdir).2.1

theorem notDots (h : IsUnitPath path dirs leaf) : ".." ∉ dirs ++ [leaf] :=
  fun hmem => (h.names _ hmem).notDots rfl

end IsUnitPath

end ElementBinding
