import ElementBinding.FileTree
import ElementBinding.Proofs.Pairs

/-!
# Places of a file tree

What stands where after an entry is put or erased, where a path leads to, and the trees in which
every entry stands in a directory. A path that has been followed once can be followed as long as no
directory goes away.
-/
namespace ElementBinding

namespace FileTree

@[simp] theorem lookup_nil (tree : FileTree) : tree.lookup [] = some .directory := rfl

theorem lookup_put {location : Location} (h : location ≠ []) (tree : FileTree) (entry : Entry)
    (place : Location) :
    (tree.put location entry).lookup place =
      if place = location then some entry else tree.lookup place := by
  by_cases hroot : place = []
  · subst place
    rw [lookup_nil, lookup_nil, if_neg (Ne.symm h)]
  · have hput := Pairs.find?_replaced_or_added tree.entries location place entry
    unfold lookup put
    rw [if_neg hroot, if_neg hroot, ← hput]
    split <;> rfl

theorem lookup_erase (tree : FileTree) {location : Location} (h : location ≠ [])
    (place : Location) :
    (tree.erase location).lookup place =
      if location <+: place then none else tree.lookup place := by
  by_cases hroot : place = []
  · subst place
    rw [lookup_nil, lookup_nil, if_neg (fun hpre => h (List.prefix_nil.mp hpre))]
  · unfold lookup erase
    rw [if_neg hroot, if_neg hroot, List.find?_filter]
    by_cases hpre : location <+: place
    · rw [if_pos hpre, List.find?_eq_none.mpr, Option.map_none]
      intro entry _ hentry
      simp only [decide_eq_true_eq, Bool.not_eq_true'] at hentry
      rw [hentry.2, List.isPrefixOf_iff_prefix.mpr hpre] at hentry
      simp at hentry
    · have hfalse : location.isPrefixOf place = false :=
        Bool.eq_false_iff.mpr fun h => hpre (List.isPrefixOf_iff_prefix.mp h)
      rw [if_neg hpre]
      congr 2
      funext entry
      by_cases hentry : entry.1 = place
      · simp [hentry, hfalse]
      · simp [hentry]

theorem mem_places_iff (tree : FileTree) {place : Location} (h : place ≠ []) :
    place ∈ tree.entries.map (·.1) ↔ tree.lookup place ≠ none := by
  rw [lookup, if_neg h, Ne, Option.map_eq_none_iff, List.find?_eq_none]
  simp

/-- The place that a component leads to from a directory. -/
def descend (here : Location) (component : String) : Location :=
  if component = ".." then here.dropLast else here ++ [component]

/-- The place that components lead to, if all places on the way are directories. -/
def arrive (here : Location) (parts : List String) : Location := parts.foldl descend here

theorem arrive_append (here : Location) (first rest : List String) :
    arrive here (first ++ rest) = arrive (arrive here first) rest := List.foldl_append

theorem arrive_of_not_mem {parts : List String} (h : ".." ∉ parts) (here : Location) :
    arrive here parts = here ++ parts := by
  induction parts generalizing here with
  | nil => exact (List.append_nil here).symm
  | cons name rest ih =>
    simp only [List.mem_cons, not_or] at h
    rw [arrive, List.foldl_cons, ← arrive, descend, if_neg (Ne.symm h.1), ih h.2]
    simp

/-- Components lead to a place above or at the first one, and from there down by some of them. -/
theorem exists_arrive_eq (here : Location) (parts : List String) :
    ∃ above names, arrive here parts = above ++ names ∧ above <+: here ∧ names ⊆ parts := by
  induction parts using List.reverseRecOn with
  | nil => exact ⟨here, [], by simp [arrive], List.prefix_rfl, List.nil_subset _⟩
  | append_singleton init component ih =>
    obtain ⟨above, names, heq, habove, hnames⟩ := ih
    have hinit : names ⊆ init ++ [component] :=
      List.Subset.trans hnames (List.subset_append_left _ _)
    have hstep : arrive here (init ++ [component]) = descend (above ++ names) component := by
      rw [arrive_append, heq]
      rfl
    rw [hstep, descend]
    split
    · rcases List.eq_nil_or_concat names with rfl | ⟨front, last, rfl⟩
      · exact ⟨above.dropLast, [], by simp, (List.dropLast_prefix _).trans habove,
          List.nil_subset _⟩
      · rw [List.concat_eq_append] at hinit ⊢
        refine ⟨above, front, ?_, habove, List.Subset.trans (List.subset_append_left _ _) hinit⟩
        rw [← List.append_assoc, List.dropLast_concat]
    · refine ⟨above, names ++ [component], by rw [List.append_assoc], habove, ?_⟩
      exact List.append_subset.mpr ⟨hinit, List.subset_append_right _ _⟩

theorem follow_cons (tree : FileTree) (here : Location) (component : String)
    (rest : List String) :
    tree.follow here (component :: rest) =
      match tree.lookup here with
      | none => .error .notFound
      | some (.file _) => .error .notDirectory
      | some .directory => tree.follow (descend here component) rest := by
  rw [follow]
  rfl

theorem follow_append (tree : FileTree) (here : Location) (first rest : List String) :
    tree.follow here (first ++ rest) =
      match tree.follow here first with
      | .ok middle => tree.follow middle rest
      | .error condition => .error condition := by
  induction first generalizing here with
  | nil => rfl
  | cons component more ih =>
    rw [List.cons_append, follow_cons, follow_cons]
    rcases tree.lookup here with _ | _ | content
    · rfl
    · exact ih (descend here component)
    · rfl

theorem arrive_of_follow {tree : FileTree} {here place : Location} {parts : List String}
    (h : tree.follow here parts = .ok place) : place = arrive here parts := by
  induction parts generalizing here with
  | nil => exact (Except.ok.inj h).symm
  | cons component rest ih =>
    rw [follow_cons] at h
    rcases hhere : tree.lookup here with _ | _ | content
    · simp [hhere] at h
    · rw [hhere] at h
      exact ih h
    · simp [hhere] at h

/-- Directories of one tree are directories of another. -/
def Keeps (before after : FileTree) : Prop :=
  ∀ place, before.lookup place = some .directory → after.lookup place = some .directory

theorem Keeps.refl (tree : FileTree) : Keeps tree tree := fun _ h => h

theorem Keeps.trans {first second third : FileTree} (h : Keeps first second)
    (h' : Keeps second third) : Keeps first third := fun place hplace => h' place (h place hplace)

instance : IsPreorder FileTree Keeps where
  refl := .refl
  trans _ _ _ := .trans

theorem Keeps.follow {before after : FileTree} (h : Keeps before after) {here place : Location}
    {parts : List String} (hfollow : before.follow here parts = .ok place) :
    after.follow here parts = .ok place := by
  induction parts generalizing here with
  | nil => exact hfollow
  | cons component rest ih =>
    rw [follow_cons] at hfollow ⊢
    rcases hhere : before.lookup here with _ | _ | content
    · simp [hhere] at hfollow
    · rw [hhere] at hfollow
      rw [h here hhere]
      exact ih hfollow
    · simp [hhere] at hfollow

theorem Keeps.locate {before after : FileTree} (h : Keeps before after) {path : Path}
    {place : Location} (hlocate : before.locate path = .ok place) :
    after.locate path = .ok place := by
  unfold FileTree.locate at hlocate ⊢
  by_cases hroot : path.root = ""
  · rw [if_pos hroot] at hlocate ⊢
    exact h.follow hlocate
  · simp [hroot] at hlocate

end FileTree

/-- The place that a relative path leads to, if it leads anywhere. -/
def Path.place (path : Path) : Location := FileTree.arrive [] path.parts

namespace FileTree

theorem place_of_locate {tree : FileTree} {path : Path} {place : Location}
    (h : tree.locate path = .ok place) : place = path.place ∧ path.root = "" := by
  unfold locate at h
  by_cases hroot : path.root = ""
  · rw [if_pos hroot] at h
    exact ⟨arrive_of_follow h, hroot⟩
  · simp [hroot] at h

theorem locate_relative (tree : FileTree) {path : Path} (h : path.root = "") :
    tree.locate path = tree.follow [] path.parts := by rw [locate, if_pos h]

/-- A tree in which every entry stands once, in a directory, and under names. -/
structure Nested (tree : FileTree) : Prop where
  distinct : (tree.entries.map (·.1)).Nodup
  enclosed : ∀ place name, tree.lookup (place ++ [name]) ≠ none →
    tree.lookup place = some .directory
  plain : ∀ place, tree.lookup place ≠ none → ".." ∉ place

namespace Nested
variable {tree : FileTree}

theorem directory_above (h : tree.Nested) {place : Location} {names : List String}
    (hnames : names ≠ []) (hplace : tree.lookup (place ++ names) ≠ none) :
    tree.lookup place = some .directory := by
  induction names using List.reverseRecOn with
  | nil => exact absurd rfl hnames
  | append_singleton rest name ih =>
    rw [← List.append_assoc] at hplace
    have hrest := h.enclosed _ _ hplace
    by_cases hnil : rest = []
    · rwa [hnil, List.append_nil] at hrest
    · exact ih hnil (by rw [hrest]; simp)

theorem directory_of_prefix (h : tree.Nested) {place other : Location} (hpre : other <+: place)
    (hne : other ≠ place) (hplace : tree.lookup place ≠ none) :
    tree.lookup other = some .directory := by
  obtain ⟨names, rfl⟩ := hpre
  exact h.directory_above (fun hnil => hne (by rw [hnil, List.append_nil])) hplace

theorem follow_names (h : tree.Nested) {place : Location} {names : List String}
    (hplace : tree.lookup (place ++ names) ≠ none) :
    tree.follow place names = .ok (place ++ names) := by
  induction names generalizing place with
  | nil => rw [follow, List.append_nil]
  | cons name rest ih =>
    have hname : name ≠ ".." := by
      rintro rfl
      exact h.plain _ hplace (by simp)
    rw [follow_cons, h.directory_above (by simp) hplace]
    simp only [descend, if_neg hname]
    have hrest := @ih (place ++ [name]) (by simpa using hplace)
    simpa using hrest

theorem directory_dropLast (h : tree.Nested) {place : Location}
    (hplace : tree.lookup place = some .directory) :
    tree.lookup place.dropLast = some .directory := by
  by_cases hnil : place = []
  · rw [hnil]
    rfl
  · rw [← List.dropLast_append_getLast hnil] at hplace
    exact h.enclosed _ _ (by rw [hplace]; simp)

end Nested

end FileTree

end ElementBinding
