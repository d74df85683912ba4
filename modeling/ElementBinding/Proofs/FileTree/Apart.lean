import ElementBinding.Proofs.FileTree.Contents

/-!
# Trees that differ at some places

A path reads the places it passes and no others. So trees that agree but for some places look the
same along a path that passes none of them, and writing along such a path leaves trees that agree
but for these places again. Taking files out of a tree gives a tree that agrees with it but for
their places.
-/
namespace ElementBinding

/-- A place that a path is followed through, or leads to. -/
def Path.Passes (path : Path) (place : Location) : Prop :=
  ∃ front, front <+: path.parts ∧ FileTree.arrive [] front = place

instance (path : Path) (place : Location) : Decidable (path.Passes place) :=
  decidable_of_iff (∃ front ∈ path.parts.inits, FileTree.arrive [] front = place)
    (by simp only [Path.Passes, List.mem_inits])

def Path.Avoids (path : Path) (places : List Location) : Prop :=
  ∀ place ∈ places, ¬path.Passes place

instance (path : Path) (places : List Location) : Decidable (path.Avoids places) :=
  inferInstanceAs (Decidable (∀ place ∈ places, ¬path.Passes place))

namespace Path.Avoids
variable {path : Path} {places : List Location}

theorem beginning (h : path.Avoids places) {front : List String} (hfront : front <+: path.parts) :
    Path.Avoids ⟨path.root, front⟩ places :=
  fun place hplace ⟨first, hfirst, harrive⟩ =>
    h place hplace ⟨first, hfirst.trans hfront, harrive⟩

theorem arrive_not_mem (h : path.Avoids places) {front : List String}
    (hfront : front <+: path.parts) : FileTree.arrive [] front ∉ places :=
  fun hmem => h _ hmem ⟨front, hfront, rfl⟩

theorem place_not_mem (h : path.Avoids places) : path.place ∉ places :=
  h.arrive_not_mem (List.prefix_refl _)

theorem parent (h : path.Avoids places) : path.parent.Avoids places :=
  h.beginning (List.dropLast_prefix _)

end Path.Avoids

namespace FileTree

/-- What stands in two trees is the same but for some places. -/
def AgreeBut (places : List Location) (before after : FileTree) : Prop :=
  ∀ place, place ∉ places → after.lookup place = before.lookup place

namespace AgreeBut
variable {places : List Location} {before after : FileTree} {path : Path}

theorem symm (h : AgreeBut places before after) : AgreeBut places after before :=
  fun place hplace => (h place hplace).symm

private theorem follow_eq (h : AgreeBut places before after) {here : Location} {parts : List String}
    (hparts : ∀ front, front <+: parts → arrive here front ∉ places) :
    after.follow here parts = before.follow here parts := by
  induction parts generalizing here with
  | nil => rfl
  | cons component rest ih =>
    rw [follow_cons, follow_cons, h here (hparts [] List.nil_prefix)]
    have hrest := @ih (descend here component) fun front hfront =>
      hparts (component :: front) (List.cons_prefix_cons.mpr ⟨rfl, hfront⟩)
    rw [hrest]

theorem locate_eq (h : AgreeBut places before after) (hpath : path.Avoids places) :
    after.locate path = before.locate path := by
  unfold locate
  split
  · exact h.follow_eq fun front hfront => hpath.arrive_not_mem hfront
  · rfl

theorem lookup_eq (h : AgreeBut places before after) (hpath : path.Avoids places) {place : Location}
    (hlocate : before.locate path = .ok place) : after.lookup place = before.lookup place := by
  rw [(place_of_locate hlocate).1]
  exact h _ hpath.place_not_mem

theorem find?_eq (h : AgreeBut places before after) (hpath : path.Avoids places) :
    after.find? path = before.find? path := by
  unfold find?
  rw [h.locate_eq hpath]
  cases hlocate : before.locate path with
  | error condition => rfl
  | ok place => exact h.lookup_eq hpath hlocate

theorem put (h : AgreeBut places before after) {location : Location} (hroot : location ≠ [])
    (entry : Entry) : AgreeBut places (before.put location entry) (after.put location entry) := by
  intro place hplace
  rw [lookup_put hroot, lookup_put hroot, h place hplace]

theorem apply (h : AgreeBut places before after) {step : Step} (hstep : ∀ path, step ≠ .delete path)
    (hpath : step.path.Avoids places) :
    match before.apply step with
    | .error fault => after.apply step = .error fault
    | .ok next => ∃ next', after.apply step = .ok next' ∧ AgreeBut places next next' := by
  rw [apply_eq before hstep, apply_eq after hstep, h.locate_eq hpath]
  cases hlocate : before.locate step.path with
  | error condition => rfl
  | ok location =>
    dsimp only
    rw [h.lookup_eq hpath hlocate]
    rcases heffect : step.effect (before.lookup location) with condition | _ | entry
    · rfl
    · exact ⟨_, rfl, h⟩
    · refine ⟨_, rfl, h.put ?_ entry⟩
      rintro rfl
      cases step <;> simp [Step.effect] at heffect

theorem applyAll (h : AgreeBut places before after) {steps : List Step}
    (hsteps : ∀ step ∈ steps, (∀ path, step ≠ .delete path) ∧ step.path.Avoids places) :
    (after.applyAll steps).2 = (before.applyAll steps).2 ∧
      AgreeBut places (before.applyAll steps).1 (after.applyAll steps).1 := by
  induction steps generalizing before after with
  | nil => exact ⟨rfl, h⟩
  | cons step rest ih =>
    obtain ⟨hstep, hrest⟩ := List.forall_mem_cons.mp hsteps
    have hfirst := h.apply hstep.1 hstep.2
    unfold FileTree.applyAll
    cases hbefore : before.apply step with
    | error fault =>
      rw [hbefore] at hfirst
      rw [hfirst]
      exact ⟨rfl, h⟩
    | ok next =>
      rw [hbefore] at hfirst
      obtain ⟨next', hafter, hnext⟩ := hfirst
      rw [hafter]
      exact ih hnext hrest

private theorem mem_beginnings {root : String} {parts : List String} {path : Path}
    (hpath : path ∈ beginnings root parts) : path.root = root ∧ path.parts <+: parts := by
  obtain ⟨n, -, rfl⟩ := List.mem_map.mp hpath
  exact ⟨rfl, List.take_prefix _ _⟩

theorem makeDirectories_eq (h : AgreeBut places before after) (hpath : path.Avoids places) :
    after.makeDirectories path = before.makeDirectories path := by
  unfold makeDirectories
  rw [h.find?_eq hpath, h.locate_eq hpath]
  have hbeginnings : ((beginnings path.root path.parts).filter fun beginning =>
      !after.isDirectory beginning) = (beginnings path.root path.parts).filter fun beginning =>
      !before.isDirectory beginning := by
    refine List.filter_congr fun beginning hmem => ?_
    obtain ⟨hroot, hparts⟩ := mem_beginnings hmem
    have havoids : beginning.Avoids places := by
      have hfront := hpath.beginning hparts
      rwa [← hroot] at hfront
    rw [isDirectory, isDirectory, h.find?_eq havoids]
  rw [hbeginnings]

theorem writeSteps_eq (h : AgreeBut places before after) (hpath : path.Avoids places)
    (octets : Text.Octets) : after.writeSteps path octets = before.writeSteps path octets := by
  rw [writeSteps, writeSteps, h.makeDirectories_eq hpath.parent]

private theorem makeDirectories_avoids (tree : FileTree) (hpath : path.Avoids places) :
    ∀ step ∈ tree.makeDirectories path, (∀ path, step ≠ .delete path) ∧
      step.path.Avoids places := by
  intro step hstep
  unfold makeDirectories at hstep
  split at hstep
  · simp at hstep
  · obtain rfl := List.mem_singleton.mp hstep
    exact ⟨by simp, hpath⟩
  · obtain rfl := List.mem_singleton.mp hstep
    exact ⟨by simp, hpath⟩
  · obtain ⟨beginning, hmem, rfl⟩ := List.mem_map.mp hstep
    obtain ⟨hroot, hparts⟩ := mem_beginnings (List.mem_filter.mp hmem).1
    have hfront := hpath.beginning hparts
    rw [← hroot] at hfront
    exact ⟨by simp, hfront⟩

theorem write (h : AgreeBut places before after) (hpath : path.Avoids places)
    (octets : Text.Octets) :
    (after.applyAll (after.writeSteps path octets)).2 =
        (before.applyAll (before.writeSteps path octets)).2 ∧
      AgreeBut places (before.applyAll (before.writeSteps path octets)).1
        (after.applyAll (after.writeSteps path octets)).1 := by
  rw [h.writeSteps_eq hpath]
  refine h.applyAll fun step hstep => ?_
  rcases List.mem_append.mp hstep with hmake | hwrite
  · exact makeDirectories_avoids before hpath.parent step hmake
  · rcases List.mem_pair.mp hwrite with rfl | rfl
    · exact ⟨by simp, hpath⟩
    · exact ⟨by simp, hpath⟩

end AgreeBut

/-- The tree without what is listed at some places. -/
def without (tree : FileTree) (places : List Location) : FileTree :=
  ⟨tree.entries.filter fun entry => entry.1 ∉ places⟩

theorem lookup_without (tree : FileTree) {places : List Location} {place : Location}
    (hroot : place ≠ []) :
    (tree.without places).lookup place = if place ∈ places then none else tree.lookup place := by
  unfold lookup without
  rw [if_neg hroot, if_neg hroot, List.find?_filter]
  by_cases hplace : place ∈ places
  · rw [if_pos hplace, List.find?_eq_none.mpr, Option.map_none]
    intro entry _ hentry
    simp only [decide_eq_true_eq] at hentry
    exact hentry.1 (hentry.2 ▸ hplace)
  · rw [if_neg hplace]
    congr 2
    funext entry
    by_cases hentry : entry.1 = place
    · simp [hentry, hplace]
    · simp [hentry]

theorem agreeBut_without (tree : FileTree) (places : List Location) :
    AgreeBut places tree (tree.without places) := by
  intro place hplace
  by_cases hroot : place = []
  · rw [hroot, lookup_nil, lookup_nil]
  · rw [lookup_without tree hroot, if_neg hplace]

section

variable {tree : FileTree} {places : List Location}
  (hfiles : ∀ place ∈ places, ∃ content, tree.lookup place = some (.file content))

include hfiles

theorem lookup_without_of_files (place : Location) :
    (tree.without places).lookup place = if place ∈ places then none else tree.lookup place := by
  by_cases hroot : place = []
  · subst place
    have hnot : [] ∉ places := fun hmem => by
      obtain ⟨content, hfile⟩ := hfiles [] hmem
      simp at hfile
    rw [if_neg hnot, lookup_nil, lookup_nil]
  · exact lookup_without tree hroot

theorem lookup_without_eq_directory_iff (place : Location) :
    (tree.without places).lookup place = some .directory ↔
      tree.lookup place = some .directory := by
  rw [lookup_without_of_files hfiles]
  split
  · rename_i hplace
    obtain ⟨content, hfile⟩ := hfiles place hplace
    simp [hfile]
  · rfl

theorem keeps_without : Keeps tree (tree.without places) ∧ Keeps (tree.without places) tree :=
  ⟨fun place => (lookup_without_eq_directory_iff hfiles place).mpr,
    fun place => (lookup_without_eq_directory_iff hfiles place).mp⟩

theorem locate_without_eq_ok_iff {path : Path} {place : Location} :
    (tree.without places).locate path = .ok place ↔ tree.locate path = .ok place :=
  ⟨(keeps_without hfiles).2.locate, (keeps_without hfiles).1.locate⟩

theorem Nested.without (h : tree.Nested) : (tree.without places).Nested where
  distinct := h.distinct.sublist (List.filter_sublist.map _)
  enclosed := fun place name hplace => by
    rw [lookup_without_of_files hfiles] at hplace
    rw [lookup_without_eq_directory_iff hfiles]
    exact h.enclosed place name fun hnone => hplace (by simp [hnone])
  plain := fun place hplace => by
    rw [lookup_without_of_files hfiles] at hplace
    exact h.plain place fun hnone => hplace (by simp [hnone])

end

end FileTree

end ElementBinding
