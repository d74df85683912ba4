import ElementBinding.Proofs.FileTree.Steps
import ElementBinding.Proofs.Path

/-!
# Workspaces

A workspace is a file tree in which every entry stands once, in a directory, and under names. Paths
that are spelled by texts have names for components, but for double dots. Steps along such paths
lead from a workspace to a workspace, and so a tree that is built by them is one.
-/
namespace ElementBinding
open ElementBinding.Text

/-- The components of a path are names or double dots. -/
def Path.Spelled (path : Path) : Prop := ∀ name ∈ path.parts, name ≠ ".." → IsFileName name

namespace Path
variable {path : Path}

theorem spelled_empty : ({} : Path).Spelled := fun _ hname => nomatch hname

theorem Spelled.extend (h : path.Spelled) (segment : String) : (path.extend segment).Spelled := by
  have hcomponents {body : List Char} {name : String} (hname : name ∈ components body)
      (hdots : name ≠ "..") : IsFileName name := by
    obtain ⟨hnonempty, hdot, hslash⟩ := mem_components hname
    exact ⟨hnonempty, hdot, hdots, hslash⟩
  intro name hname hdots
  unfold Path.extend at hname
  dsimp only at hname
  split at hname
  · rcases List.mem_append.mp hname with hname | hname
    · exact h name hname hdots
    · exact hcomponents hname hdots
  · exact hcomponents hname hdots

/-- A path that a text spells has names for components. -/
theorem spelled_ofText (text : String) : (Path.ofText text).Spelled := spelled_empty.extend text

theorem spelled_of_map {text : Option String} (h : text.map .ofText = some path) :
    path.Spelled := by
  obtain ⟨spelling, -, rfl⟩ := Option.map_eq_some_iff.mp h
  exact spelled_ofText spelling

theorem Spelled.take (h : path.Spelled) {root : String} {parts : List String}
    (hparts : parts ⊆ path.parts) : Path.Spelled ⟨root, parts⟩ :=
  fun name hname hdots => h name (hparts hname) hdots

end Path

namespace FileTree

/-- The step makes no entry but under names. -/
def Step.Spelled (step : Step) : Prop := (∀ path, step ≠ .delete path) → step.path.Spelled

/-- A tree whose places are spelled with names. -/
structure WellFormed (tree : FileTree) : Prop extends tree.Nested where
  named : ∀ place, tree.lookup place ≠ none → ∀ name ∈ place, IsFileName name

variable {tree next : FileTree}

/-- What holds of the places that are listed holds wherever something stands. -/
theorem forall_places {P : Location → Prop} (h : ∀ entry ∈ tree.entries, P entry.1) (hroot : P []) :
    ∀ place, tree.lookup place ≠ none → P place := by
  intro place hplace
  by_cases hnil : place = []
  · exact hnil ▸ hroot
  · obtain ⟨entry, hentry, rfl⟩ := List.mem_map.mp ((mem_places_iff tree hnil).mpr hplace)
    exact h entry hentry

theorem makeDirectories_spelled {path : Path} (h : path.Spelled) :
    ∀ step ∈ tree.makeDirectories path, step.Spelled := by
  intro step hstep
  unfold makeDirectories at hstep
  split at hstep
  · simp at hstep
  · rw [List.mem_singleton.mp hstep]
    exact fun _ => h
  · rw [List.mem_singleton.mp hstep]
    exact fun _ => h
  · obtain ⟨beginning, hbeginning, rfl⟩ := List.mem_map.mp hstep
    obtain ⟨count, -, rfl⟩ := List.mem_map.mp (List.mem_of_mem_filter hbeginning)
    exact fun _ => h.take (List.take_subset _ _)

theorem writeSteps_spelled {path : Path} (h : path.Spelled) (octets : Octets) :
    ∀ step ∈ tree.writeSteps path octets, step.Spelled := by
  intro step hstep
  rcases List.mem_append.mp hstep with hstep | hstep
  · exact makeDirectories_spelled (h.take (List.dropLast_subset _)) step hstep
  · simp only [List.mem_cons, List.not_mem_nil, or_false] at hstep
    rcases hstep with rfl | rfl <;> exact fun _ => h

namespace WellFormed

/-- A tree is well formed if each of its entries stands in a directory and under a name. -/
theorem of_entries (hdistinct : (tree.entries.map (·.1)).Nodup)
    (hentries : ∀ entry ∈ tree.entries, tree.lookup entry.1.dropLast = some .directory ∧
      ∀ name ∈ entry.1, IsFileName name) : tree.WellFormed where
  distinct := hdistinct
  enclosed := fun place name hplace => by
    have habove := forall_places (P := fun place => tree.lookup place.dropLast = some .directory)
      (fun entry hentry => (hentries entry hentry).1) rfl _ hplace
    rwa [List.dropLast_concat] at habove
  plain := fun place hplace hdots =>
    (forall_places (P := fun place => ∀ name ∈ place, IsFileName name)
      (fun entry hentry => (hentries entry hentry).2) (by simp) place hplace _ hdots).notDots rfl
  named := forall_places (fun entry hentry => (hentries entry hentry).2) (by simp)

theorem put (h : tree.WellFormed) {path : Path} (hspelled : path.Spelled) {place : Location}
    (hlocate : tree.locate path = .ok place) (hfree : tree.lookup place ≠ some .directory)
    (entry : Entry) : (tree.put place entry).WellFormed := by
  obtain ⟨above, name, rfl, habove, hdots⟩ := h.above_of_locate hlocate hfree
  have hname : name ∈ path.parts := by
    obtain ⟨outer, names, heq, houter, hnames⟩ := exists_arrive_eq [] path.parts
    obtain rfl := List.prefix_nil.mp houter
    refine hnames ?_
    rw [← List.nil_append names, ← heq, ← Path.place, ← (place_of_locate hlocate).1]
    simp
  refine ⟨h.toNested.put entry habove hdots hfree, fun other hother => ?_⟩
  rw [lookup_put (by simp)] at hother
  by_cases hsame : other = above ++ [name]
  · rw [hsame, List.forall_mem_append, List.forall_mem_singleton]
    exact ⟨h.named above (by simp [habove]), hspelled name hname hdots⟩
  · rw [if_neg hsame] at hother
    exact h.named other hother

theorem erase_file (h : tree.WellFormed) {place : Location} {content : Octets}
    (hplace : tree.lookup place = some (.file content)) : (tree.erase place).WellFormed := by
  refine ⟨h.toNested.erase_file hplace, fun other hother => ?_⟩
  rw [h.lookup_erase_file hplace] at hother
  by_cases hsame : other = place
  · simp [hsame] at hother
  · rw [if_neg hsame] at hother
    exact h.named other hother

theorem apply (h : tree.WellFormed) {step : Step} (hspelled : step.Spelled)
    (happly : tree.apply step = .ok next) : next.WellFormed := by
  by_cases hdelete : ∃ path, step = .delete path
  · obtain ⟨path, rfl⟩ := hdelete
    obtain ⟨place, content, -, hplace, rfl⟩ := delete_eq_ok_iff.mp happly
    exact h.erase_file hplace
  · have hstep : ∀ path, step ≠ .delete path := not_exists.mp hdelete
    obtain rfl | ⟨place, entry, hlocate, hfree, -, rfl⟩ := apply_cases hstep happly
    · exact h
    · exact h.put (hspelled hstep) hlocate hfree entry

theorem applyAll (h : tree.WellFormed) {steps : List Step}
    (hspelled : ∀ step ∈ steps, step.Spelled) :
    (tree.applyAll steps).1.WellFormed := by
  induction steps generalizing tree with
  | nil => exact h
  | cons step rest ih =>
    rw [FileTree.applyAll]
    cases happly : tree.apply step with
    | error fault => exact h
    | ok next =>
      exact ih (h.apply (hspelled step List.mem_cons_self) happly)
        fun other hother => hspelled other (List.mem_cons_of_mem _ hother)

theorem place (h : tree.WellFormed) {path : Path} (hspelled : path.Spelled)
    (content : Option Octets) : (tree.place path content).WellFormed := by
  cases content with
  | none => exact h.applyAll (makeDirectories_spelled hspelled)
  | some octets => exact h.applyAll (writeSteps_spelled hspelled octets)

end WellFormed

end FileTree

/-- A file tree in which passes run. -/
structure Workspace extends FileTree where
  formed : toFileTree.WellFormed

instance : Coe Workspace FileTree := ⟨Workspace.toFileTree⟩

theorem FileTree.wellFormed_empty : ({} : FileTree).WellFormed :=
  .of_entries (by decide) (by decide)

end ElementBinding
