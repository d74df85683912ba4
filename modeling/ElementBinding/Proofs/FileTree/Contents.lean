import ElementBinding.Proofs.FileTree.Steps

/-!
# Contents of files

Which files a tree holds, told apart from its directories: making directories leaves all contents
as they are, a write changes one of them, and deleting files changes only theirs. No step takes a
directory away, so whatever a path leads to it leads to afterwards.
-/
namespace ElementBinding
open ElementBinding.Text

namespace FileTree
variable {tree next before after : FileTree} {place : Location} {octets : Octets}

def content? (tree : FileTree) (place : Location) : Option Octets :=
  match tree.lookup place with
  | some (.file content) => some content
  | _ => none

theorem content?_eq_some_iff : tree.content? place = some octets ↔
    tree.lookup place = some (.file octets) := by
  unfold content?
  split
  · rename_i content hplace
    simp [hplace]
  · rename_i hother
    simp only [reduceCtorEq, false_iff]
    exact hother octets

theorem read_eq_ok_iff {path : Path} : tree.read path = .ok octets ↔
    tree.locate path = .ok path.place ∧ tree.content? path.place = some octets := by
  rw [content?_eq_some_iff, read]
  cases hlocate : tree.locate path with
  | error condition => simp
  | ok place =>
    rw [(place_of_locate hlocate).1]
    rcases hplace : tree.lookup path.place with _ | _ | content <;> simp [hplace]

theorem content?_congr (h : after.lookup place = before.lookup place) :
    after.content? place = before.content? place := by
  unfold content?
  rw [h]

theorem Grown.content? (h : Grown before after) (place : Location) :
    after.content? place = before.content? place := by
  rcases h place with heq | ⟨hnone, hdir⟩
  · exact content?_congr heq
  · simp [FileTree.content?, hnone, hdir]

theorem Wrote.content? {written : Location} (h : Wrote before after written octets)
    (place : Location) :
    after.content? place = if place = written then some octets else before.content? place := by
  by_cases hsame : place = written
  · rw [if_pos hsame, hsame, content?_eq_some_iff]
    exact h.written
  · rw [if_neg hsame]
    rcases h.others place hsame with heq | ⟨hnone, hdir⟩
    · exact content?_congr heq
    · simp [FileTree.content?, hnone, hdir]

/-- Wherever a file stood one stands afterwards. -/
def KeepsFiles (before after : FileTree) : Prop :=
  ∀ place, before.content? place ≠ none → after.content? place ≠ none

theorem KeepsFiles.refl (tree : FileTree) : KeepsFiles tree tree := fun _ h => h

theorem KeepsFiles.trans {first second third : FileTree} (h : KeepsFiles first second)
    (h' : KeepsFiles second third) : KeepsFiles first third := fun place hplace =>
  h' place (h place hplace)

instance : IsPreorder FileTree KeepsFiles where
  refl := .refl
  trans _ _ _ := .trans

private theorem keepsFiles_put {location : Location} {entry : Entry} (hroot : location ≠ [])
    (hentry : entry = .directory → tree.content? location = none) :
    KeepsFiles tree (tree.put location entry) := by
  intro place hplace
  unfold FileTree.content?
  rw [lookup_put hroot]
  by_cases hsame : place = location
  · subst hsame
    rw [if_pos rfl]
    cases entry with
    | directory => exact absurd (hentry rfl) hplace
    | file content => simp
  · rw [if_neg hsame]
    exact hplace

private theorem apply_keepsFiles {step : Step} (hstep : ∀ path, step ≠ .delete path)
    (h : tree.apply step = .ok next) : KeepsFiles tree next := by
  obtain rfl | ⟨place, entry, -, hfree, hnone, rfl⟩ := apply_cases hstep h
  · exact .refl _
  · refine keepsFiles_put ?_ fun hentry => ?_
    · rintro rfl
      exact hfree rfl
    · simp [FileTree.content?, hnone hentry]

theorem applyAll_keepsFiles {steps : List Step}
    (h : ∀ step ∈ steps, ∀ path, step ≠ .delete path) :
    KeepsFiles tree (tree.applyAll steps).1 :=
  applyAll_related (fun step hstep _ _ => apply_keepsFiles (h step hstep)) tree

/-- What deleting some files leaves. -/
structure Deleted (before after : FileTree) (paths : List Path) : Prop where
  files : ∀ path ∈ paths, ∃ place content, before.locate path = .ok place ∧
    before.lookup place = some (.file content) ∧ after.lookup place = none
  others : ∀ place, after.lookup place = before.lookup place ∨
    after.lookup place = none ∧ ∃ path ∈ paths, before.locate path = .ok place

theorem Deleted.keeps {paths : List Path} (h : Deleted before after paths) :
    Keeps before after := by
  intro place hplace
  rcases h.others place with heq | ⟨-, path, hpath, hlocate⟩
  · exact heq.trans hplace
  · obtain ⟨found, content, hfound, hfile, -⟩ := h.files path hpath
    obtain rfl := Except.ok.inj (hlocate.symm.trans hfound)
    simp [hplace] at hfile

theorem Deleted.keeps_back {paths : List Path} (h : Deleted before after paths) :
    Keeps after before := by
  intro place hplace
  rcases h.others place with heq | ⟨hnone, -⟩
  · exact heq.symm.trans hplace
  · simp [hplace] at hnone

theorem Nested.deleteAll (h : tree.Nested) {paths : List Path}
    (happly : tree.applyAll (paths.map .delete) = (next, none)) :
    next.Nested ∧ Deleted tree next paths := by
  induction paths generalizing tree with
  | nil =>
    obtain ⟨rfl, -⟩ := Prod.mk.inj happly
    exact ⟨h, by simp, fun _ => .inl rfl⟩
  | cons path rest ih =>
    rw [List.map_cons, applyAll] at happly
    cases hstep : tree.apply (.delete path) with
    | error fault => simp [hstep] at happly
    | ok middle =>
      rw [hstep] at happly
      obtain ⟨place, content, hlocate, hfile, rfl⟩ := delete_eq_ok_iff.mp hstep
      have herased := h.lookup_erase_file hfile
      -- No directory goes away, so what the later steps see stood there before.
      have hback : Keeps (tree.erase place) tree := by
        intro other hother
        rw [herased] at hother
        by_cases hsame : other = place
        · simp [hsame] at hother
        · rwa [if_neg hsame] at hother
      obtain ⟨hnext, hrest⟩ := ih (h.erase_file hfile) happly
      have hgone : next.lookup place = none := by
        rcases hrest.others place with heq | ⟨hnone, -⟩
        · rw [heq, herased, if_pos rfl]
        · exact hnone
      refine ⟨hnext, fun other hother => ?_, fun other => ?_⟩
      · rcases List.mem_cons.mp hother with rfl | hother
        · exact ⟨place, content, hlocate, hfile, hgone⟩
        · obtain ⟨found, octets, hfound, hoctets, hnone⟩ := hrest.files other hother
          rw [herased] at hoctets
          by_cases hsame : found = place
          · simp [hsame] at hoctets
          · rw [if_neg hsame] at hoctets
            exact ⟨found, octets, hback.locate hfound, hoctets, hnone⟩
      · by_cases hsame : other = place
        · exact .inr ⟨hsame ▸ hgone, path, List.mem_cons_self, hsame ▸ hlocate⟩
        · rcases hrest.others other with heq | ⟨hnone, found, hfound, hleads⟩
          · rw [herased, if_neg hsame] at heq
            exact .inl heq
          · exact .inr ⟨hnone, found, List.mem_cons_of_mem _ hfound, hback.locate hleads⟩

end FileTree

end ElementBinding
