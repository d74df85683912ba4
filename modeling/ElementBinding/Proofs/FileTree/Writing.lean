import ElementBinding.Proofs.FileTree.Grounded

/-!
# Writing to grounded paths

A grounded path can be written to unless a file obstructs its directories. The directories that are
made on the way stand above the file. What obstructs a path is met before anything is changed, and
the fault that is reported tells only where it is met.
-/
namespace ElementBinding
open ElementBinding.Text

namespace FileTree
variable {tree next : FileTree} {path : Path}

/-- All that is new are directories above a place or at it. -/
def GrownTo (before after : FileTree) (place : Location) : Prop :=
  ∀ other, after.lookup other = before.lookup other ∨
    (before.lookup other = none ∧ after.lookup other = some .directory ∧ other <+: place)

theorem GrownTo.trans {first second third : FileTree} {place : Location}
    (h : GrownTo first second place) (h' : GrownTo second third place) :
    GrownTo first third place := by
  intro other
  rcases h other with heq | ⟨hnone, hdir, hpre⟩
  · rcases h' other with heq' | ⟨hnone', hdir', hpre'⟩
    · exact .inl (heq'.trans heq)
    · exact .inr ⟨heq ▸ hnone', hdir', hpre'⟩
  · rcases h' other with heq' | ⟨hnone', _⟩
    · exact .inr ⟨hnone, heq'.trans hdir, hpre⟩
    · simp [hdir] at hnone'

theorem GrownTo.grown {before after : FileTree} {place : Location}
    (h : GrownTo before after place) : Grown before after :=
  fun other => (h other).imp_right fun hnew => ⟨hnew.1, hnew.2.1⟩

private theorem beginnings_concat (root component : String) (init : List String) :
    beginnings root (init ++ [component]) =
      beginnings root init ++ [⟨root, init ++ [component]⟩] := by
  unfold beginnings
  rw [List.length_append, List.length_singleton, List.range_succ, List.map_append]
  congr 1
  · refine List.map_congr_left fun n hn => ?_
    rw [List.take_append_of_le_length (List.mem_range.mp hn)]
  · simp

private def missing (tree : FileTree) (root : String) (parts : List String) : List Step :=
  ((beginnings root parts).filter fun beginning => !tree.isDirectory beginning).map .makeDirectory

private theorem missing_concat (tree : FileTree) (root component : String) (init : List String) :
    tree.missing root (init ++ [component]) = tree.missing root init ++
      if tree.isDirectory ⟨root, init ++ [component]⟩ then []
      else [.makeDirectory ⟨root, init ++ [component]⟩] := by
  unfold missing
  rw [beginnings_concat, List.filter_append, List.map_append]
  cases hdir : tree.isDirectory ⟨root, init ++ [component]⟩ <;> simp [hdir]

private theorem makeNext {root component : String} {init : List String}
    (hdots : component ≠ "..") (hinit : tree.isDirectory ⟨root, init⟩)
    (hfree : tree.lookup (⟨root, init ++ [component]⟩ : Path).place = none) :
    ∃ next, tree.apply (.makeDirectory ⟨root, init ++ [component]⟩) = .ok next ∧
      next.isDirectory ⟨root, init ++ [component]⟩ ∧
      GrownTo tree next (⟨root, init ++ [component]⟩ : Path).place := by
  obtain ⟨above, hlocate, hdir⟩ := (isDirectory_iff _ _).mp hinit
  obtain ⟨rfl, hroot⟩ := place_of_locate hlocate
  simp only at hroot
  subst root
  have hlocate' : tree.locate ⟨"", init ++ [component]⟩ =
      .ok (⟨"", init ++ [component]⟩ : Path).place := by
    rw [locate_relative tree rfl] at hlocate ⊢
    rw [follow_append, hlocate, place_concat hdots]
    simp only [hdir, follow, if_neg hdots]
  rw [place_concat hdots] at hlocate' hfree ⊢
  refine ⟨tree.put ((⟨"", init⟩ : Path).place ++ [component]) .directory, ?_, ?_, ?_⟩
  · simp only [apply, hlocate', hfree]
  · rw [isDirectory_iff]
    have hkeeps : Keeps tree (tree.put ((⟨"", init⟩ : Path).place ++ [component]) .directory) :=
      keeps_put (by simp) (by rw [hfree]; simp) .directory
    exact ⟨_, hkeeps.locate hlocate', by rw [lookup_put (by simp), if_pos rfl]⟩
  · intro other
    rw [lookup_put (by simp)]
    by_cases hsame : other = (⟨"", init⟩ : Path).place ++ [component]
    · exact .inr ⟨hsame ▸ hfree, by rw [if_pos hsame], by rw [hsame]⟩
    · exact .inl (by rw [if_neg hsame])

/-- All directories of a grounded path can be made unless a file is in the way. -/
private theorem Nested.reach (h : tree.Nested) (hgrounded : tree.Grounded path)
    (hroot : path.root = "") (hfree : ¬tree.Obstructed path) :
    ∃ next, tree.applyAll (tree.missing path.root path.parts) = (next, none) ∧ next.Nested ∧
      next.isDirectory path ∧ GrownTo tree next path.place := by
  obtain ⟨root, parts⟩ := path
  simp only at hroot
  subst root
  simp only
  induction parts using List.reverseRecOn with
  | nil => exact ⟨tree, rfl, h, by simp [isDirectory_iff, locate, follow], fun other => .inl rfl⟩
  | append_singleton init component ih =>
    obtain ⟨middle, happly, hnested, hdir, hgrown⟩ :=
      ih hgrounded.init (fun hobs => hfree (hobs.of_init h hgrounded))
    rw [missing_concat, applyAll_append, happly]
    -- Above the next component lies only what leads to it, unless it leads back.
    have hplaced : GrownTo tree middle (⟨"", init ++ [component]⟩ : Path).place := by
      intro other
      rcases hgrown other with hsame | ⟨hnone, hnew, hpre⟩
      · exact .inl hsame
      refine .inr ⟨hnone, hnew, ?_⟩
      by_cases hdots : component = ".."
      · subst component
        obtain ⟨hstood, -, -⟩ := hgrounded.directory_before h
        by_cases hsame : other = (⟨"", init⟩ : Path).place
        · simp [hsame, hstood] at hnone
        · simp [h.directory_of_prefix hpre hsame (by rw [hstood]; simp)] at hnone
      · rw [place_concat hdots]
        exact hpre.trans (List.prefix_append _ _)
    by_cases hstands : tree.isDirectory ⟨"", init ++ [component]⟩
    · rw [if_pos hstands]
      exact ⟨middle, rfl, hnested, hgrown.grown.keeps.isDirectory hstands, hplaced⟩
    · rw [if_neg hstands]
      have hnone : tree.lookup (⟨"", init ++ [component]⟩ : Path).place = none := by
        rcases hplace : tree.lookup (⟨"", init ++ [component]⟩ : Path).place with
          _ | _ | content
        · rfl
        · refine absurd ?_ hstands
          rw [isDirectory, hgrounded.find? h rfl, hplace, decide_eq_true rfl]
        · exact absurd ⟨_, content, List.prefix_refl _, hplace⟩ hfree
      have hdots : component ≠ ".." := by
        rintro rfl
        obtain ⟨-, hstood, -⟩ := hgrounded.directory_before h
        simp [hstood] at hnone
      -- The directories above were made without touching this place.
      have hmiddle : middle.lookup (⟨"", init ++ [component]⟩ : Path).place = none := by
        rcases hgrown (⟨"", init ++ [component]⟩ : Path).place with heq | ⟨-, -, hpre⟩
        · exact heq.trans hnone
        · rw [place_concat hdots] at hpre
          simpa using hpre.length_le
      obtain ⟨last, hstep, hlast, hnew⟩ := makeNext hdots hdir hmiddle
      refine ⟨last, ?_, (hnested.makeDirectory hstep).1, hlast, hplaced.trans hnew⟩
      simp only [applyAll, hstep]

private theorem makeDirectories_of_free (h : tree.Nested) (hgrounded : tree.Grounded path)
    (hroot : path.root = "") (hfree : ¬tree.Obstructed path) :
    tree.makeDirectories path = if tree.isDirectory path then []
      else tree.missing path.root path.parts := by
  unfold FileTree.makeDirectories isDirectory
  rw [hgrounded.find? h hroot]
  rcases hplace : tree.lookup path.place with _ | _ | content
  · cases hlocate : tree.locate path with
    | ok place => simp [missing, isDirectory]
    | error condition =>
      cases condition with
      | notDirectory =>
        obtain ⟨place, content, hpre, -, hfile⟩ :=
          (locate_eq_notDirectory_iff h hgrounded hroot).mp hlocate
        exact absurd ⟨place, content, hpre, hfile⟩ hfree
      | _ => simp [missing, isDirectory]
  · simp
  · exact absurd ⟨_, content, List.prefix_refl _, hplace⟩ hfree

private theorem Nested.makeAll (h : tree.Nested) (hgrounded : tree.Grounded path)
    (hroot : path.root = "") (hfree : ¬tree.Obstructed path) :
    ∃ next, tree.applyAll (tree.makeDirectories path) = (next, none) ∧ next.Nested ∧
      next.isDirectory path ∧ GrownTo tree next path.place := by
  rw [makeDirectories_of_free h hgrounded hroot hfree]
  by_cases hdir : tree.isDirectory path
  · rw [if_pos hdir]
    exact ⟨tree, rfl, h, hdir, fun _ => .inl rfl⟩
  · rw [if_neg hdir]
    exact h.reach hgrounded hroot hfree

/-- A write to a grounded path succeeds if no file is in the way and no directory stands there. -/
theorem Nested.write_of_free (h : tree.Nested) {leaf : String} {init : List String}
    (hgrounded : tree.Grounded ⟨"", init⟩) (hleaf : leaf ≠ "..")
    (hfree : ¬tree.Obstructed ⟨"", init⟩)
    (hplace : tree.lookup (⟨"", init ++ [leaf]⟩ : Path).place ≠ some .directory)
    (octets : Octets) :
    ∃ next, tree.applyAll (tree.writeSteps ⟨"", init ++ [leaf]⟩ octets) = (next, none) ∧
      next.Nested ∧ Wrote tree next (⟨"", init ++ [leaf]⟩ : Path).place octets ∧
      ∀ other, tree.lookup other = none → next.lookup other = some .directory →
        other <+: (⟨"", init ++ [leaf]⟩ : Path).place := by
  obtain ⟨middle, happly, hnested, hdir, hgrown⟩ := h.makeAll hgrounded rfl hfree
  obtain ⟨above, hlocate, habove⟩ := (isDirectory_iff _ _).mp hdir
  obtain ⟨rfl, -⟩ := place_of_locate hlocate
  have hlocate' : middle.locate ⟨"", init ++ [leaf]⟩ =
      .ok (⟨"", init ++ [leaf]⟩ : Path).place := by
    rw [locate_relative middle rfl] at hlocate ⊢
    rw [follow_append, hlocate, place_concat hleaf]
    simp only [habove, follow, if_neg hleaf]
  have hplace' : middle.lookup (⟨"", init ++ [leaf]⟩ : Path).place ≠ some .directory := by
    rcases hgrown (⟨"", init ++ [leaf]⟩ : Path).place with heq | ⟨-, -, hpre⟩
    · rwa [heq]
    · rw [place_concat hleaf] at hpre
      simpa using hpre.length_le
  obtain ⟨last, hlast, hnested', -, hwritten, hothers⟩ := hnested.writeFile hlocate' hplace' octets
  refine ⟨last, ?_, hnested', ?_, ?_⟩
  · have hparent : (⟨"", init ++ [leaf]⟩ : Path).parent = ⟨"", init⟩ := by
      simp [Path.parent]
    rw [writeSteps, hparent, applyAll_append, happly]
    exact hlast
  · exact hgrown.grown.wrote ⟨hwritten, hplace', fun other hne => .inl (hothers other hne)⟩
  · intro other hnone hnew
    have hne : other ≠ (⟨"", init ++ [leaf]⟩ : Path).place := by
      rintro rfl
      simp [hwritten] at hnew
    rw [hothers other hne] at hnew
    rcases hgrown other with heq | ⟨-, -, hpre⟩
    · simp [heq, hnone] at hnew
    · exact place_concat hleaf ▸ hpre.trans (List.prefix_append _ _)

/-- A file in the way of a path's directories stops a write before anything is changed. -/
theorem Nested.write_of_obstructed (h : tree.Nested) {leaf : String} {init : List String}
    (hgrounded : tree.Grounded ⟨"", init⟩) (hobs : tree.Obstructed ⟨"", init⟩) (octets : Octets) :
    tree.applyAll (tree.writeSteps ⟨"", init ++ [leaf]⟩ octets) =
      (tree, some (.at (if (tree.lookup (⟨"", init⟩ : Path).place).isSome then .alreadyExists
        else .notDirectory) ⟨"", init⟩)) := by
  have hparent : (⟨"", init ++ [leaf]⟩ : Path).parent = ⟨"", init⟩ := by simp [Path.parent]
  rw [writeSteps, hparent, applyAll_append]
  obtain ⟨place, content, hpre, hfile⟩ := hobs
  by_cases hsame : place = (⟨"", init⟩ : Path).place
  · subst hsame
    have hlocate := hgrounded.locate h rfl (by rw [hfile]; simp)
    have hfind := hgrounded.find? h rfl
    rw [hfile] at hfind
    simp [FileTree.makeDirectories, hfind, hlocate, applyAll, apply, hfile]
  · have hlocate := (locate_eq_notDirectory_iff h hgrounded rfl).mpr
      ⟨place, content, hpre, hsame, hfile⟩
    have hfind : tree.find? ⟨"", init⟩ = none := by rw [find?, hlocate]
    have hnone : tree.lookup (⟨"", init⟩ : Path).place = none := by
      rw [← hgrounded.find? h rfl, hfind]
    simp [FileTree.makeDirectories, hfind, hlocate, applyAll, apply, hnone]

theorem write_of_absolute (h : path.root ≠ "") : ∃ fault, ∀ (tree : FileTree) octets,
    tree.applyAll (tree.writeSteps path octets) = (tree, some fault) := by
  have hlocate (tree : FileTree) (parts : List String) :
      tree.locate ⟨path.root, parts⟩ = .error .notFound := if_neg h
  have hparent : path.parent = ⟨path.root, path.parts.dropLast⟩ := rfl
  cases hparts : path.parts.dropLast with
  | nil =>
    refine ⟨.at .notFound path, fun tree octets => ?_⟩
    simp [writeSteps, makeDirectories, hparent, hparts, find?, hlocate, beginnings, applyAll, apply]
  | cons first rest =>
    refine ⟨.at .notFound ⟨path.root, [first]⟩, fun tree octets => ?_⟩
    simp [writeSteps, makeDirectories, hparent, hparts, find?, hlocate, beginnings, isDirectory,
      List.range_succ_eq_map, applyAll, apply]

end FileTree

end ElementBinding
