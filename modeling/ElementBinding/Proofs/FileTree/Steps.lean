import ElementBinding.Proofs.FileTree.Places

/-!
# What steps change

A step looks at the place its path leads to and changes nothing else, so what a run of steps keeps
is told from what one of them keeps. Making directories changes no file, and a file is written at
one place only, whatever the path is. Every step leads from a tree whose entries stand in
directories to another one. A write that fails has changed no file.
-/
namespace ElementBinding
open ElementBinding.Text

namespace FileTree.Step

def path : Step → Path
  | makeDirectory path | openFile path | append path _ | delete path => path

/-- What a step that deletes nothing does with what stands where its path leads: it puts an entry
there, or leaves all as it is. -/
def effect : Step → Option Entry → Except Condition (Option Entry)
  | makeDirectory _, none => .ok (some .directory)
  | makeDirectory _, some .directory => .ok none
  | makeDirectory _, some (.file _) => .error .alreadyExists
  | openFile _, some .directory => .error .isDirectory
  | openFile _, _ => .ok (some (.file []))
  | append _ octets, some (.file content) => .ok (some (.file (content ++ octets)))
  | append _ _, some .directory => .error .isDirectory
  | append _ _, none => .error .notFound
  | delete _, _ => .ok none

end FileTree.Step

namespace FileTree
variable {tree next : FileTree}

/-- All that is new are directories, and nothing went away. -/
def Grown (before after : FileTree) : Prop :=
  ∀ place, after.lookup place = before.lookup place ∨
    (before.lookup place = none ∧ after.lookup place = some .directory)

theorem Grown.refl (tree : FileTree) : Grown tree tree := fun _ => .inl rfl

theorem Grown.trans {first second third : FileTree} (h : Grown first second)
    (h' : Grown second third) : Grown first third := by
  intro place
  rcases h place with heq | ⟨hnone, hdir⟩
  · rcases h' place with heq' | ⟨hnone', hdir'⟩
    · exact .inl (heq'.trans heq)
    · exact .inr ⟨heq ▸ hnone', hdir'⟩
  · rcases h' place with heq' | ⟨hnone', _⟩
    · exact .inr ⟨hnone, heq'.trans hdir⟩
    · simp [hdir] at hnone'

theorem Grown.keeps {before after : FileTree} (h : Grown before after) : Keeps before after := by
  intro place hplace
  rcases h place with heq | ⟨hnone, _⟩
  · exact heq.trans hplace
  · simp [hplace] at hnone

/-- A file was written at a place, and all else that is new are directories. -/
structure Wrote (before after : FileTree) (place : Location) (octets : Octets) : Prop where
  written : after.lookup place = some (.file octets)
  free : before.lookup place ≠ some .directory
  others : ∀ other, other ≠ place → after.lookup other = before.lookup other ∨
    (before.lookup other = none ∧ after.lookup other = some .directory)

theorem Wrote.keeps {before after : FileTree} {place : Location} {octets : Octets}
    (h : Wrote before after place octets) : Keeps before after := by
  intro other hother
  have hne : other ≠ place := by
    rintro rfl
    exact h.free hother
  rcases h.others other hne with heq | ⟨hnone, _⟩
  · exact heq.trans hother
  · simp [hother] at hnone

theorem Grown.wrote {before middle after : FileTree} {place : Location} {octets : Octets}
    (h : Grown before middle) (h' : Wrote middle after place octets) :
    Wrote before after place octets where
  written := h'.written
  free := fun hdir => h'.free (h.keeps place hdir)
  others := by
    intro other hne
    rcases h other with heq | ⟨hnone, hdir⟩
    · rcases h'.others other hne with heq' | ⟨hnone', hdir'⟩
      · exact .inl (heq'.trans heq)
      · exact .inr ⟨heq ▸ hnone', hdir'⟩
    · exact .inr ⟨hnone, h'.keeps other hdir⟩

namespace Nested

theorem put (h : tree.Nested) {place : Location} {name : String} (entry : Entry)
    (hplace : tree.lookup place = some .directory) (hname : name ≠ "..")
    (hfree : tree.lookup (place ++ [name]) ≠ some .directory) :
    (tree.put (place ++ [name]) entry).Nested where
  distinct := by
    unfold FileTree.put
    by_cases hany : tree.entries.any (·.1 = place ++ [name])
    · rw [if_pos hany, List.map_map]
      refine (congrArg List.Nodup (List.map_congr_left fun found _ => ?_)).mpr h.distinct
      simp only [Function.comp_apply]
      split <;> rfl
    · rw [if_neg hany, List.map_append, List.nodup_append]
      refine ⟨h.distinct, by simp, ?_⟩
      rintro other hother _ hnew rfl
      obtain ⟨found, hfound, rfl⟩ := List.mem_map.mp hother
      exact hany (List.any_eq_true.mpr ⟨found, hfound, by simpa using hnew⟩)
  enclosed := by
    intro other last hother
    rw [lookup_put (by simp)] at hother ⊢
    by_cases hsame : other ++ [last] = place ++ [name]
    · obtain ⟨rfl, -⟩ := List.append_inj' hsame rfl
      rw [if_neg (by simp), hplace]
    · rw [if_neg hsame] at hother
      have habove := h.enclosed _ _ hother
      rw [if_neg (fun heq : other = place ++ [name] => hfree (heq ▸ habove)), habove]
  plain := by
    intro other hother
    rw [lookup_put (by simp)] at hother
    by_cases hsame : other = place ++ [name]
    · rw [hsame, List.mem_append, List.mem_singleton, not_or]
      exact ⟨h.plain _ (by rw [hplace]; simp), Ne.symm hname⟩
    · rw [if_neg hsame] at hother
      exact h.plain _ hother

theorem lookup_erase_file (h : tree.Nested) {place : Location} {content : Octets}
    (hplace : tree.lookup place = some (.file content)) (other : Location) :
    (tree.erase place).lookup other = if other = place then none else tree.lookup other := by
  have hroot : place ≠ [] := by
    rintro rfl
    simp at hplace
  rw [lookup_erase tree hroot]
  by_cases hsame : other = place
  · rw [if_pos hsame, if_pos (by rw [hsame])]
  · rw [if_neg hsame]
    by_cases hpre : place <+: other
    · rw [if_pos hpre]
      by_contra hother
      have hdir := h.directory_of_prefix hpre (Ne.symm hsame) (Ne.symm hother)
      simp [hplace] at hdir
    · rw [if_neg hpre]

theorem erase_file (h : tree.Nested) {place : Location} {content : Octets}
    (hplace : tree.lookup place = some (.file content)) : (tree.erase place).Nested where
  distinct := by
    refine h.distinct.sublist (List.Sublist.map _ ?_)
    exact List.filter_sublist
  enclosed := by
    intro other name hother
    rw [h.lookup_erase_file hplace] at hother ⊢
    by_cases hsame : other ++ [name] = place
    · simp [hsame] at hother
    · rw [if_neg hsame] at hother
      have habove := h.enclosed _ _ hother
      rw [if_neg, habove]
      rintro rfl
      simp [hplace] at habove
  plain := by
    intro other hother
    rw [h.lookup_erase_file hplace] at hother
    by_cases hsame : other = place
    · simp [hsame] at hother
    · rw [if_neg hsame] at hother
      exact h.plain _ hother

/-- What a path leads to stands in a directory, or would stand there. -/
theorem above_of_locate (h : tree.Nested) {path : Path} {place : Location}
    (hlocate : tree.locate path = .ok place) (hfree : tree.lookup place ≠ some .directory) :
    ∃ above name, place = above ++ [name] ∧ tree.lookup above = some .directory ∧ name ≠ ".." := by
  obtain ⟨-, hroot⟩ := place_of_locate hlocate
  rw [locate_relative tree hroot] at hlocate
  rcases List.eq_nil_or_concat path.parts with hnil | ⟨init, component, hparts⟩
  · rw [hnil, follow] at hlocate
    rw [← Except.ok.inj hlocate] at hfree
    exact absurd rfl hfree
  · rw [hparts, List.concat_eq_append, follow_append] at hlocate
    cases hinit : tree.follow [] init with
    | error condition => simp [hinit] at hlocate
    | ok middle =>
      simp only [hinit, follow_cons] at hlocate
      rcases hmiddle : tree.lookup middle with _ | _ | content
      · simp [hmiddle] at hlocate
      · simp only [hmiddle, follow, Except.ok.injEq] at hlocate
        by_cases hdots : component = ".."
        · rw [descend, if_pos hdots] at hlocate
          exact absurd (hlocate ▸ h.directory_dropLast hmiddle) hfree
        · rw [descend, if_neg hdots] at hlocate
          exact ⟨middle, component, hlocate.symm, hmiddle, hdots⟩
      · simp [hmiddle] at hlocate

end Nested

/-- A step that deletes nothing looks at the place its path leads to, and there alone. -/
theorem apply_eq (tree : FileTree) {step : Step} (hstep : ∀ path, step ≠ .delete path) :
    tree.apply step =
      match tree.locate step.path with
      | .error condition => .error (.at condition step.path)
      | .ok location =>
        match step.effect (tree.lookup location) with
        | .error condition => .error (.at condition step.path)
        | .ok none => .ok tree
        | .ok (some entry) => .ok (tree.put location entry) := by
  cases step with
  | delete path => exact absurd rfl (hstep path)
  | makeDirectory path | openFile path | append path octets =>
    unfold apply
    dsimp only [Step.path]
    cases tree.locate path with
    | error condition => rfl
    | ok location =>
      dsimp only
      rcases tree.lookup location with _ | _ | content <;> rfl

/-- What a step does that succeeds and deletes nothing: it puts an entry where its path leads, and
no directory stands there, or it leaves all as it is. -/
theorem apply_cases {step : Step} (hstep : ∀ path, step ≠ .delete path)
    (h : tree.apply step = .ok next) :
    next = tree ∨ ∃ place entry, tree.locate step.path = .ok place ∧
      tree.lookup place ≠ some .directory ∧
      (entry = .directory → tree.lookup place = none) ∧ next = tree.put place entry := by
  rw [apply_eq tree hstep] at h
  cases hlocate : tree.locate step.path with
  | error condition => simp [hlocate] at h
  | ok place =>
    simp only [hlocate] at h
    rcases heffect : step.effect (tree.lookup place) with condition | _ | entry
    · simp [heffect] at h
    · simp only [heffect, Except.ok.injEq] at h
      exact .inl h.symm
    · simp only [heffect, Except.ok.injEq] at h
      refine .inr ⟨place, entry, rfl, fun hdir => ?_, fun hentry => ?_, h.symm⟩
      · rw [hdir] at heffect
        cases step <;> simp [Step.effect] at heffect
      · rw [hentry] at heffect
        rcases hplace : tree.lookup place with _ | _ | content
        · rfl
        all_goals
          rw [hplace] at heffect
          cases step <;> simp [Step.effect] at heffect

theorem delete_eq_ok_iff {path : Path} : tree.apply (.delete path) = .ok next ↔
    ∃ place content, tree.locate path = .ok place ∧ tree.lookup place = some (.file content) ∧
      next = tree.erase place := by
  dsimp only [apply]
  cases tree.locate path with
  | error condition => simp
  | ok found =>
    rcases hfound : tree.lookup found with _ | _ | content <;> simp [hfound, eq_comm]

theorem applyAll_append (tree : FileTree) (first rest : List Step) :
    tree.applyAll (first ++ rest) =
      match tree.applyAll first with
      | (next, none) => next.applyAll rest
      | (next, some fault) => (next, some fault) := by
  induction first generalizing tree with
  | nil => rfl
  | cons step more ih =>
    rw [List.cons_append, applyAll, applyAll]
    cases tree.apply step with
    | ok next => exact ih next
    | error fault => rfl

/-- What relates the trees before and after a step, for each of some steps, relates the trees before
and after those of them that are taken. -/
theorem applyAll_related {R : FileTree → FileTree → Prop} [IsPreorder FileTree R]
    {steps : List Step}
    (h : ∀ step ∈ steps, ∀ tree next, tree.apply step = .ok next → R tree next)
    (tree : FileTree) : R tree (tree.applyAll steps).1 := by
  induction steps generalizing tree with
  | nil => exact refl_of R tree
  | cons step rest ih =>
    rw [applyAll]
    cases happly : tree.apply step with
    | error fault => exact refl_of R tree
    | ok middle =>
      have hfirst := h step List.mem_cons_self tree middle happly
      exact trans_of R hfirst
        (ih (fun other hother => h other (List.mem_cons_of_mem _ hother)) middle)

theorem applyAll_front {steps : List Step} {fault : FileFault}
    (h : tree.applyAll steps = (next, some fault)) :
    ∃ front, front <+: steps ∧ tree.applyAll front = (next, none) := by
  induction steps generalizing tree with
  | nil => simp [applyAll] at h
  | cons step rest ih =>
    rw [applyAll] at h
    cases happly : tree.apply step with
    | error found =>
      simp only [happly, Prod.mk.injEq] at h
      exact ⟨[], List.nil_prefix, by rw [applyAll, h.1]⟩
    | ok middle =>
      rw [happly] at h
      obtain ⟨front, hfront, hnext⟩ := ih h
      refine ⟨step :: front, List.cons_prefix_cons.mpr ⟨rfl, hfront⟩, ?_⟩
      rw [applyAll, happly]
      exact hnext

theorem Nested.makeDirectory (h : tree.Nested) {path : Path}
    (happly : tree.apply (.makeDirectory path) = .ok next) : next.Nested ∧ Grown tree next := by
  unfold apply at happly
  cases hlocate : tree.locate path with
  | error condition => simp [hlocate] at happly
  | ok place =>
    simp only [hlocate] at happly
    rcases hplace : tree.lookup place with _ | _ | content
    · simp only [hplace, Except.ok.injEq] at happly
      subst next
      obtain ⟨above, name, rfl, habove, hname⟩ :=
        h.above_of_locate hlocate (by rw [hplace]; simp)
      refine ⟨h.put _ habove hname (by rw [hplace]; simp), fun other => ?_⟩
      rw [lookup_put (by simp)]
      by_cases hsame : other = above ++ [name]
      · exact .inr ⟨hsame ▸ hplace, by rw [if_pos hsame]⟩
      · exact .inl (by rw [if_neg hsame])
    · simp only [hplace, Except.ok.injEq] at happly
      exact happly ▸ ⟨h, Grown.refl tree⟩
    · simp [hplace] at happly

theorem Nested.makeDirectories (h : tree.Nested) {paths : List Path} {fault? : Option FileFault}
    (happly : tree.applyAll (paths.map .makeDirectory) = (next, fault?)) :
    next.Nested ∧ Grown tree next := by
  induction paths generalizing tree with
  | nil =>
    obtain ⟨rfl, -⟩ := Prod.mk.inj happly
    exact ⟨h, Grown.refl _⟩
  | cons path rest ih =>
    rw [List.map_cons, applyAll] at happly
    cases hstep : tree.apply (.makeDirectory path) with
    | error fault =>
      simp only [hstep, Prod.mk.injEq] at happly
      exact happly.1 ▸ ⟨h, Grown.refl _⟩
    | ok middle =>
      rw [hstep] at happly
      obtain ⟨hmiddle, hgrown⟩ := h.makeDirectory hstep
      obtain ⟨hnext, hgrown'⟩ := ih hmiddle happly
      exact ⟨hnext, hgrown.trans hgrown'⟩

theorem makeDirectories_eq_map (tree : FileTree) (path : Path) :
    ∃ paths : List Path, tree.makeDirectories path = paths.map .makeDirectory := by
  unfold FileTree.makeDirectories
  split
  · exact ⟨[], rfl⟩
  · exact ⟨[path], rfl⟩
  · exact ⟨[path], rfl⟩
  · exact ⟨_, rfl⟩

theorem keeps_put {place : Location} (hroot : place ≠ [])
    (hfree : tree.lookup place ≠ some .directory)
    (entry : Entry) : Keeps tree (tree.put place entry) := by
  intro other hother
  have hne : other ≠ place := by
    rintro rfl
    exact hfree hother
  rw [lookup_put hroot, if_neg hne, hother]

/-- A file is written where the path leads, unless a directory stands there. -/
theorem Nested.writeFile (h : tree.Nested) {path : Path} {place : Location}
    (hlocate : tree.locate path = .ok place) (hfree : tree.lookup place ≠ some .directory)
    (octets : Octets) :
    ∃ next, tree.applyAll [.openFile path, .append path octets] = (next, none) ∧ next.Nested ∧
      next.locate path = .ok place ∧ next.lookup place = some (.file octets) ∧
      ∀ other, other ≠ place → next.lookup other = tree.lookup other := by
  obtain ⟨above, name, hplace, habove, hname⟩ := h.above_of_locate hlocate hfree
  have hroot : place ≠ [] := by simp [hplace]
  have hopen : tree.apply (.openFile path) = .ok (tree.put place (.file [])) := by
    simp only [apply, hlocate]
  have hopened : (tree.put place (.file [])).lookup place = some (.file []) := by
    rw [lookup_put hroot, if_pos rfl]
  have hfree' : (tree.put place (.file [])).lookup place ≠ some .directory := by
    rw [hopened]
    simp
  have hlocate' := (keeps_put hroot hfree (.file [])).locate hlocate
  have happend : (tree.put place (.file [])).apply (.append path octets) =
      .ok ((tree.put place (.file [])).put place (.file octets)) := by
    simp only [apply, hlocate', hopened, List.nil_append]
  have hnested : (tree.put place (.file [])).Nested := by
    subst hplace
    exact h.put _ habove hname hfree
  refine ⟨(tree.put place (.file [])).put place (.file octets), ?_, ?_,
    (keeps_put hroot hfree' _).locate hlocate', ?_, ?_⟩
  · rw [applyAll, hopen]
    simp only [applyAll, happend]
  · subst hplace
    exact hnested.put _ (keeps_put hroot hfree _ _ habove) hname hfree'
  · rw [lookup_put hroot, if_pos rfl]
  · intro other hne
    rw [lookup_put hroot, if_neg hne, lookup_put hroot, if_neg hne]

theorem Nested.write (h : tree.Nested) {path : Path} {octets : Octets}
    (happly : tree.applyAll (tree.writeSteps path octets) = (next, none)) :
    next.Nested ∧ ∃ place, next.locate path = .ok place ∧ Wrote tree next place octets := by
  obtain ⟨paths, hpaths⟩ := makeDirectories_eq_map tree path.parent
  rw [writeSteps, hpaths, applyAll_append] at happly
  rcases hmade : tree.applyAll (paths.map .makeDirectory) with ⟨middle, _ | fault⟩
  · obtain ⟨hmiddle, hgrown⟩ := h.makeDirectories hmade
    simp only [hmade] at happly
    cases hlocate : middle.locate path with
    | error condition => simp [applyAll, apply, hlocate] at happly
    | ok place =>
      by_cases hdir : middle.lookup place = some .directory
      · simp [applyAll, apply, hlocate, hdir] at happly
      · obtain ⟨last, hlast, hnested, hlocate', hwritten, hothers⟩ :=
          hmiddle.writeFile hlocate hdir octets
        obtain ⟨rfl, -⟩ := Prod.mk.inj (hlast.symm.trans happly)
        exact ⟨hnested, place, hlocate',
          hgrown.wrote ⟨hwritten, hdir, fun other hne => .inl (hothers other hne)⟩⟩
  · simp [hmade] at happly

theorem Nested.write_failed (h : tree.Nested) {path : Path} {octets : Octets} {fault : FileFault}
    (happly : tree.applyAll (tree.writeSteps path octets) = (next, some fault)) :
    next.Nested ∧ Grown tree next := by
  obtain ⟨paths, hpaths⟩ := makeDirectories_eq_map tree path.parent
  rw [writeSteps, hpaths, applyAll_append] at happly
  rcases hmade : tree.applyAll (paths.map .makeDirectory) with ⟨middle, _ | met⟩
  · obtain ⟨hmiddle, hgrown⟩ := h.makeDirectories hmade
    simp only [hmade] at happly
    cases hlocate : middle.locate path with
    | error condition =>
      simp only [applyAll, apply, hlocate, Prod.mk.injEq] at happly
      exact happly.1 ▸ ⟨hmiddle, hgrown⟩
    | ok place =>
      by_cases hdir : middle.lookup place = some .directory
      · simp only [applyAll, apply, hlocate, hdir, Prod.mk.injEq] at happly
        exact happly.1 ▸ ⟨hmiddle, hgrown⟩
      · obtain ⟨last, hlast, -⟩ := hmiddle.writeFile hlocate hdir octets
        simp [hlast] at happly
  · simp only [hmade, Prod.mk.injEq] at happly
    exact happly.1 ▸ h.makeDirectories hmade

end FileTree

end ElementBinding
