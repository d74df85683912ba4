import ElementBinding.Proofs.Pass.Check
import ElementBinding.Proofs.Pass.LiveUnits

/-!
# Directories that are not entered

Discovery and pruning search directories apart from each other. Both pass by hidden directories and
by those of caches and of foreign packages; discovery also passes by the directories of builds, in
which pruning looks for units all the same. So a unit is safe from pruning behind a directory that
both pass by, whatever else a pass does, and it is not behind a directory of builds.
-/
namespace ElementBinding
open ElementBinding.Text

/-- Pruning passes by the directories that discovery passes by, but for those of builds. -/
theorem isIgnoredBySink_iff {dir : String} :
    isIgnoredBySink dir ↔ isIgnoredByDiscovery dir ∧ dir ≠ "build" ∧ dir ≠ "dist" := by
  have hbuild : isIgnoredBySink "build" = false := by decide
  have hdist : isIgnoredBySink "dist" = false := by decide
  constructor
  · intro h
    refine ⟨by simp [isIgnoredByDiscovery, h], ?_, ?_⟩
    · rintro rfl
      simp [hbuild] at h
    · rintro rfl
      simp [hdist] at h
  · rintro ⟨h, hne, hne'⟩
    simpa [isIgnoredByDiscovery, hne, hne'] using h

/-- A directory on the way to a path is passed by and is no directory of builds. -/
def Path.Unentered (path : Path) : Prop :=
  ∃ dir ∈ path.parts.dropLast, isIgnoredByDiscovery dir ∧ dir ≠ "build" ∧ dir ≠ "dist"

section

variable {checkOnly enabled : Bool} {root path : Path} {profile : Profile}
  {classes : List DeclaredClass} {tree middle last : FileTree}
  {seen keep pruned stale outdated : List String}

theorem not_unentered_of_unclaimed {generated : List Path}
    (hfound : generatedBelow tree root = .ok generated) (h : path ∈ unclaimed seen keep generated) :
    ¬path.Unentered := by
  obtain ⟨-, -, -, -, hentered⟩ := (mem_unclaimed hfound).mp h
  rintro ⟨dir, hdir, hignored⟩
  have hany : path.parts.dropLast.any isIgnoredBySink = true :=
    List.any_eq_true.mpr ⟨dir, hdir, isIgnoredBySink_iff.mpr hignored⟩
  simp [hany] at hentered

theorem Prunes.exists_unclaimed {text : String}
    (h : Prunes checkOnly root enabled seen keep tree pruned last stale) (htext : text ∈ pruned) :
    ∃ generated path, generatedBelow tree root = .ok generated ∧
      path ∈ unclaimed seen keep generated ∧ path.text = text := by
  cases h with
  | skipped => simp at htext
  | checked _ _ found | deleted _ _ found _ =>
    obtain ⟨path, hpath, rfl⟩ := List.mem_map.mp htext
    exact ⟨_, path, found, hpath, rfl⟩

theorem Prunes.not_mem_of_unentered {specs : List Spec} {reports : List OwnerReport}
    (h : Prunes checkOnly root enabled seen keep middle pruned last outdated)
    {tree : Workspace}
    (hemits : EmitsAll checkOnly root profile classes tree specs reports middle seen stale)
    (hrelative : path.root = "")
    (hnames : ∀ name ∈ path.parts, IsFileName name) (hunentered : path.Unentered) :
    path.text ∉ pruned := by
  intro hpruned
  obtain ⟨generated, found, hgenerated, hunclaimed, htext⟩ := h.exists_unclaimed hpruned
  obtain ⟨hbelow, -, -, hmark, -⟩ := (mem_unclaimed hgenerated).mp hunclaimed
  obtain ⟨-, -, -, hrelative', hparts', -⟩ := FileTree.mem_below.mp hbelow
  obtain ⟨octets, hread, -⟩ := (Option.any_eq_true _ _).mp hmark
  have hread : middle.read (root ++ found) = .ok octets := by
    cases hresult : middle.read (root ++ found) with
    | error fault => simp [hresult, Except.toOption] at hread
    | ok content =>
      rw [hresult] at hread
      exact congrArg Except.ok (Option.some.inj hread)
  obtain ⟨hlocate, hcontent⟩ := FileTree.read_eq_ok_iff.mp hread
  have hnames' := hemits.below_named hbelow hlocate (by rw [hcontent]; simp)
  have hparts : path.parts ≠ [] := by
    rintro hnil
    obtain ⟨dir, hdir, -⟩ := hunentered
    simp [hnil] at hdir
  have hsame := Path.eq_of_text hrelative' hrelative hparts' hparts hnames' hnames htext
  exact not_unentered_of_unclaimed hgenerated hunclaimed (hsame ▸ hunentered)

end

namespace Request
variable {request : Request} {tree : FileTree} {path : Path}

/-- A file below the target that stands behind a directory passed by is still there after a pass,
even if the pass is interrupted. No pass reports it as pruned, and a check reports it as out of date
only if it is the unit of an owner that is reported as changed. -/
theorem run_spares_unentered (tree : Workspace) (hrelative : path.root = "")
    (hfile : tree.content? (request.target.place ++ path.parts) ≠ none)
    (hunentered : path.Unentered) :
    (request.run tree).tree.content? (request.target.place ++ path.parts) ≠ none ∧
    ∀ report, (request.run tree).result = .ok report → path.text ∉ report.prunedUnits ∧
      (request.checkOnly = true → path.text ∈ report.staleUnits →
        path.text ∈ changedPaths report.owners) := by
  refine ⟨fun hgone => ?_, fun report hrun => ?_⟩
  · obtain ⟨files, emitted, middle, seen, stale, last, -, hemits, hprunes, hlast, -⟩ :=
      pruned_of_gone tree.formed.toNested hfile hgone
    obtain ⟨hmiddle, -, -⟩ := hemits.frame tree.formed.toNested
    obtain ⟨content, hcontent⟩ := Option.ne_none_iff_exists'.mp
      (hemits.keepsFiles tree.formed.toNested _ hfile)
    obtain ⟨-, -, -, generated, found, hgenerated, hunclaimed, hrelative', -, hplace⟩ :=
      hprunes.gone hmiddle hcontent hlast
    have hparts : path.parts = found.parts := List.append_cancel_left hplace
    refine not_unentered_of_unclaimed hgenerated hunclaimed ?_
    rwa [Path.Unentered, ← hparts]
  · have hnames : ∀ name ∈ path.parts, IsFileName name := by
      obtain ⟨content, hcontent⟩ := Option.ne_none_iff_exists'.mp hfile
      have hstands : tree.lookup (request.target.place ++ path.parts) ≠ none := by
        rw [FileTree.content?_eq_some_iff.mp hcontent]
        simp
      exact fun name hname => tree.formed.named _ hstands name (List.mem_append_right _ hname)
    have hspared : path.text ∉ report.prunedUnits := by
      obtain ⟨course, rfl, -⟩ := run_ok hrun
      exact course.prunes.not_mem_of_unentered course.emits hrelative hnames hunentered
    refine ⟨hspared, fun hcheck hstale => ?_⟩
    exact ((mem_staleUnits hcheck hrun).mp hstale).resolve_right hspared

end Request

/-- A unit that nobody claims, in a hidden directory of the target. -/
def FileTree.cached : FileTree := ⟨[(["src"], .directory),
  (["src", ".cache"], .directory),
  (["src", ".cache", "a_binding.py"], .file (encode generatedHeader))]⟩

/-- A unit that nobody claims, in a directory of builds. -/
def FileTree.outbuilt : FileTree := ⟨[(["src"], .directory),
  (["src", "build"], .directory),
  (["src", "build", "a_binding.py"], .file (encode generatedHeader))]⟩

def Request.tidying : Request where
  sourceRoot := ⟨"", ["src"]⟩

private theorem Request.tidying_runs :
    (tidying.run .cached).result.toOption.map (·.prunedUnits) = some [] ∧
    (tidying.run .outbuilt).result.toOption.map (·.prunedUnits) = some ["build/a_binding.py"] ∧
    (tidying.run .outbuilt).tree.content? ["src", "build", "a_binding.py"] = none := by
  decide +kernel

theorem Request.run_spares_unentered_cached :
    (tidying.run .cached).tree.content? ["src", ".cache", "a_binding.py"] ≠ none ∧
    (tidying.run .cached).result.toOption.map (·.prunedUnits) = some [] := by
  have hformed : FileTree.cached.WellFormed := .of_entries (by decide) (by decide)
  have hunentered : Path.Unentered ⟨"", [".cache", "a_binding.py"]⟩ :=
    ⟨".cache", by simp, by decide⟩
  have hfile : FileTree.cached.content?
      (tidying.target.place ++ [".cache", "a_binding.py"]) ≠ none := by decide
  obtain ⟨hstays, -⟩ :=
    @run_spares_unentered tidying _ ⟨_, hformed⟩ rfl hfile hunentered
  exact ⟨hstays, tidying_runs.1⟩

/-- Pruning deletes a unit behind a directory that discovery does not enter. -/
theorem Request.run_prunes_outbuilt : isIgnoredByDiscovery "build" = true ∧
    (tidying.run .outbuilt).result.toOption.map (·.prunedUnits) = some ["build/a_binding.py"] ∧
    (tidying.run .outbuilt).tree.content? ["src", "build", "a_binding.py"] = none :=
  ⟨by decide, tidying_runs.2⟩

end ElementBinding
