import ElementBinding.Proofs.Pass.Retained

/-!
# Modules that are left out

The tree that a pass starts from and the classes that it scans settle what it prunes: the generated
units below the target that are no unit of a live class. To leave out modules is to leave out their
classes, so a pass that leaves out more modules prunes more, namely the units of live classes that
it no longer looks at.
-/
namespace ElementBinding
open ElementBinding.Naming ElementBinding.Text

section

variable {checkOnly : Bool} {root : Path} {profile : Profile} {classes found : List DeclaredClass}
  {tree last : FileTree} {seen stale : List String} {reports : List OwnerReport}

theorem EmitsAll.mem_seen_of_unitPath {specs : List Spec}
    (h : EmitsAll checkOnly root profile found tree specs reports last seen stale) :
    ∀ owner ∈ reports, ∀ path, owner.unitPath = some path → path ∈ seen := by
  induction h with
  | nil => simp
  | cons rendered first _ ih =>
    rw [List.forall_mem_cons]
    refine ⟨fun path hpath => ?_, fun owner howner path hpath =>
      List.mem_cons_of_mem _ (ih owner howner path hpath)⟩
    have hunit := (Spec.render_ok rendered).1
    cases first with
    | kept | stale | written => exact Option.some.inj hpath ▸ List.mem_cons_self
    | unwritten | refused => exact (hunit.trans (Option.some.inj hpath)) ▸ List.mem_cons_self

/-- The units that are handed over or kept are those of the live classes. -/
theorem EmitsAll.claimed_iff {known : List String}
    (h : EmitsAll checkOnly root profile found tree (build classes profile known).specs reports
      last seen stale) (text : String) :
    text ∈ seen ∨ text ∈ retainedPaths profile (build classes profile known) reports ↔
      ∃ declared ∈ classes, declared.Live ∧
        modulePath (declared.owner.binderModule profile) = text := by
  have hseen (hmem : text ∈ seen) : ∃ declared ∈ classes, declared.Live ∧
      modulePath (declared.owner.binderModule profile) = text := by
    rw [h.seen_eq] at hmem
    obtain ⟨spec, hspec, rfl⟩ := List.mem_map.mp hmem
    rw [build_specs_eq] at hspec
    obtain ⟨declared, hdeclared, hfate⟩ := List.mem_filterMap.mp hspec
    obtain ⟨rfl, hclaims, -⟩ := accepted_of_spec? hfate
    exact ⟨declared, hdeclared, .inl hclaims.2.1, rfl⟩
  constructor
  · rintro (hmem | hmem)
    · exact hseen hmem
    rcases List.mem_append.mp hmem with hmem | hmem
    · obtain ⟨owner, howner, hpath⟩ := List.mem_filterMap.mp hmem
      split at hpath
      · exact hseen (h.mem_seen_of_unitPath owner howner text hpath)
      · simp at hpath
    · obtain ⟨⟨declared, fault⟩, hrejected, rfl⟩ := List.mem_map.mp hmem
      exact ⟨declared, (mem_of_mem_rejected hrejected).1, live_of_mem_rejected hrejected, rfl⟩
  · rintro ⟨declared, hdeclared, hlive, rfl⟩
    rw [h.seen_eq]
    exact mem_retained known hdeclared hlive reports

theorem EmitsAll.eq_of_check {specs : List Spec}
    (h : EmitsAll true root profile found tree specs reports last seen stale) : last = tree := by
  induction h with
  | nil => rfl
  | cons _ first _ ih =>
    cases first with
    | kept | stale | refused => exact ih
    | written _ _ unchecked | unwritten _ _ unchecked => simp at unchecked

/-- What is left to prune after emissions below a grounded target was so before. -/
theorem EmitsAll.unclaimed_before {specs : List Spec} {generated : List Path}
    (h : EmitsAll checkOnly root profile found tree specs reports last seen stale)
    (hready : Ready root tree) (hplaced : ∀ spec ∈ specs, spec.Placed)
    (hfound : generatedBelow last root = .ok generated) (keep : List String) :
    ∃ before, generatedBelow tree root = .ok before ∧
      unclaimed seen keep before = unclaimed seen keep generated := by
  cases checkOnly with
  | true =>
    obtain rfl := h.eq_of_check
    exact ⟨generated, hfound, rfl⟩
  | false =>
    obtain ⟨hnow, -, hchanged, -, hreworked⟩ := h.reworked hready hplaced
    refine generatedBelow_before hready hnow hreworked ?_ hfound keep
    rintro place ⟨path, hpath, hplace⟩
    obtain ⟨dirs, leaf, hunit⟩ := h.seen_placed hplaced path (hchanged path hpath)
    exact ⟨path, dirs, leaf, hunit, hchanged path hpath, hplace⟩

variable {keep pruned : List String}

theorem Prunes.eq_nil_of_disabled
    (h : Prunes checkOnly root false seen keep tree pruned last stale) : pruned = [] := by
  cases h with
  | skipped => rfl
  | checked on | deleted on => simp at on

theorem Prunes.exists_generated (h : Prunes checkOnly root true seen keep tree pruned last stale) :
    ∃ generated, generatedBelow tree root = .ok generated := by
  cases h with
  | skipped disabled => simp at disabled
  | checked _ _ found | deleted _ _ found _ => exact ⟨_, found⟩

end

theorem discover_sublist {tree : FileTree} {root : Path} {exclude more : List String}
    {files remaining : List SourceFile} (hmore : exclude ⊆ more)
    (hfiles : discover tree root exclude = .ok files)
    (hremaining : discover tree root more = .ok remaining) : remaining.Sublist files := by
  obtain ⟨-, rfl⟩ := discover_eq_ok_iff.mp hfiles
  obtain ⟨-, rfl⟩ := discover_eq_ok_iff.mp hremaining
  refine (List.monotone_filter_right _ fun path hpath => ?_).filterMap _
  simp only [isCandidate, isExcluded, Bool.and_eq_true, Bool.not_eq_true',
    List.any_eq_false] at hpath ⊢
  exact ⟨hpath.1, hpath.2.1, fun pattern hpattern => hpath.2.2 pattern (hmore hpattern)⟩

namespace Request
variable {request : Request} {tree : FileTree} {report : Report}

/-- A pass that is to prune and rejects no module prunes the generated units that are of no live
class. -/
theorem mem_prunedUnits_iff {tree : Workspace}
    (hsuffix : '/' ∉ request.profile.moduleSuffix.toList) (hgrounded : tree.Grounded request.target)
    (hrun : (request.run tree).result = .ok report)
    (hclean : ∀ module ∈ report.modules, module.judgement.verdict ≠ .reject) :
    ∃ files, discover tree request.sourceRoot request.exclude = .ok files ∧
      ∀ text, text ∈ report.prunedUnits ↔ request.prune = true ∧
        (∃ generated, generatedBelow tree request.target = .ok generated ∧
          text ∈ generated.map (·.text)) ∧
        ∀ declared ∈ request.classes tree files, declared.Live →
          modulePath (declared.owner.binderModule request.profile) ≠ text := by
  obtain ⟨course, rfl, -⟩ := run_ok hrun
  have hclean : request.clean tree course.files = true := by
    refine List.all_eq_true.mpr fun module hmodule => ?_
    simpa using hclean module hmodule
  refine ⟨course.files, course.discovered, fun text => ?_⟩
  change text ∈ course.pruned ↔ _
  have hprunes := course.prunes
  rw [hclean, Bool.and_true] at hprunes
  cases hprune : request.prune with
  | false =>
    rw [hprune] at hprunes
    simp [hprunes.eq_nil_of_disabled]
  | true =>
    rw [hprune] at hprunes
    obtain ⟨found, hfound⟩ := hprunes.exists_generated
    -- What is pruned after the emissions is told from the tree before them.
    obtain ⟨generated, hgenerated, hsame⟩ := course.emits.unclaimed_before
      ⟨tree.formed.toNested, hgrounded⟩ (specs_placed_of_suffix hsuffix course.discovered)
      hfound (retainedPaths request.profile (request.built tree course.files) course.emitted)
    have hclaimed := course.emits.claimed_iff text
    rw [hprunes.pruned_eq rfl hfound, ← hsame]
    simp only [unclaimed, List.mem_map, List.mem_filter, Bool.and_eq_true, Bool.not_eq_true',
      List.contains_eq_mem, decide_eq_false_iff_not, true_and, hgenerated, Except.ok.injEq,
      exists_eq_left']
    constructor
    · rintro ⟨path, ⟨hpath, hseen, hkeep⟩, rfl⟩
      refine ⟨⟨path, hpath, rfl⟩, fun declared hdeclared hlive hsame => ?_⟩
      exact (hclaimed.mpr ⟨declared, hdeclared, hlive, hsame⟩).elim hseen hkeep
    · rintro ⟨⟨path, hpath, rfl⟩, hunowned⟩
      have hfree := mt hclaimed.mp (by
        rintro ⟨declared, hdeclared, hlive, hsame⟩
        exact hunowned declared hdeclared hlive hsame)
      obtain ⟨hseen, hkeep⟩ := not_or.mp hfree
      exact ⟨path, ⟨hpath, hseen, hkeep⟩, rfl⟩

/-- Of the units that a pass prunes that leaves out more modules, the one that leaves out fewer
spares those of the live classes in the modules that make the difference, and no others. -/
theorem run_excluding (tree : Workspace) {more : List String} {shorter : Report}
    (hsuffix : '/' ∉ request.profile.moduleSuffix.toList)
    (hgrounded : tree.Grounded request.target) (hmore : request.exclude ⊆ more)
    (hrun : (request.run tree).result = .ok report)
    (hclean : ∀ module ∈ report.modules, module.judgement.verdict ≠ .reject)
    (hshorter : ({ request with exclude := more }.run tree).result = .ok shorter)
    (hcleaner : ∀ module ∈ shorter.modules, module.judgement.verdict ≠ .reject) :
    ∃ files remaining, discover tree request.sourceRoot request.exclude = .ok files ∧
      discover tree request.sourceRoot more = .ok remaining ∧ remaining.Sublist files ∧
      ∀ text, text ∈ report.prunedUnits ↔ text ∈ shorter.prunedUnits ∧
        ∀ file ∈ files, file ∉ remaining → ∀ declared ∈ (request.scanFile tree file).classes,
          declared.Live → modulePath (declared.owner.binderModule request.profile) ≠ text := by
  obtain ⟨files, hfiles, hpruned⟩ := mem_prunedUnits_iff hsuffix hgrounded hrun hclean
  obtain ⟨remaining, hremaining, hpruned'⟩ :=
    @mem_prunedUnits_iff { request with exclude := more } _ _ hsuffix hgrounded hshorter
      hcleaner
  have hsublist := discover_sublist hmore hfiles hremaining
  have hclasses {files : List SourceFile} {declared : DeclaredClass} :
      declared ∈ request.classes tree files ↔
        ∃ file ∈ files, declared ∈ (request.scanFile tree file).classes := by
    simp [classes, scans]
  refine ⟨files, remaining, hfiles, hremaining, hsublist, fun text => ?_⟩
  rw [hpruned, hpruned']
  constructor
  · rintro ⟨hprune, hgenerated, hunowned⟩
    refine ⟨⟨hprune, hgenerated, fun declared hdeclared => ?_⟩,
      fun file hfile _ declared hdeclared =>
      hunowned declared (hclasses.mpr ⟨file, hfile, hdeclared⟩)⟩
    obtain ⟨file, hfile, hdeclared⟩ := hclasses.mp hdeclared
    exact hunowned declared (hclasses.mpr ⟨file, hsublist.subset hfile, hdeclared⟩)
  · rintro ⟨⟨hprune, hgenerated, hunowned⟩, hleft⟩
    refine ⟨hprune, hgenerated, fun declared hdeclared => ?_⟩
    obtain ⟨file, hfile, hdeclared⟩ := hclasses.mp hdeclared
    by_cases hremains : file ∈ remaining
    · exact hunowned declared (hclasses.mpr ⟨file, hremains, hdeclared⟩)
    · exact hleft file hfile hremains declared hdeclared

end Request

def PassOutcome.pruned (outcome : PassOutcome) : Option (List Verdict × List String) :=
  outcome.result.toOption.map fun report =>
    (report.modules.map (·.judgement.verdict), report.prunedUnits)

/-- The sample pass, but that its module is left out. -/
def Request.shorter : Request := { Request.sample with exclude := ["m.py"] }

private theorem Request.shorter_runs :
    (sample.run .leftover).pruned = some ([.accept], ["old_binding.py"]) ∧
    (shorter.run .leftover).pruned = some ([], ["old_binding.py"]) ∧
    (shorter.run .sample).pruned = some ([], ["a_binding.py"]) := by
  decide +kernel

theorem Request.run_excluding_leftover : ∃ report less files remaining,
    (sample.run .leftover).result = .ok report ∧ (shorter.run .leftover).result = .ok less ∧
    discover .leftover sample.sourceRoot sample.exclude = .ok files ∧
    discover .leftover shorter.sourceRoot shorter.exclude = .ok remaining ∧
    "old_binding.py" ∈ report.prunedUnits ∧ "old_binding.py" ∈ less.prunedUnits ∧
    ∀ file ∈ files, file ∉ remaining → ∀ declared ∈ (sample.scanFile .leftover file).classes,
      declared.Live →
        modulePath (declared.owner.binderModule sample.profile) ≠ "old_binding.py" := by
  obtain ⟨report, hrun, hreport⟩ := PassOutcome.result_of_shown shorter_runs.1
  obtain ⟨less, hless, hshown⟩ := PassOutcome.result_of_shown shorter_runs.2.1
  obtain ⟨hmodules, hpruned⟩ := Prod.mk.inj hreport
  obtain ⟨hmodules', hpruned'⟩ := Prod.mk.inj hshown
  have hclean : ∀ module ∈ report.modules, module.judgement.verdict ≠ .reject := by
    intro module hmodule hreject
    have hverdict := List.mem_map_of_mem (f := (·.judgement.verdict)) hmodule
    rw [hmodules, hreject] at hverdict
    simp at hverdict
  have hformed : FileTree.leftover.WellFormed := .of_entries (by decide) (by decide)
  obtain ⟨files, remaining, hfiles, hremaining, -, hiff⟩ :=
    @run_excluding sample _ ⟨_, hformed⟩ ["m.py"] _ (by decide) (.of_not_mem (by decide))
      (by simp [sample]) hrun hclean hless (by simp [List.map_eq_nil_iff.mp hmodules'])
  have hmem : "old_binding.py" ∈ report.prunedUnits := by simp [hpruned]
  exact ⟨report, less, files, remaining, hrun, hless, hfiles, hremaining, hmem,
    ((hiff _).mp hmem).1, ((hiff _).mp hmem).2⟩

/-- A class whose module is left out loses its unit, which the pass would write otherwise. -/
theorem Request.run_prunes_excluded : sample.exclude ⊆ shorter.exclude ∧
    sample.clean .sample sampleFiles = true ∧
    (sample.run .sample).units = some ([(some "a_binding.py", none, true)], []) ∧
    (shorter.run .sample).pruned = some ([], ["a_binding.py"]) :=
  ⟨by decide, sample_built.2.2, sample_run.1, shorter_runs.2.2⟩

end ElementBinding
