import ElementBinding.Proofs.Pass.Pruning

/-!
# What a pass changes

A pass changes files in three ways: it writes units of owners it reports as changed, deletes units
it reports as pruned, and writes its report. What it replaces or deletes was generated. The one
exception is a file that could not be seen when the unit was judged: its path led nowhere then,
since it went through a directory that was still to be made, and led to the file afterwards.
-/
namespace ElementBinding
open ElementBinding.Text

/-- The file at a place was written for an owner, and what stood there before was generated unless
the path of some unit did not lead there yet. -/
structure WrittenAt (root : Path) (profile : Profile) (specs : List Spec)
    (reports : List OwnerReport) (before after : FileTree) (place : Location) : Prop where
  emitted : ∃ spec ∈ specs, ∃ unit, spec.render profile = .ok unit ∧
    emittedOwner false spec ⟨unit, true⟩ ∈ reports ∧
    after.locate (root.extend unit.path) = .ok place ∧
    after.content? place = some (encode unit.source)
  replaced : ∀ content, before.content? place = some content →
    isGenerated (decodeTolerant content) ∨ ∃ spec ∈ specs,
      (∃ condition, before.locate (root.extend spec.unitPath) = .error condition) ∧
        after.locate (root.extend spec.unitPath) = .ok place

section

variable {checkOnly : Bool} {root : Path} {profile : Profile} {classes : List DeclaredClass}
  {spec : Spec} {unit : BinderUnit} {tree next last : FileTree} {report : OwnerReport}
  {stale : List String}

private theorem existingUnit_generated {existing : Option (List Char)} {target : Path}
    {place : Location} {content : Octets} {unitPath : String}
    (hfound : existingUnit tree target unitPath = .ok existing)
    (hlocate : tree.locate target = .ok place) (hcontent : tree.content? place = some content) :
    isGenerated (decodeTolerant content) := by
  have hfind := (FileTree.find?_eq_some_iff tree target _).mpr
    ⟨place, hlocate, FileTree.content?_eq_some_iff.mp hcontent⟩
  rw [existingUnit_eq, hfind] at hfound
  dsimp only at hfound
  cases htext : readText content with
  | none => simp [htext] at hfound
  | some text =>
    rw [htext] at hfound
    by_cases hgenerated : isGenerated text
    · rw [← isGenerated_of_readText htext]
      exact hgenerated
    · simp [hgenerated] at hfound

theorem Emits.frame (h : Emits checkOnly root classes spec unit tree report next stale)
    (hrender : spec.render profile = .ok unit) (hnested : tree.Nested) :
    next.Nested ∧ FileTree.Keeps tree next ∧ ∀ place, next.content? place = tree.content? place ∨
      checkOnly = false ∧ WrittenAt root profile [spec] [report] tree next place := by
  cases h with
  | kept => exact ⟨hnested, .refl _, fun _ => .inl rfl⟩
  | stale => exact ⟨hnested, .refl _, fun _ => .inl rfl⟩
  | refused => exact ⟨hnested, .refl _, fun _ => .inl rfl⟩
  | unwritten _ _ _ applied =>
    obtain ⟨hnext, hgrown⟩ := hnested.write_failed applied
    exact ⟨hnext, hgrown.keeps, fun place => .inl (hgrown.content? place)⟩
  | written found _ unchecked applied =>
    obtain ⟨hnext, written, hlocate, hwrote⟩ := hnested.write applied
    subst unchecked
    have hcontent := hwrote.content?
    refine ⟨hnext, hwrote.keeps, fun place => ?_⟩
    by_cases hsame : place = written
    · subst place
      rw [hcontent, if_pos rfl]
      refine .inr ⟨rfl, ⟨spec, by simp, unit, hrender, by simp, hlocate, ?_⟩,
        fun content hold => ?_⟩
      · rw [hcontent, if_pos rfl]
      · cases hbefore : tree.locate (root.extend unit.path) with
        | error condition =>
          refine .inr ⟨spec, by simp, ?_⟩
          rw [← (Spec.render_ok hrender).1]
          exact ⟨⟨condition, hbefore⟩, hlocate⟩
        | ok place =>
          have hplace : place = written :=
            (FileTree.place_of_locate hbefore).1.trans (FileTree.place_of_locate hlocate).1.symm
          exact .inl (existingUnit_generated found hbefore (hplace ▸ hold))
    · rw [hcontent, if_neg hsame]
      exact .inl rfl

/-- A chain of emissions changes the files of its units at most. -/
theorem EmitsAll.frame {specs : List Spec} {reports : List OwnerReport} {seen : List String}
    (h : EmitsAll checkOnly root profile classes tree specs reports last seen stale)
    (hnested : tree.Nested) :
    last.Nested ∧ FileTree.Keeps tree last ∧ ∀ place, last.content? place = tree.content? place ∨
      checkOnly = false ∧ WrittenAt root profile specs reports tree last place := by
  induction h with
  | nil tree => exact ⟨hnested, .refl _, fun _ => .inl rfl⟩
  | @cons spec specs unit tree next last report reports seen stale more rendered first rest ih =>
    obtain ⟨hnext, hkeeps, hfirst⟩ := first.frame rendered hnested
    obtain ⟨hlast, hkeeps', hrest⟩ := ih hnext
    -- Directories only come, so what the later emissions cannot see could not be seen before.
    have hhidden {spec : Spec}
        (h : ∃ condition, next.locate (root.extend spec.unitPath) = .error condition) :
        ∃ condition, tree.locate (root.extend spec.unitPath) = .error condition := by
      obtain ⟨condition, hnowhere⟩ := h
      cases htree : tree.locate (root.extend spec.unitPath) with
      | error condition => exact ⟨condition, rfl⟩
      | ok place => simp [hkeeps.locate htree] at hnowhere
    refine ⟨hlast, hkeeps.trans hkeeps', fun place => ?_⟩
    rcases hrest place with hsame | ⟨hreal, hwritten⟩
    · rcases hfirst place with hsame' | ⟨hreal, hwritten⟩
      · exact .inl (hsame.trans hsame')
      · refine .inr ⟨hreal, ?_, fun content hold => ?_⟩
        · obtain ⟨found, hmem, unit, hrender, hreport, hlocate, hcontent⟩ := hwritten.emitted
          rw [List.mem_singleton] at hmem hreport
          exact ⟨found, by simp [hmem], unit, hrender, by simp [hreport], hkeeps'.locate hlocate,
            hsame.trans hcontent⟩
        · rcases hwritten.replaced content hold with hgenerated | ⟨found, hmem, hbefore, hafter⟩
          · exact .inl hgenerated
          · rw [List.mem_singleton] at hmem
            exact .inr ⟨found, by simp [hmem], hbefore, hkeeps'.locate hafter⟩
    · refine .inr ⟨hreal, ?_, fun content hold => ?_⟩
      · obtain ⟨found, hmem, unit, hrender, hreport, hplace⟩ := hwritten.emitted
        exact ⟨found, List.mem_cons_of_mem _ hmem, unit, hrender, List.mem_cons_of_mem _ hreport,
          hplace⟩
      · rcases hfirst place with hsame' | ⟨-, hwritten'⟩
        · rcases hwritten.replaced content (hsame'.trans hold) with
            hgenerated | ⟨found, hmem, hbefore, hafter⟩
          · exact .inl hgenerated
          · exact .inr ⟨found, List.mem_cons_of_mem _ hmem, hhidden hbefore, hafter⟩
        · rcases hwritten'.replaced content hold with hgenerated | ⟨found, hmem, hbefore, hafter⟩
          · exact .inl hgenerated
          · rw [List.mem_singleton] at hmem
            exact .inr ⟨found, by simp [hmem], hbefore, hkeeps'.locate hafter⟩

theorem EmitsAll.below_named {specs : List Spec} {reports : List OwnerReport} {seen : List String}
    {tree : Workspace}
    (h : EmitsAll checkOnly root profile classes tree specs reports last seen stale)
    {path : Path} {place : Location}
    (hpath : path ∈ last.below root ".py")
    (hlocate : last.locate (root ++ path) = .ok place) (hfile : last.content? place ≠ none) :
    ∀ name ∈ path.parts, IsFileName name := by
  obtain ⟨hlast, -, hchanges⟩ := h.frame tree.formed.toNested
  obtain ⟨base, hbase, -, hrelative, hparts, hstands, -⟩ := FileTree.mem_below.mp hpath
  obtain ⟨rfl, hroot⟩ := FileTree.place_of_locate hbase
  have hpath' : root ++ path = ⟨"", root.parts ++ path.parts⟩ := by
    rw [← hroot]
    exact if_pos hrelative
  have hdots : ".." ∉ path.parts := fun hmem =>
    hlast.plain _ hstands (List.mem_append_right _ hmem)
  have hplace : place = root.place ++ path.parts := by
    rw [(FileTree.place_of_locate hlocate).1, hpath', FileTree.place_append hdots]
    rfl
  rcases hchanges place with hsame | ⟨-, hwritten⟩
  · intro name hname
    have hold : tree.lookup place ≠ none := by
      intro hnone
      rw [hsame, FileTree.content?, hnone] at hfile
      exact hfile rfl
    exact tree.formed.named place hold name (hplace ▸ List.mem_append_right _ hname)
  · obtain ⟨spec, -, unit, -, -, hunit, -⟩ := hwritten.emitted
    obtain ⟨hplace', hrelative'⟩ := FileTree.place_of_locate hunit
    obtain ⟨names, hextend, hnames⟩ := Path.extend_of_relative hrelative'
    -- The place of the unit lies below the target, so what leads down to it comes from the unit.
    obtain ⟨above, down, harrive, habove, hdown⟩ := FileTree.exists_arrive_eq root.place names
    have hextended : (root.extend unit.path).place = FileTree.arrive root.place names := by
      rw [hextend]
      exact FileTree.arrive_append [] root.parts names
    rw [hplace, hextended, harrive] at hplace'
    intro name hname
    have hbelow : path.parts <:+ down := by
      refine List.suffix_of_suffix_length_le (List.suffix_append root.place path.parts)
        (hplace' ▸ List.suffix_append above down) ?_
      have hlength := congrArg List.length hplace'
      have hle := habove.length_le
      simp only [List.length_append] at hlength
      omega
    obtain ⟨hnonempty, hdot, hslash⟩ := hnames name (hdown (hbelow.subset hname))
    exact ⟨hnonempty, hdot, fun heq => hdots (heq ▸ hname), hslash⟩

theorem Prunes.frame {enabled : Bool} {seen keep pruned : List String}
    (h : Prunes checkOnly root enabled seen keep tree pruned next stale) (hnested : tree.Nested) :
    next.Nested ∧ FileTree.Keeps tree next ∧ ∀ place, next.content? place = tree.content? place ∨
      checkOnly = false ∧ next.content? place = none ∧ ∃ path ∈ tree.below root ".py",
        path.text ∈ pruned ∧ tree.locate (root ++ path) = .ok place ∧
        ∃ content, tree.content? place = some content ∧ isGenerated (decodeTolerant content) := by
  cases h with
  | skipped => exact ⟨hnested, .refl _, fun _ => .inl rfl⟩
  | checked => exact ⟨hnested, .refl _, fun _ => .inl rfl⟩
  | deleted _ real found applied =>
    obtain ⟨hnext, hdeleted⟩ := deleted_of_applied hnested applied
    refine ⟨hnext, hdeleted.keeps, fun place => ?_⟩
    rcases hdeleted.others place with hsame | ⟨hnone, _, hpath, hlocate⟩
    · exact .inl (FileTree.content?_congr hsame)
    · obtain ⟨path, hunclaimed, rfl⟩ := List.mem_map.mp hpath
      obtain ⟨hbelow, -, -, hmark, -⟩ := (mem_unclaimed found).mp hunclaimed
      rw [isGeneratedAt_eq hlocate] at hmark
      exact .inr ⟨real, by simp [FileTree.content?, hnone], path, hbelow,
        List.mem_map_of_mem hunclaimed, hlocate, (Option.any_eq_true _ _).mp hmark⟩

end

theorem reportFile_eq (directory : Path) :
    reportFile directory =
      { directory with parts := directory.parts ++ ["viewbind_report.json"] } := by
  have h : directory.extend ("/".intercalate ["viewbind_report.json"]) =
      { directory with parts := directory.parts ++ ["viewbind_report.json"] } :=
    Path.extend_intercalate directory (by simp)
      (by simpa using ⟨by decide, by decide, by decide, by decide⟩)
  rwa [String.intercalate_singleton] at h

theorem writeReport_frame {tree after : FileTree} {report : Report} {directory file : Path}
    (h : writeReport tree report directory = (after, .ok file)) (hnested : tree.Nested) :
    FileTree.Keeps tree after ∧ ∃ written, after.locate (reportFile directory) = .ok written ∧
      ∀ place, place ≠ written → after.content? place = tree.content? place := by
  have hparent : (reportFile directory).parent = directory := by simp [reportFile_eq, Path.parent]
  unfold writeReport at h
  rcases hmade : tree.applyAll (tree.makeDirectories directory) with ⟨middle, _ | fault⟩
  · cases htext : report.fileText? with
    | none => simp [hmade, htext] at h
    | some text =>
      rcases hfile : middle.applyAll [.openFile (reportFile directory),
        .append (reportFile directory) (encode text)] with ⟨last, _ | fault⟩
      · simp only [hmade, htext, hfile, Prod.mk.injEq] at h
        obtain ⟨rfl, -⟩ := h
        have hsteps : tree.applyAll (tree.writeSteps (reportFile directory) (encode text)) =
            (last, none) := by
          rw [FileTree.writeSteps, hparent, FileTree.applyAll_append, hmade]
          exact hfile
        obtain ⟨-, written, hlocate, hwrote⟩ := hnested.write hsteps
        refine ⟨hwrote.keeps, written, hlocate, fun place hne => ?_⟩
        rw [hwrote.content?, if_neg hne]
      · simp [hmade, htext, hfile] at h
  · simp [hmade] at h

namespace Request
variable {request : Request} {tree : FileTree} {report : Report} {place : Location}

/-- A place holds the unit of an owner that is reported as changed. -/
def Wrote (request : Request) (tree : FileTree) (report : Report) (after : FileTree)
    (place : Location) : Prop :=
  ∃ files, discover tree request.sourceRoot request.exclude = .ok files ∧
    ∃ spec ∈ (request.built tree files).specs, ∃ unit, spec.render request.profile = .ok unit ∧
      emittedOwner false spec ⟨unit, true⟩ ∈ report.owners ∧
      after.locate (request.target.extend unit.path) = .ok place ∧
      after.content? place = some (encode unit.source)

def Pruned (request : Request) (report : Report) (after : FileTree) (place : Location) : Prop :=
  ∃ path ∈ report.prunedUnits, after.locate (request.target.extend path) = .ok place ∧
    after.content? place = none

/-- The path of some unit leads to a place in the tree that is left, but led nowhere at first. -/
def Unseen (request : Request) (tree after : FileTree) (place : Location) : Prop :=
  ∃ files, discover tree request.sourceRoot request.exclude = .ok files ∧
    ∃ spec ∈ (request.built tree files).specs,
      (∃ condition, tree.locate (request.target.extend spec.unitPath) = .error condition) ∧
        after.locate (request.target.extend spec.unitPath) = .ok place

private theorem not_unseen {tree : Workspace} {after : FileTree} {content : Octets}
    (hprofile : request.profile = .standard)
    (hgrounded : tree.Grounded request.target) (hold : tree.content? place = some content) :
    ¬request.Unseen tree after place := by
  rintro ⟨files, hdiscover, spec, hspec, ⟨condition, hnowhere⟩, hafter⟩
  obtain ⟨dirs, leaf, hunit⟩ := specs_placed hprofile hdiscover spec hspec
  obtain ⟨hplace, hroot⟩ := FileTree.place_of_locate hafter
  generalize request.target = target at *
  rw [hunit.extend] at hnowhere hplace hroot
  have hstands : tree.lookup place ≠ none := by
    rw [FileTree.content?_eq_some_iff.mp hold]
    simp
  have hlocate :=
    (hgrounded.extend hunit.notDots).locate tree.formed.toNested hroot (hplace ▸ hstands)
  rw [hlocate] at hnowhere
  simp at hnowhere

private theorem extend_text {root path : Path} (hrelative : path.root = "")
    (hparts : path.parts ≠ []) (hnames : ∀ name ∈ path.parts, IsFileName name) :
    root.extend path.text = root ++ path := by
  obtain ⟨_, names⟩ := path
  simp only at hrelative
  subst hrelative
  rw [Path.text_of_names hparts hnames, Path.extend_intercalate root hparts hnames]
  rfl

/-- Every file that a pass changes, but for its report, is written for an owner reported as changed
or reported as pruned, and a check changes none. What stood there was generated, unless the target
leads through a directory still to be made, and the path of the unit led nowhere before. -/
theorem run_frame (tree : Workspace) (hprofile : request.profile = .standard)
    (hrun : (request.run tree).result = .ok report)
    (hplace : ∀ directory, request.reportDirectory = some directory →
      (request.run tree).tree.locate (reportFile directory) ≠ .ok place)
    (hchanged : (request.run tree).tree.content? place ≠ tree.content? place) :
    request.checkOnly = false ∧
    (request.Wrote tree report (request.run tree).tree place ∨
      request.Pruned report (request.run tree).tree place) ∧
    ∀ content, tree.content? place = some content →
      isGenerated (decodeTolerant content) ∨
        request.Unseen tree (request.run tree).tree place ∧ ¬tree.Grounded request.target := by
  obtain ⟨course, rfl, hreport⟩ := run_ok hrun
  obtain ⟨hmiddle, hkeeps, hemitted⟩ := course.emits.frame tree.formed.toNested
  obtain ⟨hlast, hkeeps', hpruned⟩ := course.prunes.frame hmiddle
  -- Writing the report leaves the place alone and takes no directory away.
  have hend : FileTree.Keeps course.last (request.run tree).tree ∧
      (request.run tree).tree.content? place = course.last.content? place := by
    split at hreport
    · rw [hreport]
      exact ⟨.refl _, rfl⟩
    · rename_i directory hdirectory
      obtain ⟨file, hwrite⟩ := hreport
      obtain ⟨hkeeps'', written, hlocate, hothers⟩ := writeReport_frame hwrite hlast
      refine ⟨hkeeps'', hothers place ?_⟩
      rintro rfl
      exact hplace directory hdirectory hlocate
  obtain ⟨hkeeps'', hcontent⟩ := hend
  generalize (request.run tree).tree = after at *
  -- What stood at a place that emissions wrote to.
  have hreplaced (hwritten : WrittenAt request.target request.profile
      (request.built tree course.files).specs course.emitted tree course.middle place)
      (content : Octets) (hold : tree.content? place = some content) :
      isGenerated (decodeTolerant content) ∨
        request.Unseen tree after place ∧ ¬tree.Grounded request.target := by
    rcases hwritten.replaced content hold with hgenerated | ⟨spec, hspec, hbefore, hafter⟩
    · exact .inl hgenerated
    · have hunseen : request.Unseen tree after place := ⟨course.files, course.discovered, spec,
        hspec, hbefore, hkeeps''.locate (hkeeps'.locate hafter)⟩
      exact .inr ⟨hunseen, fun hgrounded => not_unseen hprofile hgrounded hold hunseen⟩
  rcases hpruned place with hsame | ⟨hreal, hnone, path, hbelow, hpath, hlocate, old, hold, hmark⟩
  · rcases hemitted place with hsame' | ⟨hreal, hwritten⟩
    · exact absurd (hcontent.trans (hsame.trans hsame')) hchanged
    · refine ⟨hreal, .inl ?_, hreplaced hwritten⟩
      obtain ⟨spec, hspec, unit, hrender, howner, hlocate, hunit⟩ := hwritten.emitted
      exact ⟨course.files, course.discovered, spec, hspec, unit, hrender,
        List.mem_append_right _ howner, hkeeps''.locate (hkeeps'.locate hlocate),
        hcontent.trans (hsame.trans hunit)⟩
  · have hnamed := course.emits.below_named hbelow hlocate (by rw [hold]; simp)
    obtain ⟨_, _, _, hrelative, hparts, _⟩ := FileTree.mem_below.mp hbelow
    refine ⟨hreal, .inr ⟨path.text, hpath, ?_, hcontent.trans hnone⟩, fun content hbefore => ?_⟩
    · rw [extend_text hrelative hparts hnamed]
      exact hkeeps''.locate (hkeeps'.locate hlocate)
    · rcases hemitted place with hsame' | ⟨-, hwritten⟩
      · obtain rfl := Option.some.inj (hold.symm.trans (hsame'.trans hbefore))
        exact .inl hmark
      · exact hreplaced hwritten content hbefore

end Request

/-- A module with a class to bind, and a unit for it that is out of date. -/
def FileTree.sample : FileTree := ⟨[(["src"], .directory),
  (["src", "m.py"], .file (encode "class A:\n    f = bind_view(1)\n")),
  (["out"], .directory),
  (["out", "a_binding.py"], .file (encode generatedHeader))]⟩

/-- A pass into a directory of its own. -/
def Request.sample : Request where
  sourceRoot := ⟨"", ["src"]⟩
  outputRoot := some ⟨"", ["out"]⟩

theorem FileTree.sample_formed : FileTree.sample.WellFormed :=
  .of_entries (by decide) (by decide)

def OwnerReport.unit (owner : OwnerReport) : Option String × Option String × Bool :=
  (owner.unitPath, owner.error, owner.changed)

theorem PassOutcome.result_of_shown {α : Type} {outcome : PassOutcome} {part : Report → α}
    {shown : α} (h : outcome.result.toOption.map part = some shown) :
    ∃ report, outcome.result = .ok report ∧ part report = shown := by
  obtain ⟨report, hreport, rfl⟩ := Option.map_eq_some_iff.mp h
  refine ⟨report, ?_, rfl⟩
  cases hresult : outcome.result with
  | error fault => simp [hresult, Except.toOption] at hreport
  | ok found => simpa [hresult, Except.toOption] using hreport

def PassOutcome.units (outcome : PassOutcome) :
    Option (List (Option String × Option String × Bool) × List String) :=
  outcome.result.toOption.map fun report => (report.owners.map (·.unit), report.prunedUnits)

theorem PassOutcome.result_of_units {outcome : PassOutcome}
    {units : List (Option String × Option String × Bool) × List String}
    (h : outcome.units = some units) : ∃ report, outcome.result = .ok report ∧
      report.owners.map (·.unit) = units.1 ∧ report.prunedUnits = units.2 := by
  obtain ⟨report, hrun, rfl⟩ := result_of_shown h
  exact ⟨report, hrun, rfl, rfl⟩

theorem changedPaths_eq (owners : List OwnerReport) :
    changedPaths owners = ((owners.map (·.unit)).filter (·.2.2)).filterMap (·.1) := by
  rw [List.filter_map, List.filterMap_map]
  rfl

/-- The tree with something else in the place of the unit. -/
def FileTree.sampleWith (content : Octets) : FileTree := ⟨[(["src"], .directory),
  (["src", "m.py"], .file (encode "class A:\n    f = bind_view(1)\n")),
  (["out"], .directory),
  (["out", "a_binding.py"], .file content)]⟩

def Spec.sample : Spec := ⟨"m", "A", "a_binding", "ABinding", [⟨"m.A", "f", none, 1, 1⟩]⟩

theorem Spec.sample_render :
    ∃ unit, sample.render .standard = .ok unit ∧ unit.path = "a_binding.py" :=
  ⟨_, render_eq (by decide), (by decide : sample.unitPath = _)⟩

def Request.sampleFiles : List SourceFile := [⟨⟨"", ["src", "m.py"]⟩, "m", false⟩]

theorem Request.discover_sampleWith (content : Octets) :
    discover (.sampleWith content) sample.sourceRoot sample.exclude = .ok sampleFiles := by
  have hbelow : (FileTree.sampleWith content).below sample.sourceRoot ".py" =
      [⟨"", ["m.py"]⟩].mergeSort Path.le := rfl
  rw [discover, candidateFiles_of_below hbelow (by decide)]
  rfl

theorem sample_built : (Request.sample.built .sample Request.sampleFiles).specs = [.sample] ∧
    (Request.sample.built .sample Request.sampleFiles).rejected = [] ∧
    Request.sample.clean .sample Request.sampleFiles = true := by
  decide +kernel

private theorem header_ne_sample : generatedHeader.toList ≠
    Spec.sample.lines.flatMap fun line => line.toList ++ ['\n'] := by
  decide

private theorem sample_emits {unit : BinderUnit} (hrender : Spec.sample.render .standard = .ok unit)
    (hpath : unit.path = "a_binding.py") (classes : List DeclaredClass) :
    Emits false Request.sample.target classes .sample unit .sample
      (emittedOwner false .sample ⟨unit, true⟩) (.sampleWith (encode unit.source)) [] := by
  refine .written (?_ : existingUnit _ _ _ = .ok (some generatedHeader.toList)) ?_ rfl ?_
  · rw [hpath]
    decide
  · rw [Spec.toList_source hrender]
    exact fun h => header_ne_sample (Option.some.inj h)
  · rw [hpath]
    rfl

private theorem sampleWith_generated {spec : Spec} {unit : BinderUnit}
    (hrender : spec.render .standard = .ok unit) :
    generatedBelow (.sampleWith (encode unit.source)) Request.sample.target =
      .ok [⟨"", ["a_binding.py"]⟩] := by
  have hbelow : (FileTree.sampleWith (encode unit.source)).below Request.sample.target ".py" =
      [⟨"", ["a_binding.py"]⟩].mergeSort Path.le := rfl
  have hmark : isGeneratedAt (.sampleWith (encode unit.source)) Request.sample.target
      ⟨"", ["a_binding.py"]⟩ := by
    have hlocate : (FileTree.sampleWith (encode unit.source)).locate
        (Request.sample.target ++ (⟨"", ["a_binding.py"]⟩ : Path)) =
          .ok ["out", "a_binding.py"] := rfl
    rw [isGeneratedAt_eq hlocate]
    exact (Option.any_eq_true _ _).mpr ⟨_, rfl, Spec.encode_isGenerated hrender⟩
  rw [generatedBelow_eq_ok_iff, hbelow, List.mergeSort_singleton]
  refine ⟨fun path hpath _ => ?_, ?_⟩
  · rw [List.mem_singleton.mp hpath]
    exact ⟨encode unit.source, rfl⟩
  · rw [List.filter_cons_of_pos (by rw [hmark]; rfl), List.filter_nil]

/-- The pass writes the unit that is out of date. -/
theorem Request.sample_run :
    (Request.sample.run .sample).units = some ([(some "a_binding.py", none, true)], []) ∧
      (Request.sample.run .sample).tree.content? ["out", "a_binding.py"] ≠
        FileTree.sample.content? ["out", "a_binding.py"] := by
  obtain ⟨unit, hrender, hpath⟩ := Spec.sample_render
  obtain ⟨hspecs, hrejected, hclean⟩ := sample_built
  have hall := EmitsAll.cons hrender
    (sample_emits hrender hpath (sample.classes .sample sampleFiles)) (.nil _)
  rw [← hspecs] at hall
  have hprunes (keep : List String) : Prunes false sample.target
      (sample.prune && sample.clean .sample sampleFiles) [unit.path] keep
      (.sampleWith (encode unit.source)) [] (.sampleWith (encode unit.source)) [] := by
    rw [hpath, hclean]
    exact .deleted rfl rfl (sampleWith_generated hrender) rfl
  let course : sample.Course .sample := ⟨sampleFiles, _, _, _, _, _, _, _,
    discover_sampleWith (encode generatedHeader), hall, hprunes _⟩
  obtain ⟨hrun, htree⟩ := run_of course rfl
  constructor
  · have howners : course.report.owners = [emittedOwner false .sample ⟨unit, true⟩] := by
      simp [Course.report, reported, course, hrejected]
    have hpruned : course.report.prunedUnits = [] := rfl
    rw [PassOutcome.units, hrun, Except.toOption, Option.map_some, howners, hpruned]
    simp [emittedOwner, OwnerReport.unit, hpath]
  · rw [htree]
    intro hsame
    have htext := toList_eq_of_encode_eq (Option.some.inj hsame)
    rw [Spec.toList_source hrender] at htext
    exact header_ne_sample htext.symm

theorem Request.run_frame_sample : ∃ report, (Request.sample.run .sample).result = .ok report ∧
    (Request.sample.run .sample).tree.content? ["out", "a_binding.py"] ≠
      FileTree.sample.content? ["out", "a_binding.py"] ∧
    Request.sample.checkOnly = false ∧
    (Request.sample.Wrote .sample report (Request.sample.run .sample).tree ["out", "a_binding.py"] ∨
      Request.sample.Pruned report (Request.sample.run .sample).tree ["out", "a_binding.py"]) ∧
    ∀ content, FileTree.sample.content? ["out", "a_binding.py"] = some content →
      isGenerated (decodeTolerant content) ∨
        Request.sample.Unseen .sample (Request.sample.run .sample).tree ["out", "a_binding.py"] ∧
          ¬FileTree.sample.Grounded Request.sample.target := by
  obtain ⟨hunits, hchanged⟩ := Request.sample_run
  obtain ⟨report, hrun, -⟩ := PassOutcome.result_of_units hunits
  exact ⟨report, hrun, hchanged,
    Request.run_frame ⟨_, FileTree.sample_formed⟩ rfl hrun (by simp [Request.sample]) hchanged⟩

/-- A module with two classes to bind, and files of one's own that bear the names of their units. -/
def FileTree.detour : FileTree := ⟨[(["src"], .directory),
  (["src", "m.py"],
    .file (encode "class A:\n    f = bind_view(1)\nclass B:\n    g = bind_view(2)\n")),
  (["a_binding.py"], .file (encode "y = 1\n")),
  (["b_binding.py"], .file (encode "y = 1\n"))]⟩

/-- A pass into the directory above one that is still to be made. -/
def Request.detour : Request where
  sourceRoot := ⟨"", ["src"]⟩
  outputRoot := some ⟨"", ["x", ".."]⟩
  prune := false

private def detourFiles : List SourceFile := [⟨⟨"", ["src", "m.py"]⟩, "m", false⟩]

private def detourSecond : Spec :=
  ⟨"m", "B", "b_binding", "BBinding", [⟨"m.B", "g", none, 2, 3⟩]⟩

private theorem discover_detour :
    discover .detour Request.detour.sourceRoot Request.detour.exclude = .ok detourFiles := by
  have hbelow : FileTree.detour.below Request.detour.sourceRoot ".py" =
      [⟨"", ["m.py"]⟩].mergeSort Path.le := rfl
  rw [discover, candidateFiles_of_below hbelow (by decide)]
  rfl

private theorem detour_built :
    (Request.detour.built .detour detourFiles).specs = [.sample, detourSecond] ∧
    (Request.detour.built .detour detourFiles).rejected = [] := by
  decide +kernel

private theorem detourSecond_render :
    ∃ unit, detourSecond.render .standard = .ok unit ∧ unit.path = "b_binding.py" :=
  ⟨_, Spec.render_eq (by decide), (by decide : detourSecond.unitPath = _)⟩

private def detourAfter (content : Octets) : FileTree := ⟨[(["src"], .directory),
  (["src", "m.py"],
    .file (encode "class A:\n    f = bind_view(1)\nclass B:\n    g = bind_view(2)\n")),
  (["a_binding.py"], .file content),
  (["b_binding.py"], .file (encode "y = 1\n")),
  (["x"], .directory)]⟩

/-- Nothing can be seen at the path of the first unit, since it leads through a directory that is
still to be made. -/
private theorem detour_emits {unit : BinderUnit} (hpath : unit.path = "a_binding.py")
    (classes : List DeclaredClass) : Emits false Request.detour.target classes .sample unit .detour
      (emittedOwner false .sample ⟨unit, true⟩) (detourAfter (encode unit.source)) [] := by
  refine .written (?_ : existingUnit _ _ _ = .ok none) (by simp) rfl ?_
  · rw [hpath]
    rfl
  · rw [hpath]
    rfl

private theorem readText_handWritten : readText (encode "y = 1\n") = some "y = 1\n".toList ∧
    isGenerated "y = 1\n".toList = false := by
  decide

/-- The file in the place of the second unit is seen. -/
private theorem detourAfter_emits {unit : BinderUnit} (hpath : unit.path = "b_binding.py")
    (content : Octets) (classes : List DeclaredClass) :
    Emits false Request.detour.target classes detourSecond unit (detourAfter content)
      (failedOwner classes detourSecond
        "refusing to overwrite hand-written module x/../b_binding.py")
      (detourAfter content) [] := by
  have hfind : (detourAfter content).find? (Request.detour.target.extend unit.path) =
      some (.file (encode "y = 1\n")) := by
    rw [hpath]
    rfl
  obtain ⟨hread, hmark⟩ := readText_handWritten
  have hmessage : (EmitFault.refused (Request.detour.target.extend "b_binding.py")
      "b_binding.py").message = "refusing to overwrite hand-written module x/../b_binding.py" := by
    decide
  rw [← hmessage, ← hpath]
  exact .refused (existingUnit_of_handWritten hfind hread hmark unit.path) rfl

/-- The first unit takes the place of a file of one's own, which the second meets. -/
theorem Request.detour_run :
    (Request.detour.run .detour).units = some ([(some "a_binding.py", none, true),
      (some "b_binding.py",
        some "refusing to overwrite hand-written module x/../b_binding.py", false)], []) ∧
      (Request.detour.run .detour).tree.content? ["a_binding.py"] ≠ some (encode "y = 1\n") := by
  obtain ⟨first, hfirst, hpath⟩ := Spec.sample_render
  obtain ⟨second, hsecond, hpath'⟩ := detourSecond_render
  obtain ⟨hspecs, hrejected⟩ := detour_built
  have hall := EmitsAll.cons hfirst (detour_emits hpath (detour.classes .detour detourFiles))
    (.cons hsecond (detourAfter_emits hpath' _ _) (.nil _))
  rw [← hspecs] at hall
  let course : detour.Course .detour :=
    ⟨detourFiles, _, _, _, _, _, _, _, discover_detour, hall, .skipped rfl⟩
  obtain ⟨hrun, htree⟩ := run_of course rfl
  constructor
  · have howners : course.report.owners = [emittedOwner false .sample ⟨first, true⟩,
        failedOwner (detour.classes .detour detourFiles) detourSecond
          "refusing to overwrite hand-written module x/../b_binding.py"] := by
      simp [Course.report, reported, course, hrejected]
    have hpruned : course.report.prunedUnits = [] := rfl
    have hrefused : detourSecond.unitPath = "b_binding.py" := by decide
    rw [PassOutcome.units, hrun, Except.toOption, Option.map_some, howners, hpruned]
    simp [emittedOwner, OwnerReport.unit, hpath, failedOwner, rejectedOwner, hrefused]
  · rw [htree]
    intro hsame
    have htext := toList_eq_of_encode_eq (Option.some.inj hsame)
    have hmark := Spec.render_isGenerated hfirst
    rw [htext, readText_handWritten.2] at hmark
    simp at hmark

/-- Without a grounded target a pass can change a file that was not generated. -/
theorem Request.run_changes_handWritten : ∃ report content,
    (Request.detour.run .detour).result = .ok report ∧
    FileTree.detour.content? ["a_binding.py"] = some content ∧
    (Request.detour.run .detour).tree.content? ["a_binding.py"] ≠ some content ∧
    isGenerated (decodeTolerant content) = false := by
  obtain ⟨hunits, hchanged⟩ := Request.detour_run
  obtain ⟨report, hrun, -⟩ := PassOutcome.result_of_units hunits
  exact ⟨report, encode "y = 1\n", hrun, rfl, hchanged, by decide⟩

end ElementBinding
