import ElementBinding.Proofs.Pass.LiveUnits

/-!
# Units of their own

Owners that are accepted have binder modules of different names. These have files of their own
unless a name has an empty component, which its path leaves out: a file whose name begins with a
dot is discovered, and its module is named with two dots in a row.
-/
namespace ElementBinding
open ElementBinding.Naming ElementBinding.Text

/-- The file at the place of a unit is the unit, or reads like it. -/
def FileTree.HoldsUnit (tree : FileTree) (root : Path) (unit : BinderUnit) : Prop :=
  ∃ content, tree.content? (root.extend unit.path).place = some content ∧
    (content = encode unit.source ∨ readText content = some unit.source.toList)

theorem FileTree.HoldsUnit.congr {before after : FileTree} {root : Path} {unit : BinderUnit}
    (h : before.HoldsUnit root unit) (hsame : after.content? (root.extend unit.path).place =
      before.content? (root.extend unit.path).place) : after.HoldsUnit root unit := by
  obtain ⟨content, hcontent, hreads⟩ := h
  exact ⟨content, hsame.trans hcontent, hreads⟩

section

variable {checkOnly enabled : Bool} {root : Path} {profile : Profile} {classes : List DeclaredClass}
  {spec : Spec} {unit : BinderUnit} {tree next last : FileTree} {report : OwnerReport}
  {specs : List Spec} {reports : List OwnerReport} {seen keep pruned stale : List String}

theorem holdsUnit_of_existing
    (h : existingUnit tree (root.extend unit.path) unit.path = .ok (some unit.source.toList)) :
    tree.HoldsUnit root unit := by
  obtain ⟨content, hfind, hreads⟩ := file_of_existingUnit h
  obtain ⟨place, hlocate, hplace⟩ := (FileTree.find?_eq_some_iff _ _ _).mp hfind
  rw [(FileTree.place_of_locate hlocate).1] at hplace
  exact ⟨content, FileTree.content?_eq_some_iff.mpr hplace, .inr hreads⟩

/-- An owner that is not rejected has its unit in the tree, unless this is a check. -/
theorem Emits.holdsUnit (h : Emits checkOnly root classes spec unit tree report next stale)
    (hnested : tree.Nested) (haccepted : report.judgement.verdict ≠ .reject) :
    ∃ changed, report = emittedOwner checkOnly spec ⟨unit, changed⟩ ∧
      (checkOnly = false → next.HoldsUnit root unit) := by
  cases h with
  | kept found => exact ⟨false, rfl, fun _ => holdsUnit_of_existing found⟩
  | stale _ _ checked => exact ⟨true, rfl, fun hreal => by simp [checked] at hreal⟩
  | written _ _ _ applied =>
    obtain ⟨-, place, hlocate, hwrote⟩ := hnested.write applied
    refine ⟨true, rfl, fun _ => ⟨encode unit.source, ?_, .inl rfl⟩⟩
    rw [← (FileTree.place_of_locate hlocate).1, hwrote.content?, if_pos rfl]
  | unwritten => exact absurd rfl haccepted
  | refused => exact absurd rfl haccepted

theorem EmitsAll.unitPaths_sublist
    (h : EmitsAll checkOnly root profile classes tree specs reports last seen stale)
    (hnested : tree.Nested) :
    ((reports.filter (·.judgement.verdict ≠ .reject)).map (·.unitPath)).Sublist
      (specs.map fun spec => some spec.unitPath) := by
  induction h with
  | nil => simp
  | cons rendered first rest ih =>
    obtain ⟨hnext, -, -⟩ := first.frame rendered hnested
    have hrest := ih hnext
    rw [List.filter_cons, List.map_cons]
    split
    · rename_i haccepted
      obtain ⟨changed, rfl, -⟩ := first.holdsUnit hnested (by simpa using haccepted)
      rw [List.map_cons, ← (Spec.render_ok rendered).1]
      exact hrest.cons_cons _
    · exact hrest.cons _

/-- Emissions leave the unit of an accepted owner in the tree if all units have paths of their
own. -/
theorem EmitsAll.holdsUnit
    (h : EmitsAll checkOnly root profile classes tree specs reports last seen stale)
    (hnested : tree.Nested) (hplaced : ∀ spec ∈ specs, spec.Placed)
    (hdistinct : (specs.map Spec.unitPath).Nodup) :
    ∀ report ∈ reports, report.judgement.verdict ≠ .reject → ∃ spec ∈ specs, ∃ unit changed,
      spec.render profile = .ok unit ∧ report = emittedOwner checkOnly spec ⟨unit, changed⟩ ∧
        (checkOnly = false → last.HoldsUnit root unit) := by
  induction h with
  | nil => simp
  | @cons spec specs unit tree next last report reports seen stale more rendered first rest ih =>
    obtain ⟨hnext, -, -⟩ := first.frame rendered hnested
    obtain ⟨-, -, hchanges⟩ := rest.frame hnext
    rw [List.map_cons, List.nodup_cons] at hdistinct
    intro found hfound haccepted
    rcases List.mem_cons.mp hfound with rfl | hfound
    · obtain ⟨changed, howner, hholds⟩ := first.holdsUnit hnested haccepted
      refine ⟨spec, List.mem_cons_self, unit, changed, rendered, howner, fun hreal => ?_⟩
      -- No later emission writes to the place of this unit.
      refine (hholds hreal).congr ?_
      rcases hchanges (root.extend unit.path).place with hsame | ⟨-, hwritten⟩
      · exact hsame
      · obtain ⟨other, hother, unit', hrender, -, hlocate, -⟩ := hwritten.emitted
        obtain ⟨dirs, leaf, hpath⟩ := hplaced spec List.mem_cons_self
        obtain ⟨dirs', leaf', hpath'⟩ := hplaced other (List.mem_cons_of_mem _ hother)
        have hplace := (FileTree.place_of_locate hlocate).1
        rw [(Spec.render_ok rendered).1, (Spec.render_ok hrender).1] at hplace
        refine absurd ?_ hdistinct.1
        rw [hpath.eq_of_place hpath' hplace]
        exact List.mem_map_of_mem hother
    · obtain ⟨other, hother, rest⟩ := ih hnext
        (fun spec hspec => hplaced spec (List.mem_cons_of_mem _ hspec)) hdistinct.2 found hfound
        haccepted
      exact ⟨other, List.mem_cons_of_mem _ hother, rest⟩

theorem Prunes.content?_eq {path leaf : String} {dirs : List String}
    (h : Prunes checkOnly root enabled seen keep tree pruned last stale) (hnested : tree.Nested)
    (hunit : IsUnitPath path dirs leaf) (hclaimed : path ∈ seen ∨ path ∈ keep) :
    last.content? (root.extend path).place = tree.content? (root.extend path).place := by
  obtain ⟨-, -, hchanges⟩ := h.frame hnested
  rcases hchanges (root.extend path).place with
    hsame | ⟨-, hnone, -, -, -, -, content, hold, -⟩
  · exact hsame
  · obtain ⟨-, -, -, generated, found, hfound, hunclaimed, hrelative, -, hplace⟩ :=
      h.toPrunesSome.gone hnested hold hnone
    obtain ⟨-, hunseen, hunkept, -⟩ := (mem_unclaimed hfound).mp hunclaimed
    rw [hunit.text_of_place hrelative hplace.symm] at hunseen hunkept
    rcases hclaimed with hseen | hkept
    · exact absurd hseen hunseen
    · exact absurd hkept hunkept

end

private theorem unit_ne_report {root directory : Path} {path leaf : String} {dirs : List String}
    (h : IsUnitPath path dirs leaf) : (root.extend path).place ≠ (reportFile directory).place := by
  intro heq
  rw [h.place_eq root, reportFile_eq, FileTree.place_append (by decide), ← List.append_assoc] at heq
  have hleaf : leaf = "viewbind_report.json" := by
    simpa using (List.append_inj' heq rfl).2
  have hending := h.leaf.2
  rw [hleaf] at hending
  exact absurd hending (by decide)

namespace Request
variable {request : Request} {tree : FileTree} {files : List SourceFile} {report : Report}

theorem content?_of_reported {last after : FileTree} {path leaf : String} {dirs : List String}
    (hunit : IsUnitPath path dirs leaf) (hlast : last.Nested) (root : Path)
    (h : match request.reportDirectory with
      | none => after = last
      | some directory => ∃ file, writeReport last report directory = (after, .ok file)) :
    after.content? (root.extend path).place = last.content? (root.extend path).place := by
  split at h
  · rw [h]
  · obtain ⟨file, hwrite⟩ := h
    obtain ⟨-, written, hlocate, hothers⟩ := writeReport_frame hwrite hlast
    refine hothers _ ?_
    rw [(FileTree.place_of_locate hlocate).1]
    exact unit_ne_report hunit

/-- The specifications of a pass have unit paths of their own if no component of a name is
empty. -/
theorem unitPaths_nodup {tree : Workspace}
    (hsuffix : '/' ∉ request.profile.moduleSuffix.toList)
    (hdiscover : discover tree request.sourceRoot request.exclude = .ok files)
    (hparts : ∀ spec ∈ (request.built tree files).specs, "" ∉ dottedParts spec.binderModule) :
    ((request.built tree files).specs.map Spec.unitPath).Nodup := by
  have hmodules : ((request.built tree files).specs.map Spec.binderModule).Nodup :=
    build_specs_nodup
  have hslash : ∀ spec ∈ (request.built tree files).specs, '/' ∉ spec.binderModule.toList := by
    intro spec hspec
    obtain ⟨declared, hclass, rfl⟩ := mem_build_specs hspec
    exact slash_not_mem_classes hsuffix hdiscover declared hclass
  rw [List.nodup_iff_pairwise_ne, List.pairwise_map] at hmodules ⊢
  refine hmodules.imp_of_mem fun hfirst hsecond hne hpath => hne ?_
  exact modulePath_injective (hslash _ hfirst) (hslash _ hsecond) (hparts _ hfirst)
    (hparts _ hsecond) hpath

/-- No two owners that a pass accepts have one unit path, and after a pass each of them has its own
unit in its file, if no component of a binder module's name is empty. -/
theorem run_apart (tree : Workspace) (hsuffix : '/' ∉ request.profile.moduleSuffix.toList)
    (hrun : (request.run tree).result = .ok report)
    (hparts : ∀ files, discover tree request.sourceRoot request.exclude = .ok files →
      ∀ spec ∈ (request.built tree files).specs, "" ∉ dottedParts spec.binderModule) :
    ((report.owners.filter (·.judgement.verdict ≠ .reject)).map (·.unitPath)).Nodup ∧
    ∀ owner ∈ report.owners, owner.judgement.verdict ≠ .reject → ∃ spec unit changed,
      spec.render request.profile = .ok unit ∧
      owner = emittedOwner request.checkOnly spec ⟨unit, changed⟩ ∧
      (request.checkOnly = false → (request.run tree).tree.HoldsUnit request.target unit) := by
  obtain ⟨course, rfl, hreport⟩ := run_ok hrun
  have hunits := unitPaths_nodup hsuffix course.discovered
    (hparts _ course.discovered)
  have hplaced := specs_placed_of_suffix hsuffix course.discovered
  obtain ⟨hmiddle, -, -⟩ := course.emits.frame tree.formed.toNested
  obtain ⟨hlast, -, -⟩ := course.prunes.frame hmiddle
  -- Owners that were rejected before emission are not accepted.
  have howners : course.report.owners.filter (·.judgement.verdict ≠ .reject) =
      course.emitted.filter (·.judgement.verdict ≠ .reject) := by
    refine (List.filter_append _ _).trans ?_
    rw [List.filter_eq_nil_iff.mpr, List.nil_append]
    intro owner howner
    obtain ⟨rejected, -, rfl⟩ := List.mem_map.mp howner
    simp [rejectedReport, rejectedOwner]
  constructor
  · rw [howners]
    have hsome := hunits.map (Option.some_injective String)
    rw [List.map_map] at hsome
    exact (course.emits.unitPaths_sublist tree.formed.toNested).nodup hsome
  · intro owner howner haccepted
    have hemitted : owner ∈ course.emitted := by
      have hmem : owner ∈ course.report.owners.filter (·.judgement.verdict ≠ .reject) :=
        List.mem_filter.mpr ⟨howner, decide_eq_true haccepted⟩
      rw [howners] at hmem
      exact (List.mem_filter.mp hmem).1
    obtain ⟨spec, hspec, unit, changed, hrender, hsame, hholds⟩ :=
      course.emits.holdsUnit tree.formed.toNested hplaced hunits owner hemitted haccepted
    obtain ⟨dirs, leaf, hunit⟩ := hplaced spec hspec
    rw [← (Spec.render_ok hrender).1] at hunit
    have hseen := course.emits.mem_seen hspec hrender
    refine ⟨spec, unit, changed, hrender, hsame, fun hreal => ?_⟩
    have hpruned := (hholds hreal).congr (course.prunes.content?_eq hmiddle hunit (.inl hseen))
    exact hpruned.congr (content?_of_reported hunit hlast request.target hreport)

end Request

def PassOutcome.accepted (outcome : PassOutcome) : Option (List (Option String)) :=
  outcome.result.toOption.map fun report =>
    (report.owners.filter (·.judgement.verdict ≠ .reject)).map (·.unitPath)

theorem PassOutcome.result_of_accepted {outcome : PassOutcome} {paths : List (Option String)}
    (h : outcome.accepted = some paths) : ∃ report, outcome.result = .ok report ∧
      (report.owners.filter (·.judgement.verdict ≠ .reject)).map (·.unitPath) = paths :=
  result_of_shown h

/-- A pass that puts units beside their sources. -/
def Request.beside : Request where
  sourceRoot := ⟨"", ["src"]⟩
  prune := false

theorem Request.detour_beside : (beside.run .detour).accepted =
      some [some "a_binding.py", some "b_binding.py"] ∧
    ∀ spec ∈ (beside.built .detour [⟨⟨"", ["src", "m.py"]⟩, "m", false⟩]).specs,
      "" ∉ dottedParts spec.binderModule := by
  decide +kernel

theorem Request.run_apart_detour : ∃ report, (beside.run .detour).result = .ok report ∧
    ((report.owners.filter (·.judgement.verdict ≠ .reject)).map (·.unitPath)).Nodup ∧
    ∀ owner ∈ report.owners, owner.judgement.verdict ≠ .reject → ∃ spec unit changed,
      spec.render beside.profile = .ok unit ∧
      owner = emittedOwner beside.checkOnly spec ⟨unit, changed⟩ ∧
      (beside.checkOnly = false → (beside.run .detour).tree.HoldsUnit beside.target unit) := by
  obtain ⟨haccepted, hparts⟩ := detour_beside
  obtain ⟨report, hrun, -⟩ := PassOutcome.result_of_accepted haccepted
  have hformed : FileTree.detour.WellFormed := .of_entries (by decide) (by decide)
  have hdiscover : discover .detour beside.sourceRoot beside.exclude =
      .ok [⟨⟨"", ["src", "m.py"]⟩, "m", false⟩] := by
    have hbelow : FileTree.detour.below beside.sourceRoot ".py" =
        [⟨"", ["m.py"]⟩].mergeSort Path.le := rfl
    unfold discover candidateFiles
    rw [hbelow, List.mergeSort_singleton]
    rfl
  refine ⟨report, hrun, run_apart ⟨_, hformed⟩ (by decide) hrun fun files hfiles => ?_⟩
  obtain rfl := Except.ok.inj (hdiscover.symm.trans hfiles)
  exact hparts

/-- Two modules of one package, the first of which is hidden, each with a class of one name. -/
def FileTree.hidden : FileTree := ⟨[(["src"], .directory), (["src", "pkg"], .directory),
  (["src", "pkg", ".m.py"], .file (encode "class X:\n    f = bind_view(1)\n")),
  (["src", "pkg", "m.py"], .file (encode "class X:\n    f = bind_view(2)\n"))]⟩

theorem Request.discover_hidden : discover .hidden beside.sourceRoot beside.exclude = .ok
    [⟨⟨"", ["src", "pkg", ".m.py"]⟩, "pkg..m", false⟩,
      ⟨⟨"", ["src", "pkg", "m.py"]⟩, "pkg.m", false⟩] := by
  have hbelow : FileTree.hidden.below beside.sourceRoot ".py" =
      [⟨"", ["pkg", ".m.py"]⟩, ⟨"", ["pkg", "m.py"]⟩].mergeSort Path.le := rfl
  rw [discover, candidateFiles_of_below hbelow (by decide)]
  rfl

private def hiddenFiles : List SourceFile :=
  [⟨⟨"", ["src", "pkg", ".m.py"]⟩, "pkg..m", false⟩, ⟨⟨"", ["src", "pkg", "m.py"]⟩, "pkg.m", false⟩]

private def hiddenSpec (moduleName binderModule : String) (viewId : Nat) : Spec :=
  ⟨moduleName, "X", binderModule, "XBinding", [⟨moduleName ++ ".X", "f", none, viewId, 1⟩]⟩

private theorem hidden_built : (Request.beside.built .hidden hiddenFiles).specs =
      [hiddenSpec "pkg..m" "pkg..x_binding" 1, hiddenSpec "pkg.m" "pkg.x_binding" 2] ∧
    (Request.beside.built .hidden hiddenFiles).rejected.isEmpty := by
  decide +kernel

private theorem hidden_render : ∀ spec ∈ [hiddenSpec "pkg..m" "pkg..x_binding" 1,
      hiddenSpec "pkg.m" "pkg.x_binding" 2],
    ∃ unit, spec.render .standard = .ok unit ∧ unit.path = "pkg/x_binding.py" := by
  have hspecs : ∀ spec ∈ [hiddenSpec "pkg..m" "pkg..x_binding" 1,
      hiddenSpec "pkg.m" "pkg.x_binding" 2],
      spec.IsShort ∧ spec.unitPath = "pkg/x_binding.py" := by
    decide
  intro spec hspec
  obtain ⟨hshort, hpath⟩ := hspecs spec hspec
  exact ⟨_, Spec.render_eq hshort, hpath⟩

private def hiddenAfter (content : Octets) : FileTree :=
  ⟨FileTree.hidden.entries ++ [(["src", "pkg", "x_binding.py"], .file content)]⟩

private theorem hidden_emits {unit : BinderUnit} (spec : Spec) (classes : List DeclaredClass)
    (hpath : unit.path = "pkg/x_binding.py") : Emits false Request.beside.target classes spec unit
      .hidden (emittedOwner false spec ⟨unit, true⟩) (hiddenAfter (encode unit.source)) [] := by
  refine .written (?_ : existingUnit _ _ _ = .ok none) (by simp) rfl ?_
  · rw [hpath]
    rfl
  · rw [hpath]
    rfl

private theorem hiddenAfter_emits {first second : BinderUnit} {spec : Spec}
    (hfirst : spec.render .standard = .ok first) (other : Spec) (classes : List DeclaredClass)
    (hpath : second.path = "pkg/x_binding.py") : ∃ changed last,
      Emits false Request.beside.target classes other second (hiddenAfter (encode first.source))
        (emittedOwner false other ⟨second, changed⟩) last [] := by
  obtain ⟨text, htext, hmark⟩ := Spec.readText_generated hfirst
  have hfind : (hiddenAfter (encode first.source)).find?
      (Request.beside.target.extend "pkg/x_binding.py") = some (.file (encode first.source)) := rfl
  have hfound : existingUnit (hiddenAfter (encode first.source))
      (Request.beside.target.extend second.path) second.path = .ok (some text) :=
    existingUnit_of_generated (hpath ▸ hfind) htext hmark second.path
  by_cases hsame : text = second.source.toList
  · exact ⟨false, _, .kept (hsame ▸ hfound)⟩
  · refine ⟨true, hiddenAfter (encode second.source), .written hfound (by simpa using hsame) rfl ?_⟩
    rw [hpath]
    rfl

theorem Request.hidden_beside : (beside.run .hidden).accepted =
    some [some "pkg/x_binding.py", some "pkg/x_binding.py"] := by
  obtain ⟨first, hfirst, hpath⟩ := hidden_render _ List.mem_cons_self
  obtain ⟨second, hsecond, hpath'⟩ := hidden_render _ (List.mem_cons_of_mem _ List.mem_cons_self)
  have hwritten := hidden_emits (hiddenSpec "pkg..m" "pkg..x_binding" 1)
    (beside.classes .hidden hiddenFiles) hpath
  obtain ⟨changed, last, hemits⟩ := hiddenAfter_emits hfirst (hiddenSpec "pkg.m" "pkg.x_binding" 2)
    (beside.classes .hidden hiddenFiles) hpath'
  have hall := EmitsAll.cons hfirst hwritten (.cons hsecond hemits (.nil _))
  rw [← hidden_built.1] at hall
  let course : beside.Course .hidden :=
    ⟨hiddenFiles, _, _, _, _, _, _, _, discover_hidden, hall, .skipped rfl⟩
  obtain ⟨hrun, -⟩ := run_of course rfl
  have hrejected : (beside.built .hidden hiddenFiles).rejected = [] :=
    List.isEmpty_iff.mp hidden_built.2
  have howners : course.report.owners =
      [emittedOwner false (hiddenSpec "pkg..m" "pkg..x_binding" 1) ⟨first, true⟩,
        emittedOwner false (hiddenSpec "pkg.m" "pkg.x_binding" 2) ⟨second, changed⟩] := by
    simp [Course.report, reported, course, hrejected]
  have haccepted : course.report.owners.filter (·.judgement.verdict ≠ .reject) =
      course.report.owners :=
    List.filter_eq_self.mpr (by simp [howners, emittedOwner_verdict])
  rw [PassOutcome.accepted, hrun, Except.toOption, Option.map_some, haccepted, howners]
  simp [emittedOwner, hpath, hpath']

/-- Binder modules of two names can have one file: both owners are accepted, and the unit of the
second is written over that of the first. -/
theorem Request.run_not_apart : ∃ report, (beside.run .hidden).result = .ok report ∧
    ¬((report.owners.filter (·.judgement.verdict ≠ .reject)).map (·.unitPath)).Nodup := by
  obtain ⟨report, hrun, hpaths⟩ := PassOutcome.result_of_accepted hidden_beside
  exact ⟨report, hrun, by rw [hpaths]; decide⟩

end ElementBinding
