import ElementBinding.Proofs.Pass.Frame

/-!
# Live units

The units of a pass fall into three kinds: those handed over for the owners that were accepted,
whatever became of them, those of the classes that were rejected, and those nobody claims. Pruning
deletes units of the third kind only, after all owners were emitted, and files go away in no other
way, even in a pass that is interrupted.
-/
namespace ElementBinding
open ElementBinding.Naming ElementBinding.Text

section

variable {checkOnly enabled : Bool} {root : Path} {profile : Profile} {classes : List DeclaredClass}
  {tree last : FileTree} {seen keep pruned stale : List String}

theorem EmitsAll.seen_eq {specs : List Spec} {reports : List OwnerReport}
    (h : EmitsAll checkOnly root profile classes tree specs reports last seen stale) :
    seen = specs.map Spec.unitPath := by
  induction h with
  | nil => rfl
  | cons rendered first rest ih => rw [List.map_cons, ih, (Spec.render_ok rendered).1]

theorem EmitsAll.mem_seen {specs : List Spec} {reports : List OwnerReport} {spec : Spec}
    {unit : BinderUnit}
    (h : EmitsAll checkOnly root profile classes tree specs reports last seen stale)
    (hspec : spec ∈ specs) (hrender : spec.render profile = .ok unit) : unit.path ∈ seen := by
  rw [h.seen_eq, (Spec.render_ok hrender).1]
  exact List.mem_map_of_mem hspec

theorem EmitsAll.keepsFiles {specs : List Spec} {reports : List OwnerReport}
    (h : EmitsAll checkOnly root profile classes tree specs reports last seen stale)
    (hnested : tree.Nested) : FileTree.KeepsFiles tree last := by
  obtain ⟨-, -, hchanges⟩ := h.frame hnested
  intro place hplace
  rcases hchanges place with hsame | ⟨-, hwritten⟩
  · rwa [hsame]
  · obtain ⟨spec, -, unit, -, -, -, hcontent⟩ := hwritten.emitted
    rw [hcontent]
    simp

/-- A file that emissions found and that is not the unit of an owner is as it was. -/
theorem EmitsAll.content?_eq {specs : List Spec} {reports : List OwnerReport} {path : Path}
    (h : EmitsAll checkOnly root profile classes tree specs reports last seen stale)
    (hnested : tree.Nested) (hplaced : ∀ spec ∈ specs, spec.Placed) (hrelative : path.root = "")
    (hseen : path.text ∉ seen) :
    last.content? (root.place ++ path.parts) = tree.content? (root.place ++ path.parts) := by
  obtain ⟨-, -, hchanges⟩ := h.frame hnested
  rcases hchanges (root.place ++ path.parts) with hsame | ⟨-, hwritten⟩
  · exact hsame
  · obtain ⟨spec, hspec, unit, hrender, -, hlocate, -⟩ := hwritten.emitted
    obtain ⟨dirs, leaf, hunit⟩ := hplaced spec hspec
    rw [(Spec.render_ok hrender).1] at hlocate
    have htext := hunit.text_of_place hrelative (FileTree.place_of_locate hlocate).1
    rw [h.seen_eq, htext] at hseen
    exact absurd (List.mem_map_of_mem hspec) hseen

/-- A file that pruning deletes was generated, and nobody claimed it. -/
theorem PrunesSome.gone {place : Location} {content : Octets}
    (h : PrunesSome checkOnly root enabled seen keep tree last) (hnested : tree.Nested)
    (hold : tree.content? place = some content) (hgone : last.content? place = none) :
    enabled = true ∧ checkOnly = false ∧ isGenerated (decodeTolerant content) ∧
      ∃ generated path, generatedBelow tree root = .ok generated ∧
        path ∈ unclaimed seen keep generated ∧ path.root = "" ∧ path.parts ≠ [] ∧
        place = root.place ++ path.parts := by
  cases h with
  | nothing => simp [hold] at hgone
  | @deleted generated front _ on real found doomed applied =>
    have happlied : tree.applyAll ((front.map (root ++ ·)).map .delete) = (last, none) := by
      rw [List.map_map]
      exact applied
    obtain ⟨-, hdeleted⟩ := hnested.deleteAll happlied
    rcases hdeleted.others place with hsame | ⟨-, _, hpath, hlocate⟩
    · rw [FileTree.content?_congr hsame, hold] at hgone
      simp at hgone
    · obtain ⟨path, hfront, rfl⟩ := List.mem_map.mp hpath
      have hunclaimed := doomed.subset hfront
      obtain ⟨hbelow, -, -, hmark, -⟩ := (mem_unclaimed found).mp hunclaimed
      obtain ⟨base, hbase, -, hrelative, hparts, -⟩ := FileTree.mem_below.mp hbelow
      have hplace := Except.ok.inj (hlocate.symm.trans (hnested.locate_below hbase hbelow))
      rw [isGeneratedAt_eq hlocate, hold, Option.any_some] at hmark
      rw [(FileTree.place_of_locate hbase).1] at hplace
      exact ⟨on, real, hmark, generated, path, found, hunclaimed, hrelative, hparts, hplace⟩

theorem Prunes.pruned_eq {generated : List Path}
    (h : Prunes checkOnly root enabled seen keep tree pruned last stale) (hon : enabled = true)
    (hfound : generatedBelow tree root = .ok generated) :
    pruned = (unclaimed seen keep generated).map (·.text) := by
  cases h with
  | skipped disabled => simp [hon] at disabled
  | checked _ _ found | deleted _ _ found _ =>
    rw [Except.ok.inj (found.symm.trans hfound)]

end

theorem mem_retained {classes : List DeclaredClass} {profile : Profile} (known : List String)
    {declared : DeclaredClass} (hclass : declared ∈ classes)
    (hlive : declared.fields ≠ [] ∨ declared.fault ≠ none) (emitted : List OwnerReport) :
    modulePath (declared.owner.binderModule profile) ∈
        (build classes profile known).specs.map Spec.unitPath ∨
      modulePath (declared.owner.binderModule profile) ∈
        retainedPaths profile (build classes profile known) emitted := by
  have hrejected (fault : Fault) (h : (declared, fault) ∈ (build classes profile known).rejected) :
      modulePath (declared.owner.binderModule profile) ∈
        retainedPaths profile (build classes profile known) emitted :=
    List.mem_append_right _ (List.mem_map.mpr ⟨_, h, rfl⟩)
  cases hfate : declared.fate classes profile known with
  | accepted spec =>
    have hspec : (declared.fate classes profile known).spec? = some spec := by rw [hfate]; rfl
    obtain ⟨rfl, -⟩ := accepted_of_spec? hspec
    refine .inl (List.mem_map.mpr ⟨declared.spec profile, ?_, rfl⟩)
    rw [build_specs_eq]
    exact List.mem_filterMap.mpr ⟨declared, hclass, hspec⟩
  | skipped =>
    have hmeets : Meets classes profile known declared .skipped := meets_iff.mpr hfate.symm
    cases hmeets with
    | skipped sound bare => exact absurd hlive (by simp [sound, bare])
  | faulty fault =>
    refine .inr (hrejected fault (List.mem_append_left _ ?_))
    rw [build_faulty_eq]
    exact List.mem_filterMap.mpr ⟨declared, hclass, by rw [hfate]; rfl⟩
  | colliding fault =>
    refine .inr (hrejected fault (List.mem_append_right _ ?_))
    rw [build_colliding_eq]
    exact List.mem_filterMap.mpr ⟨declared, hclass, by rw [hfate]; rfl⟩

namespace Request
variable {request : Request} {tree : FileTree} {place : Location} {content : Octets}

/-- A file that a pass deletes has gone by pruning, after all owners were emitted. -/
theorem pruned_of_gone (hnested : tree.Nested) (hold : tree.content? place ≠ none)
    (hgone : (request.run tree).tree.content? place = none) :
    ∃ files emitted middle seen stale last,
      discover tree request.sourceRoot request.exclude = .ok files ∧
      EmitsAll request.checkOnly request.target request.profile (request.classes tree files)
        tree (request.built tree files).specs emitted middle seen stale ∧
      PrunesSome request.checkOnly request.target (request.prune && request.clean tree files)
        seen (retainedPaths request.profile (request.built tree files) emitted) middle last ∧
      last.content? place = none ∧
      ∀ report, (request.run tree).result = .ok report → ∃ outdated,
        Prunes request.checkOnly request.target (request.prune && request.clean tree files) seen
          (retainedPaths request.profile (request.built tree files) emitted) middle
          report.prunedUnits last outdated := by
  have hback {last : FileTree} (hkeeps : last.KeepsFiles (request.run tree).tree) :
      last.content? place = none := by
    by_contra hstands
    exact hkeeps place hstands hgone
  cases hresult : (request.run tree).result with
  | error interruption =>
    obtain ⟨last, hworked, hfiled⟩ := run_error hresult
    cases hworked with
    | emitted emits =>
      exact absurd (hback hfiled.keepsFiles) (emits.keepsFiles hnested place hold)
    | pruned discovered emits prunes =>
      exact ⟨_, _, _, _, _, last, discovered, emits, prunes, hback hfiled.keepsFiles, by simp⟩
  | ok report =>
    obtain ⟨course, rfl, hreport⟩ := run_ok hresult
    refine ⟨course.files, course.emitted, course.middle, course.seen, course.stale, course.last,
      course.discovered, course.emits, course.prunes.toPrunesSome,
      hback (course.filed hreport).keepsFiles, fun report hsame => ?_⟩
    obtain rfl := Except.ok.inj hsame
    exact ⟨course.outdated, course.prunes⟩

/-- Every file that a pass deletes, even if it is interrupted, is a generated unit below the target
that no class of the pass claims, and is reported as pruned. A check deletes nothing, and neither
does a pass that is not to prune or has rejected a module. -/
theorem run_deletes (tree : Workspace) (hprofile : request.profile = .standard)
    (hold : tree.content? place = some content)
    (hgone : (request.run tree).tree.content? place = none) :
    request.checkOnly = false ∧ request.prune = true ∧ isGenerated (decodeTolerant content) ∧
    ∃ (files : List SourceFile) (path : Path),
      discover tree request.sourceRoot request.exclude = .ok files ∧
      request.clean tree files = true ∧
      path.root = "" ∧ path.parts ≠ [] ∧ place = request.target.place ++ path.parts ∧
      (∀ report, (request.run tree).result = .ok report → path.text ∈ report.prunedUnits) ∧
      ∀ declared ∈ request.classes tree files, declared.fields ≠ [] ∨ declared.fault ≠ none →
        path.text ≠ modulePath (declared.owner.binderModule request.profile) ∧
        place ≠ (request.target.extend
          (modulePath (declared.owner.binderModule request.profile))).place := by
  obtain ⟨files, emitted, middle, seen, stale, last, hdiscover, hemits, hprunes, hlast, hreport⟩ :=
    pruned_of_gone tree.formed.toNested (by rw [hold]; simp) hgone
  obtain ⟨hmiddle, -, -⟩ := hemits.frame tree.formed.toNested
  obtain ⟨found, hfound⟩ := Option.ne_none_iff_exists'.mp
    (hemits.keepsFiles tree.formed.toNested place (by rw [hold]; simp))
  obtain ⟨hon, hreal, hmark, generated, path, hgenerated, hunclaimed, hrelative, hparts, rfl⟩ :=
    hprunes.gone hmiddle hfound hlast
  rw [Bool.and_eq_true] at hon
  obtain ⟨-, hseen, hkeep, -, -⟩ := (mem_unclaimed hgenerated).mp hunclaimed
  -- Nobody claims the path, so no emission has written there before it was pruned.
  have hsame := hemits.content?_eq tree.formed.toNested (specs_placed hprofile hdiscover)
    hrelative hseen
  rw [hfound, hold] at hsame
  obtain rfl := Option.some.inj hsame
  refine ⟨hreal, hon.1, hmark, files, path, hdiscover, hon.2, hrelative, hparts, rfl,
    fun report hresult => ?_, fun declared hclass hlive => ?_⟩
  · obtain ⟨outdated, hpruned⟩ := hreport report hresult
    rw [hpruned.pruned_eq (by simp [hon]) hgenerated]
    exact List.mem_map_of_mem hunclaimed
  · have hne : path.text ≠ modulePath (declared.owner.binderModule request.profile) := by
      intro heq
      rw [hemits.seen_eq] at hseen
      rcases mem_retained (files.map (·.moduleName)) hclass hlive emitted with hmem | hmem
      · exact hseen (heq ▸ hmem)
      · exact hkeep (heq ▸ hmem)
    have hslash := slash_not_mem_classes (by rw [hprofile]; decide) hdiscover declared hclass
    obtain ⟨dirs, leaf, hunit⟩ := modulePath_isUnitPath hslash
    exact ⟨hne, fun hplace => hne (hunit.text_of_place hrelative hplace)⟩

end Request

/-- A module with a class that is rejected, and a unit that nobody claims any more. -/
def FileTree.leftover : FileTree := ⟨[(["src"], .directory),
  (["src", "m.py"], .file (encode "class A:\n    f = bind_view()\n")),
  (["out"], .directory),
  (["out", "old_binding.py"], .file (encode generatedHeader))]⟩

theorem Request.leftover_run :
    (Request.sample.run .leftover).units =
        some ([(none, some "m:2: bind_view() requires a view identifier argument", false)],
          ["old_binding.py"]) ∧
      (Request.sample.run .leftover).tree.content? ["out", "old_binding.py"] = none := by
  decide +kernel

theorem Request.run_deletes_leftover :
    FileTree.leftover.content? ["out", "old_binding.py"] = some (encode generatedHeader) ∧
    (Request.sample.run .leftover).tree.content? ["out", "old_binding.py"] = none ∧
    isGenerated (decodeTolerant (encode generatedHeader)) ∧
    ∃ (files : List SourceFile) (path : Path),
      discover .leftover Request.sample.sourceRoot Request.sample.exclude = .ok files ∧
      ["out", "old_binding.py"] = Request.sample.target.place ++ path.parts ∧
      ∀ declared ∈ Request.sample.classes .leftover files,
        declared.fields ≠ [] ∨ declared.fault ≠ none →
        path.text ≠ modulePath (declared.owner.binderModule Request.sample.profile) := by
  have hformed : FileTree.leftover.WellFormed :=
    .of_entries (by decide) (by decide)
  have hold : FileTree.leftover.content? ["out", "old_binding.py"] =
      some (encode generatedHeader) := by decide
  obtain ⟨-, hgone⟩ := Request.leftover_run
  obtain ⟨-, -, hmark, files, path, hdiscover, -, -, -, hplace, -, hlive⟩ :=
    Request.run_deletes ⟨_, hformed⟩ rfl hold hgone
  exact ⟨hold, hgone, hmark, files, path, hdiscover, hplace,
    fun declared hclass hneeds => (hlive declared hclass hneeds).1⟩

end ElementBinding
