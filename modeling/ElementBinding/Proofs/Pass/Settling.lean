import ElementBinding.Proofs.Pass.Specs
import ElementBinding.Proofs.Pass.UnitPaths
import ElementBinding.Proofs.Unit.Layout

/-!
# Faults of single owners

An emission settles if it gives a unit or a fault of the owner, so that the pass goes on with the
other owners. Whatever stands in the way of a unit, it settles unless an identifier is too long to
be written or a file that is no text stands where the unit goes; either of these interrupts the
pass.
-/
namespace ElementBinding
open ElementBinding.Text

/-- A specification is rendered exactly if its identifiers can be written. -/
theorem Spec.render_isOk_iff (spec : Spec) (profile : Profile) :
    (∃ unit, spec.render profile = .ok unit) ↔ spec.IsShort := by
  constructor
  · rintro ⟨unit, hrender⟩ field hfield
    obtain ⟨text, htext⟩ := idText_of_render hrender field hfield
    exact (idText_eq_ok_iff.mp htext).1
  · intro hshort
    have hassignments : spec.fields.mapM (assignmentLine profile) = .ok _ :=
      mapM_eq fun field hfield => Field.assignmentLine_of_idText (idText_eq (hshort field hfield))
    have hregistrations := mapM_eq fun field hfield =>
      Field.registrationLine_of_idText (idText_eq (hshort field hfield))
    simp only [render, unitLines, hassignments, hregistrations, Bind.bind, Except.bind, pure,
      Except.pure]
    exact ⟨_, rfl⟩

def FileTree.TextAt (tree : FileTree) (path : Path) : Prop :=
  ∀ octets, tree.find? path = some (.file octets) → decodeStrict octets ≠ none

private theorem readText_eq_none_iff {octets : Octets} :
    readText octets = none ↔ decodeStrict octets = none := Option.map_eq_none_iff

theorem existingUnit_eq_undecodable_iff {tree : FileTree} {target : Path} {unitPath : String} :
    existingUnit tree target unitPath = .error .undecodable ↔ ¬tree.TextAt target := by
  rw [existingUnit_eq, FileTree.TextAt]
  rcases tree.find? target with _ | _ | octets
  · simp
  · simp
  · cases htext : readText octets with
    | none => simp [← readText_eq_none_iff, htext]
    | some text => by_cases hgenerated : isGenerated text <;>
        simp [← readText_eq_none_iff, htext, hgenerated]

theorem toStop_of_existingUnit {tree : FileTree} {target : Path} {unitPath : String}
    {met : WriteFault} (h : existingUnit tree target unitPath = .error met) (unit : BinderUnit) :
    met = .undecodable ∨ ∃ fault, met.toStop unit = .fault fault := by
  rw [existingUnit_eq] at h
  rcases hfind : tree.find? target with _ | _ | octets
  · simp [hfind] at h
  · simp only [hfind, Except.error.injEq] at h
    subst h
    exact .inr ⟨_, rfl⟩
  · cases htext : readText octets with
    | none =>
      simp only [hfind, htext, Except.error.injEq] at h
      exact .inl h.symm
    | some text =>
      by_cases hgenerated : isGenerated text
      · simp [hfind, htext, hgenerated] at h
      · simp only [hfind, htext, hgenerated, Bool.false_eq_true, if_false, Except.error.injEq] at h
        subst h
        exact .inr ⟨_, rfl⟩

/-- Handing over a unit comes to a file that is no text, to a fault of the owner, or to success. -/
theorem write_settles (unit : BinderUnit) (site : Site) :
    match ((DirectorySink.write unit).from site).1 with
    | .ok _ => site.tree.TextAt (site.sink.root.extend unit.path)
    | .error met => met = .undecodable ∧ ¬site.tree.TextAt (site.sink.root.extend unit.path) ∨
        (∃ fault, met.toStop unit = .fault fault) ∧
          site.tree.TextAt (site.sink.root.extend unit.path) := by
  have hundecodable : existingUnit site.tree (site.sink.root.extend unit.path) unit.path =
      .error .undecodable ↔ ¬site.tree.TextAt (site.sink.root.extend unit.path) :=
    existingUnit_eq_undecodable_iff
  rw [write_from]
  dsimp only
  cases hfound : existingUnit site.tree (site.sink.root.extend unit.path) unit.path with
  | error met =>
    dsimp only
    rw [hfound] at hundecodable
    rcases toStop_of_existingUnit hfound unit with rfl | ⟨fault, hstop⟩
    · exact .inl ⟨rfl, hundecodable.mp rfl⟩
    · refine .inr ⟨⟨fault, hstop⟩, not_not.mp fun hnot => ?_⟩
      obtain rfl := Except.error.inj (hundecodable.mpr hnot)
      simp [WriteFault.toStop] at hstop
  | ok existing =>
    have htext : site.tree.TextAt (site.sink.root.extend unit.path) :=
      not_not.mp fun hnot => by simp [hfound] at hundecodable; exact hnot hundecodable
    dsimp only
    by_cases hkept : existing = some unit.source.toList
    · rw [if_pos hkept]
      exact htext
    · rw [if_neg hkept]
      cases hcheck : site.sink.checkOnly with
      | true => exact htext
      | false =>
        rcases site.tree.applyAll (site.tree.writeSteps (site.sink.root.extend unit.path)
          (encode unit.source)) with ⟨tree, _ | fault⟩
        · exact htext
        · exact .inr ⟨⟨_, rfl⟩, htext⟩

section

variable (checkOnly : Bool) (profile : Profile) (classes : List DeclaredClass) (spec : Spec)

def settledOwner : Except EmitStop Emission → Option OwnerReport
  | .ok emission => some (emittedOwner checkOnly spec emission)
  | .error (.fault fault) => some (failedOwner classes spec fault.message)
  | .error _ => none

/-- A settled owner is emitted, or rejected since its unit was not written. -/
inductive Settles : OwnerReport → Prop
  | emitted {unit : BinderUnit} (rendered : spec.render profile = .ok unit) (changed : Bool) :
      Settles (emittedOwner checkOnly spec ⟨unit, changed⟩)
  | failed (fault : EmitFault) : Settles (failedOwner classes spec fault.message)

end

/-- An emission settles exactly if all identifiers can be written and no file that is no text stands
where the unit goes. -/
theorem settledOwner_isSome_iff {checkOnly : Bool} {classes : List DeclaredClass} {spec : Spec}
    {profile : Profile} {site : Site} :
    (settledOwner checkOnly classes spec ((emitFile spec profile).from site).1).isSome ↔
      spec.IsShort ∧ site.tree.TextAt (site.sink.root.extend spec.unitPath) := by
  rw [← spec.render_isOk_iff profile, emitFile_from]
  cases hrender : spec.render profile with
  | error fault => simp [settledOwner]
  | ok unit =>
    rw [← (Spec.render_ok hrender).1]
    have hwrite := write_settles unit site
    dsimp only
    rcases hrun : (DirectorySink.write unit).from site with ⟨met | changed, after⟩
    all_goals rw [hrun] at hwrite
    · rcases hwrite with ⟨rfl, hnot⟩ | ⟨⟨fault, hstop⟩, htext⟩
      · simp [settledOwner, WriteFault.toStop, hnot]
      · simp [settledOwner, hstop, htext]
    · simpa [settledOwner] using hwrite

theorem emitOwner_eq_ok_iff {request : Request} {classes : List DeclaredClass} {spec : Spec}
    {site : Site} {report : OwnerReport} :
    ((emitOwner request classes spec).from site).1 = .ok report ↔
      settledOwner request.checkOnly classes spec
        ((emitFile spec request.profile).from site).1 = some report := by
  rw [emitOwner_from]
  rcases (emitFile spec request.profile).from site with
    ⟨(fault | fault | _ | kind) | emission, after⟩
  all_goals simp [settledOwner]

section

variable {checkOnly : Bool} {root : Path} {profile : Profile} {classes : List DeclaredClass}
  {tree last : FileTree} {specs : List Spec} {reports : List OwnerReport}
  {seen stale : List String}

theorem EmitsAll.settles
    (h : EmitsAll checkOnly root profile classes tree specs reports last seen stale) :
    List.Forall₂ (Settles checkOnly profile classes) specs reports := by
  induction h with
  | nil => exact .nil
  | cons rendered first _ ih =>
    refine .cons ?_ ih
    cases first with
    | kept | stale | written => exact .emitted rendered _
    | unwritten | refused => exact .failed _

/-- The files at the places of some units are texts. -/
def FileTree.TextsAt (tree : FileTree) (root : Path) (specs : List Spec) : Prop :=
  ∀ spec ∈ specs, ∀ content, tree.content? (root.extend spec.unitPath).place = some content →
    decodeStrict content ≠ none

theorem FileTree.TextsAt.textAt (h : tree.TextsAt root specs) {spec : Spec} (hspec : spec ∈ specs) :
    tree.TextAt (root.extend spec.unitPath) := by
  intro octets hfind
  obtain ⟨place, hlocate, hplace⟩ := (FileTree.find?_eq_some_iff _ _ _).mp hfind
  rw [(FileTree.place_of_locate hlocate).1] at hplace
  exact h spec hspec octets (FileTree.content?_eq_some_iff.mpr hplace)

theorem FileTree.TextsAt.emits {spec : Spec} {unit : BinderUnit} {next : FileTree}
    {report : OwnerReport} (h : tree.TextsAt root specs)
    (hemits : Emits checkOnly root classes spec unit tree report next stale)
    (hrender : spec.render profile = .ok unit) (hnested : tree.Nested) :
    next.TextsAt root specs := by
  intro other hother content hcontent
  obtain ⟨-, -, hchanges⟩ := hemits.frame hrender hnested
  rcases hchanges (root.extend other.unitPath).place with hsame | ⟨-, hwritten⟩
  · exact h other hother content (hsame.symm.trans hcontent)
  · obtain ⟨-, -, unit', -, -, -, hencoded⟩ := hwritten.emitted
    obtain rfl := Option.some.inj (hencoded.symm.trans hcontent)
    simp [decodeStrict_encode]

theorem emits_of_textAt {spec : Spec} (request : Request) (hshort : spec.IsShort)
    (htext : tree.TextAt (root.extend spec.unitPath)) :
    ∃ unit report next stale, spec.render request.profile = .ok unit ∧
      Emits request.checkOnly root classes spec unit tree report next stale := by
  let site : Site := { tree, sink := { root, checkOnly := request.checkOnly } }
  have hsettled : (settledOwner request.checkOnly classes spec
      ((emitFile spec request.profile).from site).1).isSome :=
    settledOwner_isSome_iff.mpr ⟨hshort, htext⟩
  obtain ⟨report, hreport⟩ := Option.isSome_iff_exists.mp hsettled
  have hrun : (emitOwner request classes spec).from site =
      (.ok report, ((emitOwner request classes spec).from site).2) :=
    Prod.ext (emitOwner_eq_ok_iff.mpr hreport) rfl
  obtain ⟨unit, next, stale, hrender, hemits, -⟩ := emitOwner_ok rfl hrun
  exact ⟨unit, report, next, stale, hrender, hemits⟩

/-- All emissions settle if all identifiers can be written and no file that is no text stands where
a unit goes. -/
theorem emitsAll_of_textsAt (request : Request) (hshort : ∀ spec ∈ specs, spec.IsShort)
    (htexts : tree.TextsAt root specs) (hnested : tree.Nested) :
    ∃ reports last seen stale, EmitsAll request.checkOnly root request.profile classes tree specs
      reports last seen stale := by
  induction specs generalizing tree with
  | nil => exact ⟨[], tree, [], [], .nil tree⟩
  | cons spec specs ih =>
    obtain ⟨unit, report, next, stale, hrender, hfirst⟩ := emits_of_textAt request
      (hshort spec List.mem_cons_self) (htexts.textAt List.mem_cons_self)
    obtain ⟨hnext, -, -⟩ := hfirst.frame hrender hnested
    have hrest : next.TextsAt root specs := fun other hother =>
      htexts.emits hfirst hrender hnested other (List.mem_cons_of_mem _ hother)
    obtain ⟨reports, last, seen, more, hall⟩ :=
      ih (fun other hother => hshort other (List.mem_cons_of_mem _ hother)) hrest hnext
    exact ⟨report :: reports, last, unit.path :: seen, stale ++ more, .cons hrender hfirst hall⟩

end

namespace Request
variable {request : Request} {tree : FileTree} {files : List SourceFile}

/-- If all identifiers of a pass can be written, the emission of an owner settles, and so is
reported, at every site in which no file that is no text stands where the unit goes. If there is no
such file at the place of any unit when the pass begins, all owners are emitted or rejected one by
one, and a pass that is neither to prune nor to write its report gives that report. -/
theorem run_settles (tree : Workspace)
    (hdiscover : discover tree request.sourceRoot request.exclude = .ok files)
    (hshort : ∀ spec ∈ (request.built tree files).specs, spec.IsShort) :
    (∀ spec ∈ (request.built tree files).specs, ∀ site : Site,
      site.tree.TextAt (site.sink.root.extend spec.unitPath) →
      ∃ report, ((emitOwner request (request.classes tree files) spec).from site).1 = .ok report ∧
        settledOwner request.checkOnly (request.classes tree files) spec
          ((emitFile spec request.profile).from site).1 = some report) ∧
    (tree.TextsAt request.target (request.built tree files).specs →
      ∃ emitted last seen stale,
        EmitsAll request.checkOnly request.target request.profile (request.classes tree files)
          tree (request.built tree files).specs emitted last seen stale ∧
        List.Forall₂ (Settles request.checkOnly request.profile (request.classes tree files))
          (request.built tree files).specs emitted ∧
        ((request.prune && request.clean tree files) = false → request.reportDirectory = none →
          (request.run tree).result = .ok (request.reported tree files emitted stale []))) := by
  refine ⟨fun spec hspec site htext => ?_, fun htexts => ?_⟩
  · have hsettled : (settledOwner request.checkOnly (request.classes tree files) spec
        ((emitFile spec request.profile).from site).1).isSome :=
      settledOwner_isSome_iff.mpr ⟨hshort spec hspec, htext⟩
    obtain ⟨report, hreport⟩ := Option.isSome_iff_exists.mp hsettled
    exact ⟨report, emitOwner_eq_ok_iff.mpr hreport, hreport⟩
  · obtain ⟨emitted, last, seen, stale, hemits⟩ :=
      emitsAll_of_textsAt request hshort htexts tree.formed.toNested
    refine ⟨emitted, last, seen, stale, hemits, hemits.settles, fun hskipped hreport => ?_⟩
    have hrun := (run_of ⟨files, emitted, last, seen, stale, [], last, [], hdiscover, hemits,
      .skipped hskipped⟩ hreport).1
    rwa [Course.report, List.append_nil] at hrun

end Request

/-- A module with two classes to bind, and a directory in the way of the unit of the first. -/
def FileTree.blocked : FileTree := ⟨[(["src"], .directory),
  (["src", "m.py"],
    .file (encode "class A:\n    f = bind_view(1)\nclass B:\n    g = bind_view(2)\n")),
  (["out"], .directory), (["out", "a_binding.py"], .directory)]⟩

/-- A pass into a directory of its own that deletes nothing. -/
def Request.sparing : Request := { Request.sample with prune := false }

theorem Request.discover_blocked : discover .blocked sparing.sourceRoot sparing.exclude =
    .ok [⟨⟨"", ["src", "m.py"]⟩, "m", false⟩] := by
  have hbelow : FileTree.blocked.below sparing.sourceRoot ".py" =
      [⟨"", ["m.py"]⟩].mergeSort Path.le := rfl
  rw [discover, candidateFiles_of_below hbelow (by decide)]
  rfl

private theorem blocked_built :
    (Request.sparing.built .blocked [⟨⟨"", ["src", "m.py"]⟩, "m", false⟩]).specs.map
      Spec.unitPath = ["a_binding.py", "b_binding.py"] ∧
    (Request.sparing.built .blocked [⟨⟨"", ["src", "m.py"]⟩, "m", false⟩]).rejected.length = 0 ∧
    ∀ spec ∈ (Request.sparing.built .blocked [⟨⟨"", ["src", "m.py"]⟩, "m", false⟩]).specs,
      spec.IsShort := by
  decide +kernel

private theorem blocked_texts : FileTree.blocked.TextsAt Request.sparing.target
    (Request.sparing.built .blocked [⟨⟨"", ["src", "m.py"]⟩, "m", false⟩]).specs := by
  intro spec hspec content hcontent
  have hpath : spec.unitPath ∈ ["a_binding.py", "b_binding.py"] := by
    rw [← blocked_built.1]
    exact List.mem_map_of_mem hspec
  have hnone : ∀ path ∈ ["a_binding.py", "b_binding.py"],
      FileTree.blocked.content? (Request.sparing.target.extend path).place = none := by
    decide
  rw [hnone _ hpath] at hcontent
  simp at hcontent

/-- A directory is in the way of the first owner's unit: that owner is rejected, the other is
emitted. -/
theorem Request.run_settles_blocked : ∃ report, (sparing.run .blocked).result = .ok report ∧
    List.Forall₂ (Settles false .standard
        (sparing.classes .blocked [⟨⟨"", ["src", "m.py"]⟩, "m", false⟩]))
      (sparing.built .blocked [⟨⟨"", ["src", "m.py"]⟩, "m", false⟩]).specs report.owners := by
  have hformed : FileTree.blocked.WellFormed := .of_entries (by decide) (by decide)
  obtain ⟨-, hpass⟩ := run_settles ⟨_, hformed⟩ discover_blocked blocked_built.2.2
  obtain ⟨emitted, last, seen, stale, -, hsettles, hrun⟩ := hpass blocked_texts
  refine ⟨_, hrun rfl rfl, ?_⟩
  have hnone : (sparing.built .blocked [⟨⟨"", ["src", "m.py"]⟩, "m", false⟩]).rejected = [] :=
    List.length_eq_zero_iff.mp blocked_built.2.1
  rw [reported, hnone]
  exact hsettles

def PassOutcome.interruption (outcome : PassOutcome) : Option Interruption :=
  match outcome.result with
  | .ok _ => none
  | .error interruption => some interruption

theorem PassOutcome.result_of_interruption {outcome : PassOutcome} {interruption : Interruption}
    (h : outcome.interruption = some interruption) : outcome.result = .error interruption := by
  unfold PassOutcome.interruption at h
  split at h
  · simp at h
  · rename_i hresult
    rw [hresult, Option.some.inj h]

/-- A module with two classes to bind, and a unit of the first that is damaged behind its mark. -/
def FileTree.torn : FileTree := ⟨[(["src"], .directory),
  (["src", "m.py"],
    .file (encode "class A:\n    f = bind_view(1)\nclass B:\n    g = bind_view(2)\n")),
  (["out"], .directory),
  (["out", "a_binding.py"], .file (encode generatedHeader ++ [0xFF]))]⟩

/-- A unit that is damaged interrupts the pass, and the other owner gets no unit. -/
theorem Request.run_torn : (sample.run .torn).result = .error .undecodable ∧
    (sample.run .torn).tree.content? ["out", "b_binding.py"] = none := by
  have hrun : (sample.run .torn).interruption = some .undecodable ∧
      (sample.run .torn).tree.content? ["out", "b_binding.py"] = none := by
    decide +kernel
  exact ⟨PassOutcome.result_of_interruption hrun.1, hrun.2⟩

end ElementBinding
