import ElementBinding.Proofs.Pass.Account

/-!
# Units of rejected owners

An owner that is rejected for a scan error or a collision keeps the unit it had. Collisions are
found among the classes that scan cleanly, so a class with a scan error can lose its binder's module
to another class; apart from that, and from names that share a path, no emission comes to the path
of such a unit, and neither pruning nor the report touches it.
-/
namespace ElementBinding
open ElementBinding.Naming ElementBinding.Text

/-- Another class alone claims the binder's module of a class with a fault, and gets it. -/
def DeclaredClass.Usurped (classes : List DeclaredClass) (profile : Profile) (known : List String)
    (declared : DeclaredClass) : Prop :=
  declared.fault ≠ none ∧ declared.owner.binderModule profile ∉ known ∧
    ¬Contested classes profile (declared.owner.binderModule profile) ∧
    ∃ other ∈ classes, other.Claims profile (declared.owner.binderModule profile)

/-- The owner is rejected for a scan error or a collision of names. -/
def OwnerReport.Unbuilt (owner : OwnerReport) : Prop :=
  .scanError ∈ owner.judgement.reasons ∨ .binderNameCollision ∈ owner.judgement.reasons

instance (owner : OwnerReport) : Decidable owner.Unbuilt :=
  inferInstanceAs (Decidable (_ ∨ _))

instance (classes : List DeclaredClass) (profile : Profile) (binderModule : String) :
    Decidable (Contested classes profile binderModule) :=
  decidable_of_iff _ contested_iff.symm

instance (classes : List DeclaredClass) (profile : Profile) (known : List String)
    (declared : DeclaredClass) : Decidable (declared.Usurped classes profile known) :=
  inferInstanceAs (Decidable (_ ∧ _ ∧ _ ∧ _))

private theorem emittedOwner_not_unbuilt (checkOnly : Bool) (spec : Spec) (emission : Emission) :
    ¬(emittedOwner checkOnly spec emission).Unbuilt := by
  have hsub := emittedOwner_reasons checkOnly spec emission
  rintro (hmem | hmem) <;> exact absurd (hsub hmem) (by decide)

theorem EmitsAll.not_unbuilt {checkOnly : Bool} {root : Path} {profile : Profile}
    {classes : List DeclaredClass} {tree last : FileTree} {specs : List Spec}
    {reports : List OwnerReport} {seen stale : List String}
    (h : EmitsAll checkOnly root profile classes tree specs reports last seen stale) :
    ∀ owner ∈ reports, ¬owner.Unbuilt := by
  induction h with
  | nil => simp
  | cons _ first _ ih =>
    rw [List.forall_mem_cons]
    refine ⟨?_, ih⟩
    cases first with
    | kept => exact emittedOwner_not_unbuilt _ _ _
    | stale => exact emittedOwner_not_unbuilt _ _ _
    | written => exact emittedOwner_not_unbuilt _ _ _
    | unwritten => simp [OwnerReport.Unbuilt, failedOwner, rejectedOwner]
    | refused => simp [OwnerReport.Unbuilt, failedOwner, rejectedOwner]

section

variable {classes : List DeclaredClass} {profile : Profile} {known : List String}
  {declared : DeclaredClass} {fault : Fault}

theorem mem_of_mem_rejected (h : (declared, fault) ∈ (build classes profile known).rejected) :
    declared ∈ classes ∧ (declared.fate classes profile known = .faulty fault ∨
      declared.fate classes profile known = .colliding fault) := by
  rw [Build.rejected, build_faulty_eq, build_colliding_eq, List.mem_append, List.mem_filterMap,
    List.mem_filterMap] at h
  obtain ⟨other, hclass, hother⟩ | ⟨other, hclass, hother⟩ := h
  · obtain ⟨found, hfound, heq⟩ := Option.map_eq_some_iff.mp hother
    obtain ⟨rfl, rfl⟩ := Prod.mk.inj heq
    refine ⟨hclass, .inl ?_⟩
    cases hfate : other.fate classes profile known <;> simp_all [Fate.fault?]
  · obtain ⟨found, hfound, heq⟩ := Option.map_eq_some_iff.mp hother
    obtain ⟨rfl, rfl⟩ := Prod.mk.inj heq
    refine ⟨hclass, .inr ?_⟩
    cases hfate : other.fate classes profile known <;> simp_all [Fate.collision?]

theorem live_of_mem_rejected (h : (declared, fault) ∈ (build classes profile known).rejected) :
    declared.Live := by
  obtain ⟨-, hfate⟩ := mem_of_mem_rejected h
  by_contra hlive
  have hskipped : declared.fate classes profile known = .skipped := skipped_iff.mpr hlive
  rcases hfate with hfate | hfate <;> exact absurd (hfate.symm.trans hskipped) (by simp)

theorem binderModule_ne_of_rejected
    (h : (declared, fault) ∈ (build classes profile known).rejected)
    (hunusurped : ¬declared.Usurped classes profile known) :
    ∀ spec ∈ (build classes profile known).specs,
      spec.binderModule ≠ declared.owner.binderModule profile := by
  intro spec hspec heq
  rw [build_specs_eq] at hspec
  obtain ⟨other, hother, hfate⟩ := List.mem_filterMap.mp hspec
  obtain ⟨rfl, hclaims, halone, hfree⟩ := accepted_of_spec? hfate
  change other.owner.binderModule profile = _ at heq
  rw [heq] at hclaims halone hfree
  obtain ⟨-, hfaulty | hcolliding⟩ := mem_of_mem_rejected h
  · have hmeets := meets_iff.mpr hfaulty.symm
    cases hmeets with
    | faulty unsound =>
      exact hunusurped ⟨by simp [unsound], hfree, halone, other, hother, hclaims⟩
  · have hmeets := meets_iff.mpr hcolliding.symm
    cases hmeets with
    | shared claims contested =>
      rw [← claims.2.2] at contested
      exact halone contested
    | handWritten claims alone taken =>
      rw [← claims.2.2] at taken
      exact hfree taken

end

namespace Request
variable {request : Request} {tree : FileTree} {report : Report}

theorem unitPath_not_mem_specs {tree : Workspace} {files : List SourceFile}
    {declared : DeclaredClass} {fault : Fault}
    (hsuffix : '/' ∉ request.profile.moduleSuffix.toList)
    (hdiscover : discover tree request.sourceRoot request.exclude = .ok files)
    (hparts : ∀ declared ∈ request.classes tree files, declared.Live →
      "" ∉ dottedParts (declared.owner.binderModule request.profile))
    (h : (declared, fault) ∈ (request.built tree files).rejected)
    (hunusurped : ¬declared.Usurped (request.classes tree files) request.profile
      (files.map (·.moduleName))) :
    modulePath (declared.owner.binderModule request.profile) ∉
      (request.built tree files).specs.map Spec.unitPath := by
  intro hmem
  obtain ⟨spec, hspec, hpath⟩ := List.mem_map.mp hmem
  refine binderModule_ne_of_rejected h hunusurped spec hspec ?_
  have hdeclared := (mem_of_mem_rejected h).1
  have hspec' := hspec
  rw [built, build_specs_eq] at hspec'
  obtain ⟨other, hother, hfate⟩ := List.mem_filterMap.mp hspec'
  obtain ⟨rfl, hclaims, -⟩ := accepted_of_spec? hfate
  have hslash := slash_not_mem_classes hsuffix hdiscover
  exact modulePath_injective (hslash other hother) (hslash declared hdeclared)
    (hparts other hother (.inl hclaims.2.1)) (hparts declared hdeclared (live_of_mem_rejected h))
    hpath

/-- A pass leaves the units of the owners alone that it rejects for scan errors and collisions: no
owner that it emits has such a unit's path, and what stands there stays. This takes that no class
with a scan error is usurped, and that binder modules of different names have different paths. -/
theorem run_retains (tree : Workspace) (hsuffix : '/' ∉ request.profile.moduleSuffix.toList)
    (hrun : (request.run tree).result = .ok report)
    (hparts : ∀ files, discover tree request.sourceRoot request.exclude = .ok files →
      ∀ declared ∈ request.classes tree files, declared.Live →
        "" ∉ dottedParts (declared.owner.binderModule request.profile))
    (hunusurped : ∀ files, discover tree request.sourceRoot request.exclude = .ok files →
      ∀ declared ∈ request.classes tree files, ¬declared.Usurped (request.classes tree files)
        request.profile (files.map (·.moduleName))) :
    ∃ files, discover tree request.sourceRoot request.exclude = .ok files ∧
      (∀ owner ∈ report.owners, owner.Unbuilt →
        ∃ declared fault, (declared, fault) ∈ (request.built tree files).rejected ∧
          owner = rejectedReport request.profile declared fault) ∧
      ∀ declared fault, (declared, fault) ∈ (request.built tree files).rejected →
        rejectedReport request.profile declared fault ∈ report.owners ∧
        (∀ other ∈ report.owners, other.judgement.verdict ≠ .reject →
          other.unitPath ≠ some (modulePath (declared.owner.binderModule request.profile))) ∧
        (request.run tree).tree.content? (request.target.extend
            (modulePath (declared.owner.binderModule request.profile))).place =
          tree.content? (request.target.extend
            (modulePath (declared.owner.binderModule request.profile))).place := by
  obtain ⟨course, rfl, hreport⟩ := run_ok hrun
  refine ⟨course.files, course.discovered, fun owner howner hunbuilt => ?_,
    fun declared fault hrejected => ?_⟩
  · rcases List.mem_append.mp howner with hmem | hmem
    · obtain ⟨⟨declared, fault⟩, hrejected, rfl⟩ := List.mem_map.mp hmem
      exact ⟨declared, fault, hrejected, rfl⟩
    · exact absurd hunbuilt (course.emits.not_unbuilt owner hmem)
  have hdeclared := (mem_of_mem_rejected hrejected).1
  have hfresh := unitPath_not_mem_specs hsuffix course.discovered
    (hparts _ course.discovered) hrejected (hunusurped _ course.discovered declared hdeclared)
  refine ⟨List.mem_append_left _ (List.mem_map.mpr ⟨_, hrejected, rfl⟩),
    fun other hother haccepted hpath => ?_, ?_⟩
  · obtain ⟨spec, hspec, unit, changed, hrender, rfl⟩ :=
      course.emits.emitted other (course.mem_emitted hother haccepted) haccepted
    have hunit : unit.path = spec.unitPath := (Spec.render_ok hrender).1
    exact hfresh (List.mem_map.mpr ⟨spec, hspec, hunit.symm.trans (Option.some.inj hpath)⟩)
  · obtain ⟨dirs, leaf, hunit⟩ := modulePath_isUnitPath
      (slash_not_mem_classes hsuffix course.discovered declared hdeclared)
    have hplaced := specs_placed_of_suffix hsuffix course.discovered
    obtain ⟨hmiddle, -, -⟩ := course.emits.frame tree.formed.toNested
    obtain ⟨hlast, -, -⟩ := course.prunes.frame hmiddle
    have hkept := (mem_retained (course.files.map (·.moduleName)) hdeclared
      (live_of_mem_rejected hrejected) course.emitted).resolve_left hfresh
    have hunseen : (⟨"", dirs ++ [leaf]⟩ : Path).text ∉ course.seen := by
      rw [hunit.text_eq, course.emits.seen_eq]
      exact hfresh
    -- Neither is the report filed there, nor is it pruned, nor does an emission go there.
    calc (request.run tree).tree.content? (request.target.extend _).place
        = course.last.content? (request.target.extend _).place :=
          content?_of_reported hunit hlast request.target hreport
      _ = course.middle.content? (request.target.extend _).place :=
          course.prunes.content?_eq hmiddle hunit (.inr hkept)
      _ = tree.content? (request.target.extend _).place := by
          rw [hunit.place_eq]
          exact course.emits.content?_eq tree.formed.toNested hplaced rfl hunseen

end Request

/-- A module with a class that is bound and one whose marker has lost its identifier, which had a
unit before. -/
def FileTree.relapsed : FileTree := ⟨[(["src"], .directory),
  (["src", "b_binding.py"], .file (encode generatedHeader)),
  (["src", "m.py"],
    .file (encode "class A:\n    f = bind_view(1)\nclass B:\n    g = bind_view()\n"))]⟩

/-- Two modules with a class of one name each. The first one's marker has lost its identifier, and
the class had a unit before. -/
def FileTree.usurping : FileTree := ⟨[(["src"], .directory),
  (["src", "a.py"], .file (encode "class Pane:\n    f = bind_view()\n")),
  (["src", "b.py"], .file (encode "class Pane:\n    g = bind_view(2)\n")),
  (["src", "pane_binding.py"], .file (encode generatedHeader))]⟩

def PassOutcome.told (outcome : PassOutcome) :
    Option (List (String × Verdict × List Reason × Option String)) :=
  outcome.result.toOption.map fun report => report.owners.map fun owner =>
    (owner.owner, owner.judgement.verdict, owner.judgement.reasons, owner.unitPath)

theorem PassOutcome.result_of_told {outcome : PassOutcome}
    {owners : List (String × Verdict × List Reason × Option String)}
    (h : outcome.told = some owners) :
    ∃ report, outcome.result = .ok report ∧ report.owners.map (fun owner =>
      (owner.owner, owner.judgement.verdict, owner.judgement.reasons, owner.unitPath)) =
        owners :=
  result_of_shown h

namespace Request

theorem discover_relapsed : discover .relapsed beside.sourceRoot beside.exclude =
    .ok [⟨⟨"", ["src", "m.py"]⟩, "m", false⟩] := by
  have hbelow : FileTree.relapsed.below beside.sourceRoot ".py" =
      [⟨"", ["b_binding.py"]⟩, ⟨"", ["m.py"]⟩].mergeSort Path.le := rfl
  rw [discover, candidateFiles_of_below hbelow (by decide)]
  rfl

theorem discover_usurping : discover .usurping beside.sourceRoot beside.exclude =
    .ok [⟨⟨"", ["src", "a.py"]⟩, "a", false⟩, ⟨⟨"", ["src", "b.py"]⟩, "b", false⟩] := by
  have hbelow : FileTree.usurping.below beside.sourceRoot ".py" =
      [⟨"", ["a.py"]⟩, ⟨"", ["b.py"]⟩, ⟨"", ["pane_binding.py"]⟩].mergeSort Path.le := rfl
  rw [discover, candidateFiles_of_below hbelow (by decide)]
  rfl

theorem relapsed_told : (beside.run .relapsed).told =
    some [("m.B", .reject, [.scanError], none),
      ("m.A", .warn, [.untypedField], some "a_binding.py")] := by
  rw [run_eq_proceed (by simp [excludedFiles, isExcluded, beside]) discover_relapsed]
  decide +kernel

private theorem relapsed_built :
    (∀ declared ∈ beside.classes .relapsed [⟨⟨"", ["src", "m.py"]⟩, "m", false⟩], declared.Live →
      "" ∉ dottedParts (declared.owner.binderModule beside.profile)) ∧
    (∀ declared ∈ beside.classes .relapsed [⟨⟨"", ["src", "m.py"]⟩, "m", false⟩],
      ¬declared.Usurped (beside.classes .relapsed [⟨⟨"", ["src", "m.py"]⟩, "m", false⟩])
        beside.profile ["m"]) ∧
    (beside.built .relapsed [⟨⟨"", ["src", "m.py"]⟩, "m", false⟩]).rejected.map
      (·.1.owner.qualifiedName) = ["m.B"] := by
  decide +kernel

/-- The unit of a class that has come to have a fault stays, beside the one of another class. -/
theorem run_retains_relapsed : ∃ report files, (beside.run .relapsed).result = .ok report ∧
    discover .relapsed beside.sourceRoot beside.exclude = .ok files ∧
    ∃ declared fault, (declared, fault) ∈ (beside.built .relapsed files).rejected ∧
      declared.owner.qualifiedName = "m.B" ∧
      (∀ other ∈ report.owners, other.judgement.verdict ≠ .reject →
        other.unitPath ≠ some (modulePath (declared.owner.binderModule beside.profile))) ∧
      (beside.run .relapsed).tree.content? (beside.target.extend
          (modulePath (declared.owner.binderModule beside.profile))).place =
        FileTree.relapsed.content? (beside.target.extend
          (modulePath (declared.owner.binderModule beside.profile))).place := by
  obtain ⟨report, hrun, -⟩ := PassOutcome.result_of_told relapsed_told
  have hformed : FileTree.relapsed.WellFormed := .of_entries (by decide) (by decide)
  obtain ⟨files, hdiscover, -, hkept⟩ := run_retains ⟨_, hformed⟩ (by decide) hrun
    (fun files hfiles => by
      obtain rfl := Except.ok.inj (discover_relapsed.symm.trans hfiles)
      exact relapsed_built.1)
    (fun files hfiles => by
      obtain rfl := Except.ok.inj (discover_relapsed.symm.trans hfiles)
      exact relapsed_built.2.1)
  obtain rfl := Except.ok.inj (discover_relapsed.symm.trans hdiscover)
  obtain ⟨⟨declared, fault⟩, hrejected, hname⟩ := List.map_eq_singleton_iff.mp relapsed_built.2.2
  have hmem := List.mem_of_mem_head? (congrArg List.head? hrejected)
  obtain ⟨-, hapart, hsame⟩ := hkept declared fault hmem
  exact ⟨report, _, hrun, hdiscover, declared, fault, hmem, hname, hapart, hsame⟩

private def usurpingFiles : List SourceFile :=
  [⟨⟨"", ["src", "a.py"]⟩, "a", false⟩, ⟨⟨"", ["src", "b.py"]⟩, "b", false⟩]

private def usurpingSpec : Spec :=
  ⟨"b", "Pane", "pane_binding", "PaneBinding", [⟨"b.Pane", "g", none, 2, 1⟩]⟩

private theorem usurping_built :
    (beside.built .usurping usurpingFiles).specs = [usurpingSpec] ∧
    ((beside.built .usurping usurpingFiles).rejected.map
      fun (declared, fault) => rejectedReport beside.profile declared fault).map (fun owner =>
        (owner.owner, owner.judgement.verdict, owner.judgement.reasons, owner.unitPath)) =
      [("a.Pane", .reject, [.scanError], none)] ∧
    (beside.built .usurping usurpingFiles).rejected.map (fun refused =>
        (refused.1.owner.binderModule beside.profile,
          (rejectedReport beside.profile refused.1 refused.2).judgement.reasons)) =
      [("pane_binding", [.scanError])] := by
  decide +kernel

private theorem usurping_found : existingUnit .usurping
      (beside.target.extend "pane_binding.py") "pane_binding.py" =
    .ok (some generatedHeader.toList) := by
  decide

private theorem usurping_written (content : Octets) : ∃ last,
    FileTree.usurping.applyAll (FileTree.usurping.writeSteps
      (beside.target.extend "pane_binding.py") content) = (last, none) ∧
    last.content? ["src", "pane_binding.py"] = some content :=
  ⟨_, rfl, rfl⟩

theorem usurping_told : (beside.run .usurping).told =
      some [("a.Pane", .reject, [.scanError], none),
        ("b.Pane", .warn, [.untypedField], some "pane_binding.py")] ∧
    (beside.run .usurping).tree.content? ["src", "pane_binding.py"] ≠
      some (encode generatedHeader) := by
  obtain ⟨unit, hrender, hunit⟩ : ∃ unit, usurpingSpec.render .standard = .ok unit ∧
      unit.path = "pane_binding.py" :=
    ⟨_, Spec.render_eq (by decide), (by decide : usurpingSpec.unitPath = _)⟩
  have hdiffers : generatedHeader.toList ≠ unit.source.toList := by
    rw [Spec.toList_source hrender]
    decide
  obtain ⟨last, happlied, hcontent⟩ := usurping_written (encode unit.source)
  have hall : EmitsAll false beside.target .standard (beside.classes .usurping usurpingFiles)
      .usurping (beside.built .usurping usurpingFiles).specs
      [emittedOwner false usurpingSpec ⟨unit, true⟩] last [unit.path] [] := by
    rw [usurping_built.1]
    exact .cons hrender (.written (hunit ▸ usurping_found) (by simpa using hdiffers) rfl
      (hunit ▸ happlied)) (.nil last)
  let course : beside.Course .usurping :=
    ⟨usurpingFiles, _, _, _, _, _, _, _, discover_usurping, hall, .skipped rfl⟩
  obtain ⟨hrun, htree⟩ := run_of course rfl
  refine ⟨?_, ?_⟩
  · have howners : course.report.owners = ((beside.built .usurping usurpingFiles).rejected.map
        fun (declared, fault) => rejectedReport beside.profile declared fault) ++
          [emittedOwner false usurpingSpec ⟨unit, true⟩] := rfl
    have hjudgement : usurpingSpec.judge = ⟨.warn, [.untypedField]⟩ := by decide
    have hname : usurpingSpec.ownerQualifiedName = "b.Pane" := by decide
    rw [PassOutcome.told, hrun, Except.toOption, Option.map_some, howners, List.map_append,
      usurping_built.2.1]
    simp [emittedOwner, hjudgement, hname, hunit]
  · rw [htree]
    exact fun hsame =>
      hdiffers (toList_eq_of_encode_eq (Option.some.inj (hcontent.symm.trans hsame))).symm

/-- A class with a scan error can lose its unit: another class of its name, which scans cleanly,
gets the binder's module, and its unit is written over the one that was there. -/
theorem run_replaces_retained : ∃ report declared fault,
    (beside.run .usurping).result = .ok report ∧
    declared.owner.binderModule beside.profile = "pane_binding" ∧
    rejectedReport beside.profile declared fault ∈ report.owners ∧
    (rejectedReport beside.profile declared fault).judgement.reasons = [.scanError] ∧
    (∃ other ∈ report.owners, other.judgement.verdict ≠ .reject ∧
      other.unitPath = some (modulePath (declared.owner.binderModule beside.profile))) ∧
    (beside.run .usurping).tree.content? ["src", "pane_binding.py"] ≠
      FileTree.usurping.content? ["src", "pane_binding.py"] := by
  obtain ⟨report, hrun, htold⟩ := PassOutcome.result_of_told usurping_told.1
  obtain ⟨course, rfl, -⟩ := run_ok hrun
  have hfiles := Except.ok.inj (course.discovered.symm.trans discover_usurping)
  have hrefused : (beside.built .usurping course.files).rejected.map (fun refused =>
      (refused.1.owner.binderModule beside.profile,
        (rejectedReport beside.profile refused.1 refused.2).judgement.reasons)) =
      [("pane_binding", [.scanError])] := by
    rw [hfiles]
    exact usurping_built.2.2
  obtain ⟨⟨declared, fault⟩, hrejected, hreasons⟩ := List.map_eq_singleton_iff.mp hrefused
  obtain ⟨hmodule, hreasons⟩ := Prod.mk.inj hreasons
  have htaken := htold ▸ List.mem_cons_of_mem _ List.mem_cons_self
  obtain ⟨other, hother, hpane⟩ := List.mem_map.mp htaken
  simp only [Prod.mk.injEq] at hpane
  obtain ⟨-, hverdict, -, hpath⟩ := hpane
  refine ⟨_, declared, fault, hrun, hmodule, List.mem_append_left _ ?_, hreasons,
    ⟨other, hother, by simp [hverdict], ?_⟩, usurping_told.2⟩
  · exact List.mem_map.mpr ⟨_, List.mem_of_mem_head? (congrArg List.head? hrejected), rfl⟩
  · rw [hpath, hmodule]
    decide

end Request
end ElementBinding
