import ElementBinding.Proofs.Pass.Account
import ElementBinding.Proofs.Pass.Settling

/-!
# Failures in a report

An owner whose unit cannot be emitted is reported with the binder and the unit of its specification.
Its fields are those of a class that is looked up by the owner's name, and of several classes of one
name the last is found. So the fields are those of the specification as long as no class that comes
later has taken the name with other fields.
-/
namespace ElementBinding
open ElementBinding.Text

/-- The class is the last one of a name. -/
def LastNamed (classes : List DeclaredClass) (name : String) (declared : DeclaredClass) : Prop :=
  declared.owner.qualifiedName = name ∧ ∃ before after, classes = before ++ declared :: after ∧
    ∀ other ∈ after, other.owner.qualifiedName ≠ name

section Lookup
variable {classes : List DeclaredClass} {spec : Spec} {declared : DeclaredClass}

theorem lastNamed_of_declaredFor (h : declaredFor classes spec = some declared) :
    LastNamed classes spec.ownerQualifiedName declared := by
  obtain ⟨hname, before, after, hsplit, hothers⟩ := List.find?_eq_some_iff_append.mp h
  refine ⟨of_decide_eq_true hname, after.reverse, before.reverse, ?_, ?_⟩
  · rw [← List.reverse_reverse classes, hsplit]
    simp
  · intro other hother
    simpa using hothers other (List.mem_reverse.mp hother)

theorem declaredFor_isSome (h : declared ∈ classes)
    (hname : declared.owner.qualifiedName = spec.ownerQualifiedName) :
    ∃ last, declaredFor classes spec = some last := by
  apply Option.isSome_iff_exists.mp
  apply List.find?_isSome.mpr
  exact ⟨declared, List.mem_reverse.mpr h, decide_eq_true hname⟩

theorem LastNamed.eq_or_mem {name : String} {before after : List DeclaredClass}
    {last : DeclaredClass} (h : LastNamed (before ++ declared :: after) name last)
    (hname : declared.owner.qualifiedName = name) : last = declared ∨ last ∈ after := by
  obtain ⟨-, front, back, hsplit, hothers⟩ := h
  rcases List.append_eq_append_iff.mp hsplit with ⟨between, -, hrest⟩ | ⟨between, -, hrest⟩
  · cases between with
    | nil => exact .inl (List.cons.inj hrest).1.symm
    | cons first more =>
      obtain ⟨-, rfl⟩ := List.cons.inj hrest
      exact .inr (List.mem_append_right _ (List.mem_cons_self ..))
  · cases between with
    | nil => exact .inl (List.cons.inj hrest).1
    | cons first more =>
      obtain ⟨-, rfl⟩ := List.cons.inj hrest
      exact absurd hname (hothers declared (List.mem_append_right _ (List.mem_cons_self ..)))

end Lookup

theorem emitError_notMem_emittedOwner (checkOnly : Bool) (spec : Spec) (emission : Emission) :
    .emitError ∉ (emittedOwner checkOnly spec emission).judgement.reasons := by
  intro hmem
  exact absurd (emittedOwner_reasons checkOnly spec emission hmem) (by decide)

theorem emitError_notMem_rejectedReport (profile : Profile) (declared : DeclaredClass)
    (fault : Fault) : .emitError ∉ (rejectedReport profile declared fault).judgement.reasons := by
  have hne : .emitError ≠ fault.reason := by
    unfold Fault.reason
    split <;> simp
  exact fun hmem => hne (List.mem_singleton.mp hmem)

section Emitting
variable {checkOnly : Bool} {root : Path} {profile : Profile} {classes : List DeclaredClass}
  {spec : Spec} {owner : OwnerReport} {tree : FileTree}

/-- Emitting a specification over a tree stops at a fault of its owner. -/
def FailsOver (checkOnly : Bool) (root : Path) (profile : Profile) (tree : FileTree) (spec : Spec)
    (fault : EmitFault) : Prop :=
  ∀ site : Site, site.tree = tree → site.sink.root = root → site.sink.checkOnly = checkOnly →
    ∃ after, (emitFile spec profile).from site = (.error (.fault fault), after)

theorem Emits.failed {unit : BinderUnit} {next : FileTree} {stale : List String}
    (h : Emits checkOnly root classes spec unit tree owner next stale)
    (rendered : spec.render profile = .ok unit) (hreason : .emitError ∈ owner.judgement.reasons) :
    ∃ fault, owner = failedOwner classes spec fault.message ∧
      FailsOver checkOnly root profile tree spec fault := by
  cases h with
  | kept => exact absurd hreason (emitError_notMem_emittedOwner _ _ _)
  | stale => exact absurd hreason (emitError_notMem_emittedOwner _ _ _)
  | written => exact absurd hreason (emitError_notMem_emittedOwner _ _ _)
  | unwritten found differs unchecked applied =>
    refine ⟨_, rfl, ?_⟩
    rintro site rfl rfl hcheck
    have hsite : site.sink.checkOnly = false := hcheck.trans unchecked
    rw [emitFile_from, rendered]
    simp [write_from, found, differs, hsite, applied, WriteFault.toStop]
  | refused found stopped =>
    refine ⟨_, rfl, ?_⟩
    rintro site rfl rfl -
    rw [emitFile_from, rendered]
    simp [write_from, found, stopped]

/-- A failure among the owners of a pass is the failure of one of the specifications, over the tree
that emitting those before it has left. -/
theorem EmitsAll.failed {specs : List Spec} {reports : List OwnerReport} {last : FileTree}
    {seen stale : List String}
    (h : EmitsAll checkOnly root profile classes tree specs reports last seen stale)
    (howner : owner ∈ reports) (hreason : .emitError ∈ owner.judgement.reasons) :
    ∃ front spec back told reached seen stale fault, specs = front ++ spec :: back ∧
      EmitsAll checkOnly root profile classes tree front told reached seen stale ∧
      FailsOver checkOnly root profile reached spec fault ∧
      owner = failedOwner classes spec fault.message := by
  induction h with
  | nil => simp at howner
  | @cons spec specs unit tree next last report reports seen stale more rendered first rest ih =>
    rcases List.mem_cons.mp howner with rfl | howner
    · obtain ⟨fault, heq, hfails⟩ := first.failed rendered hreason
      exact ⟨[], spec, specs, [], tree, [], [], fault, rfl, .nil tree, hfails, heq⟩
    · obtain ⟨front, other, back, told, reached, _, _, fault, rfl, hfront, hfails, heq⟩ := ih howner
      exact ⟨spec :: front, other, back, _, reached, _, _, fault, rfl, .cons rendered first hfront,
        hfails, heq⟩

end Emitting

/-- The report on an owner names a specification and what went wrong with it. -/
structure OwnerReport.Blames (owner : OwnerReport) (classes : List DeclaredClass) (spec : Spec)
    (fault : EmitFault) : Prop where
  named : owner.owner = spec.ownerQualifiedName
  binderModule : owner.binderModule = some spec.binderModule
  binder : owner.binder = some spec.binderName
  unitPath : owner.unitPath = some spec.unitPath
  judgement : owner.judgement = ⟨.reject, [.emitError]⟩
  error : owner.error = some fault.message
  /-- The fields are those of the last class of the owner's name. -/
  fields : ∃ declared, LastNamed classes spec.ownerQualifiedName declared ∧
    owner.fields = declared.fields.map (·.report)

theorem failedOwner_blames {classes : List DeclaredClass} {declared : DeclaredClass}
    {profile : Profile} (h : declared ∈ classes) (fault : EmitFault) :
    (failedOwner classes (declared.spec profile) fault.message).Blames classes
      (declared.spec profile) fault := by
  obtain ⟨last, hlast⟩ : ∃ last, declaredFor classes (declared.spec profile) = some last :=
    declaredFor_isSome h rfl
  have hnamed := lastNamed_of_declaredFor hlast
  unfold failedOwner
  rw [hlast]
  exact ⟨hnamed.1, rfl, rfl, rfl, rfl, rfl, last, hnamed, rfl⟩

namespace Request
variable {request : Request} {tree : FileTree} {report : Report}

/-- In a pass, emitting a specification fails when its turn has come. -/
def FailsToEmit (request : Request) (tree : FileTree) (files : List SourceFile) (spec : Spec)
    (fault : EmitFault) : Prop :=
  ∃ front back told reached seen stale, (request.built tree files).specs = front ++ spec :: back ∧
    EmitsAll request.checkOnly request.target request.profile (request.classes tree files) tree
      front told reached seen stale ∧
    FailsOver request.checkOnly request.target request.profile reached spec fault

theorem Course.failsToEmit (course : request.Course tree) {owner : OwnerReport}
    (howner : owner ∈ course.report.owners) (hreason : .emitError ∈ owner.judgement.reasons) :
    ∃ spec fault, request.FailsToEmit tree course.files spec fault ∧
      owner = failedOwner (request.classes tree course.files) spec fault.message := by
  rcases List.mem_append.mp howner with hrejected | hemitted
  · obtain ⟨⟨declared, fault⟩, -, rfl⟩ := List.mem_map.mp hrejected
    exact absurd hreason (emitError_notMem_rejectedReport _ _ _)
  · obtain ⟨front, spec, back, told, reached, seen, stale, fault, hspecs, hfront, hfails, heq⟩ :=
      course.emits.failed hemitted hreason
    exact ⟨spec, fault, ⟨front, back, told, reached, seen, stale, hspecs, hfront, hfails⟩, heq⟩

theorem FailsToEmit.mem {files : List SourceFile} {spec : Spec} {fault : EmitFault}
    (h : request.FailsToEmit tree files spec fault) : spec ∈ (request.built tree files).specs := by
  obtain ⟨front, back, _, _, _, _, hspecs, -⟩ := h
  rw [hspecs]
  exact List.mem_append_right _ (List.mem_cons_self ..)

/-- An owner that is reported with an emission error names the specification that failed, and lists
its fields unless a class that comes later has the owner's name and shows other fields. -/
theorem run_blames (hrun : (request.run tree).result = .ok report) {owner : OwnerReport}
    (howner : owner ∈ report.owners) (hreason : .emitError ∈ owner.judgement.reasons) :
    ∃ files spec fault, discover tree request.sourceRoot request.exclude = .ok files ∧
      request.FailsToEmit tree files spec fault ∧
      owner.Blames (request.classes tree files) spec fault ∧
      ∃ before declared after, request.classes tree files = before ++ declared :: after ∧
        spec = declared.spec request.profile ∧
        ((∀ other ∈ after, other.owner.qualifiedName = spec.ownerQualifiedName →
            other.fields.map (·.report) = spec.fields.map (·.report)) →
          owner.fields = spec.fields.map (·.report)) := by
  obtain ⟨course, rfl, -⟩ := run_ok hrun
  obtain ⟨spec, fault, hfails, rfl⟩ := course.failsToEmit howner hreason
  obtain ⟨declared, hdeclared, rfl⟩ := mem_build_specs hfails.mem
  obtain ⟨before, after, hsplit⟩ := List.append_of_mem hdeclared
  have hblames : OwnerReport.Blames _ _ (declared.spec request.profile) fault :=
    failedOwner_blames hdeclared fault
  refine ⟨course.files, _, fault, course.discovered, hfails, hblames, before, declared, after,
    hsplit, rfl, fun hlater => ?_⟩
  obtain ⟨last, hlast, hfields⟩ := hblames.fields
  rw [hfields]
  rcases (hsplit ▸ hlast).eq_or_mem rfl with rfl | hmem
  · rfl
  · exact hlater last hmem hlast.1

end Request

/-- A class that is stated twice, the second time without its field, and a text in the way of its
unit. -/
def FileTree.restated : FileTree := ⟨[(["src"], .directory),
  (["src", "m.py"], .file (encode "class A:\n    f = bind_view(1)\nclass A:\n    pass\n")),
  (["out"], .directory),
  (["out", "a_binding.py"], .file (encode "y = 1\n"))]⟩

def PassOutcome.blamed (outcome : PassOutcome) :
    Option (List (String × List Reason × List String)) :=
  outcome.result.toOption.map fun report => report.owners.map fun owner =>
    (owner.owner, owner.judgement.reasons, owner.fields.map (·.name))

private theorem PassOutcome.exists_blamed {outcome : PassOutcome} {name : String}
    {fields : List String} (h : outcome.blamed = some [(name, [.emitError], fields)]) :
    ∃ report owner, outcome.result = .ok report ∧ owner ∈ report.owners ∧
      .emitError ∈ owner.judgement.reasons ∧ owner.fields.map (·.name) = fields := by
  obtain ⟨report, hrun, howners⟩ := result_of_shown h
  obtain ⟨owner, howner, heq⟩ := List.map_eq_singleton_iff.mp howners
  obtain ⟨-, heq⟩ := Prod.mk.inj heq
  obtain ⟨hreasons, hfields⟩ := Prod.mk.inj heq
  exact ⟨report, owner, hrun, by simp [howner], by simp [hreasons], hfields⟩

namespace Request

theorem run_blames_sample : ∃ report owner,
    (sparing.run (.sampleWith (encode "y = 1\n"))).result = .ok report ∧
    owner ∈ report.owners ∧ .emitError ∈ owner.judgement.reasons ∧
    owner.fields.map (·.name) = ["f"] ∧
    ∃ files spec fault,
      discover (.sampleWith (encode "y = 1\n")) sparing.sourceRoot sparing.exclude = .ok files ∧
      sparing.FailsToEmit (.sampleWith (encode "y = 1\n")) files spec fault ∧
      owner.Blames (sparing.classes (.sampleWith (encode "y = 1\n")) files) spec fault := by
  have hblamed : (sparing.run (.sampleWith (encode "y = 1\n"))).blamed =
      some [("m.A", [.emitError], ["f"])] := by
    decide +kernel
  obtain ⟨report, owner, hrun, howner, hreason, hfields⟩ := PassOutcome.exists_blamed hblamed
  obtain ⟨files, spec, fault, hdiscover, hfails, hblames, -⟩ := run_blames hrun howner hreason
  exact ⟨report, owner, hrun, howner, hreason, hfields, files, spec, fault, hdiscover, hfails,
    hblames⟩

/-- The class that is stated first has a field and fails to be emitted, and the report on the
failure has the fields of the second, which are none. -/
theorem run_blames_restated : ∃ report owner files spec fault,
    (sparing.run .restated).result = .ok report ∧ owner ∈ report.owners ∧
    .emitError ∈ owner.judgement.reasons ∧
    discover .restated sparing.sourceRoot sparing.exclude = .ok files ∧
    (sparing.built .restated files).specs = [spec] ∧
    sparing.FailsToEmit .restated files spec fault ∧
    owner.fields ≠ spec.fields.map (·.report) := by
  have hblamed : (sparing.run .restated).blamed = some [("m.A", [.emitError], [])] := by
    decide +kernel
  have hdiscover : discover .restated sparing.sourceRoot sparing.exclude =
      .ok [⟨⟨"", ["src", "m.py"]⟩, "m", false⟩] := by
    have hbelow : FileTree.restated.below sparing.sourceRoot ".py" =
        [⟨"", ["m.py"]⟩].mergeSort Path.le := rfl
    rw [discover, candidateFiles_of_below hbelow (by decide)]
    rfl
  have hbuilt : (sparing.built .restated [⟨⟨"", ["src", "m.py"]⟩, "m", false⟩]).specs.map
      (fun spec => spec.fields.map (·.name)) = [["f"]] := by
    decide +kernel
  obtain ⟨report, owner, hrun, howner, hreason, hfields⟩ := PassOutcome.exists_blamed hblamed
  obtain ⟨course, rfl, -⟩ := run_ok hrun
  obtain ⟨spec, fault, hfails, -⟩ := course.failsToEmit howner hreason
  have hfiles := Except.ok.inj (course.discovered.symm.trans hdiscover)
  rw [hfiles] at hfails
  obtain ⟨only, hspecs, honly⟩ := List.map_eq_singleton_iff.mp hbuilt
  obtain rfl : spec = only := List.mem_singleton.mp (hspecs ▸ hfails.mem)
  refine ⟨_, owner, _, spec, fault, hrun, howner, hreason, hdiscover, hspecs, hfails,
    fun hsame => ?_⟩
  have hnames := congrArg (List.map FieldReport.name) hsame
  rw [hfields, List.map_map] at hnames
  exact absurd (hnames.trans honly) (by decide)

end Request
end ElementBinding
