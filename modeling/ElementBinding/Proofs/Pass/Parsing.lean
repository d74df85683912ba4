import ElementBinding.Proofs.Pass.UnitPaths
import ElementBinding.Proofs.Unit.Parsing

/-!
# Units that are parsed

What a pass takes for names of classes and fields are names, and what it takes for types can be
quoted, so a unit is a module if the name of its owner's module is one that can be imported and no
field is named by a keyword. The name of a module is made from names of files, and nothing is asked
of these: an owner in a file that no statement can import is accepted, with a unit that cannot be
parsed.
-/
namespace ElementBinding
open ElementBinding.Text ElementBinding.Naming ElementBinding.Grammar

theorem fields_ne_nil_of_mem_build {classes : List DeclaredClass} {profile : Profile}
    {known : List String} {spec : Spec} (h : spec ∈ (build classes profile known).specs) :
    spec.fields ≠ [] := by
  rw [build_specs_eq] at h
  obtain ⟨declared, -, hspec⟩ := List.mem_filterMap.mp h
  obtain ⟨rfl, hclaims, -, -⟩ := accepted_of_spec? hspec
  exact hclaims.2.1

namespace Request
variable {request : Request} {tree : FileTree} {files : List SourceFile} {report : Report}

/-- The texts of a specification of a pass can stand in its unit, but for the name of its module
and for fields that are named by keywords. -/
theorem writable_of_built (hprofile : request.profile = .standard) {spec : Spec}
    (hspec : spec ∈ (request.built tree files).specs) (hshort : spec.IsShort)
    (hmodule : ∀ part ∈ dottedParts spec.ownerModule, IsFreeName part)
    (hfields : ∀ field ∈ spec.fields, isReserved field.name = false) : spec.Writable := by
  obtain ⟨_, -, declared, hnamed, -, hdeclared⟩ := mem_built_specs hspec
  have hnonempty := fields_ne_nil_of_mem_build hspec
  rw [hprofile] at hdeclared
  subst hdeclared
  exact hnamed.writable hnonempty hshort hmodule hfields

/-- The unit of an owner that a pass does not reject can be parsed if the name of the owner's module
is a dotted sequence of names without keywords, and no keyword names one of its fields. -/
theorem run_parses (hprofile : request.profile = .standard)
    (hrun : (request.run tree).result = .ok report) :
    ∃ files, discover tree request.sourceRoot request.exclude = .ok files ∧
      ∀ owner ∈ report.owners, owner.judgement.verdict ≠ .reject →
        ∃ spec ∈ (request.built tree files).specs, ∃ unit changed,
          spec.render request.profile = .ok unit ∧
          owner = emittedOwner request.checkOnly spec ⟨unit, changed⟩ ∧
          ((∀ part ∈ dottedParts spec.ownerModule, IsFreeName part) →
            (∀ field ∈ spec.fields, isReserved field.name = false) →
            (Source.ofOctets (encode unit.source)).tree.isSome) := by
  obtain ⟨course, rfl, -⟩ := run_ok hrun
  refine ⟨course.files, course.discovered, fun owner howner haccepted => ?_⟩
  obtain ⟨spec, hspec, unit, changed, hrender, hreport⟩ :=
    course.emits.emitted owner (course.mem_emitted howner haccepted) haccepted
  refine ⟨spec, hspec, unit, changed, hrender, hreport, fun hmodule hfields => ?_⟩
  rw [hprofile] at hrender
  have hshort := (Spec.source_of_render hrender).1
  exact (writable_of_built hprofile hspec hshort hmodule hfields).parses hrender

end Request

/-- A module of a package, with a class whose field has a quoted type. -/
def FileTree.screens : FileTree := ⟨[(["src"], .directory), (["src", "app"], .directory),
  (["src", "app", "screens.py"],
    .file (encode "class MainScreen:\n    title: 'Text | None' = bind_view(100)\n"))]⟩

private theorem Request.screens_beside :
    (beside.run .screens).accepted = some [some "app/main_screen_binding.py"] ∧
    ∀ spec ∈ (beside.built .screens
        [⟨⟨"", ["src", "app", "screens.py"]⟩, "app.screens", false⟩]).specs,
      (∀ part ∈ dottedParts spec.ownerModule, IsFreeName part) ∧
        ∀ field ∈ spec.fields, isReserved field.name = false := by
  decide +kernel

theorem Request.discover_screens : discover .screens beside.sourceRoot beside.exclude =
    .ok [⟨⟨"", ["src", "app", "screens.py"]⟩, "app.screens", false⟩] := by
  have hbelow : FileTree.screens.below beside.sourceRoot ".py" =
      [⟨"", ["app", "screens.py"]⟩].mergeSort Path.le := rfl
  rw [discover, candidateFiles_of_below hbelow (by decide)]
  rfl

theorem Request.run_parses_screens : ∃ report, (beside.run .screens).result = .ok report ∧
    (report.owners.filter (·.judgement.verdict ≠ .reject)).map (·.unitPath) =
      [some "app/main_screen_binding.py"] ∧
    ∀ owner ∈ report.owners, owner.judgement.verdict ≠ .reject →
      ∃ spec unit changed, spec.render beside.profile = .ok unit ∧
        owner = emittedOwner beside.checkOnly spec ⟨unit, changed⟩ ∧
        (Source.ofOctets (encode unit.source)).tree.isSome := by
  obtain ⟨report, hrun, hpaths⟩ := PassOutcome.result_of_accepted screens_beside.1
  refine ⟨report, hrun, hpaths, fun owner howner haccepted => ?_⟩
  obtain ⟨files, hdiscover, hparses⟩ := run_parses rfl hrun
  obtain rfl := Except.ok.inj (discover_screens.symm.trans hdiscover)
  obtain ⟨spec, hspec, unit, changed, hrender, hreport, hparsed⟩ := hparses owner howner haccepted
  obtain ⟨hmodule, hfields⟩ := screens_beside.2 spec hspec
  exact ⟨spec, unit, changed, hrender, hreport, hparsed hmodule hfields⟩

/-- A module in a file whose name is no name of a module. -/
def FileTree.hyphenated : FileTree := ⟨[(["src"], .directory),
  (["src", "my-app.py"], .file (encode "class X:\n    f = bind_view(1)\n"))]⟩

theorem Request.discover_hyphenated : discover .hyphenated beside.sourceRoot beside.exclude =
    .ok [⟨⟨"", ["src", "my-app.py"]⟩, "my-app", false⟩] := by
  have hbelow : FileTree.hyphenated.below beside.sourceRoot ".py" =
      [⟨"", ["my-app.py"]⟩].mergeSort Path.le := rfl
  rw [discover, candidateFiles_of_below hbelow (by decide)]
  rfl

private theorem Request.hyphenated_beside :
    (beside.run .hyphenated).accepted = some [some "x_binding.py"] ∧
    ∀ spec ∈ (beside.built .hyphenated
        [⟨⟨"", ["src", "my-app.py"]⟩, "my-app", false⟩]).specs,
      (Module.parse? (spec.lines.flatMap fun line => line.toList ++ ['\n'])).isNone := by
  decide +kernel

/-- A class in a file that no statement can import is accepted, and its unit cannot be parsed. -/
theorem Request.run_not_parses : ∃ report files, (beside.run .hyphenated).result = .ok report ∧
    discover .hyphenated beside.sourceRoot beside.exclude = .ok files ∧
    ∃ owner ∈ report.owners, owner.judgement.verdict ≠ .reject ∧
      ∃ spec ∈ (beside.built .hyphenated files).specs, ∃ unit changed,
        spec.render beside.profile = .ok unit ∧
        owner = emittedOwner beside.checkOnly spec ⟨unit, changed⟩ ∧
        (Source.ofOctets (encode unit.source)).tree.isNone := by
  obtain ⟨report, hrun, hpaths⟩ := PassOutcome.result_of_accepted hyphenated_beside.1
  obtain ⟨course, rfl, -⟩ := run_ok hrun
  have hfiles := course.discovered
  rw [discover_hyphenated] at hfiles
  obtain ⟨owner, hmem⟩ : ∃ owner, owner ∈
      course.report.owners.filter (·.judgement.verdict ≠ .reject) := by
    refine List.exists_mem_of_ne_nil _ fun hnil => ?_
    rw [hnil] at hpaths
    simp at hpaths
  obtain ⟨howner, haccepted⟩ := List.mem_filter.mp hmem
  have haccepted : owner.judgement.verdict ≠ .reject := by simpa using haccepted
  obtain ⟨spec, hspec, unit, changed, hrender, hreport⟩ :=
    course.emits.emitted owner (course.mem_emitted howner haccepted) haccepted
  rw [← Except.ok.inj hfiles] at hspec
  have hbroken : (Source.ofOctets (encode unit.source)).tree.isNone := by
    rw [Source.ofOctets, decodeTolerant_encode, Spec.toList_source hrender]
    exact hyphenated_beside.2 spec hspec
  exact ⟨_, _, hrun, discover_hyphenated, owner, howner, haccepted, spec, hspec, unit, changed,
    hrender, hreport, hbroken⟩

end ElementBinding
