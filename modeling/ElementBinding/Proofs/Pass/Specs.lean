import ElementBinding.Proofs.Build
import ElementBinding.Proofs.Discovery
import ElementBinding.Proofs.FileTree.Workspace
import ElementBinding.Proofs.Pass.Course
import ElementBinding.Proofs.Text.Identifier
import ElementBinding.Proofs.Unit.Layout

/-!
# The specifications of a pass

What is built comes from the classes of the modules that were discovered, so its names come from
sources and from the names of the tree. Units have paths of names, and a tree without carriage
returns in its names gives texts without them.
-/
namespace ElementBinding
open ElementBinding.Naming

def Spec.Placed (spec : Spec) : Prop := ∃ dirs leaf, IsUnitPath spec.unitPath dirs leaf

theorem mem_build_specs {classes : List DeclaredClass} {profile : Profile} {known : List String}
    {spec : Spec} (h : spec ∈ (build classes profile known).specs) :
    ∃ declared ∈ classes, spec = declared.spec profile := by
  rw [build_specs_eq] at h
  obtain ⟨declared, hclass, hspec⟩ := List.mem_filterMap.mp h
  exact ⟨declared, hclass, (accepted_of_spec? hspec).1⟩

namespace Request
variable {request : Request} {tree : FileTree} {files : List SourceFile}

theorem scanFile_classes {file : SourceFile} :
    ∀ declared ∈ (request.scanFile tree file).classes,
      declared.Named ∧ declared.owner.moduleName = file.moduleName := by
  unfold scanFile
  dsimp only
  split
  · simp
  · split
    · rename_i hscan _
      exact Source.scan_named hscan
    · simp
    · rename_i hscan _
      exact Source.scan_named hscan

theorem mem_built_specs {spec : Spec} (h : spec ∈ (request.built tree files).specs) :
    ∃ file ∈ files, ∃ declared : DeclaredClass, declared.Named ∧
      declared.owner.moduleName = file.moduleName ∧ spec = declared.spec request.profile := by
  obtain ⟨declared, hclass, rfl⟩ := mem_build_specs h
  obtain ⟨scan, hscan, hdeclared⟩ := List.mem_flatMap.mp hclass
  obtain ⟨file, hfile, rfl⟩ := List.mem_map.mp hscan
  obtain ⟨hnamed, hmodule⟩ := scanFile_classes declared hdeclared
  exact ⟨file, hfile, declared, hnamed, hmodule, rfl⟩

/-- A character that stands in no name of the tree stands in no name of a discovered module. -/
theorem not_mem_moduleName {c : Char} (hdot : c ≠ '.')
    (hnames : ∀ place, tree.lookup place ≠ none → ∀ name ∈ place, c ∉ name.toList)
    (hdiscover : discover tree request.sourceRoot request.exclude = .ok files) :
    ∀ file ∈ files, c ∉ file.moduleName.toList := by
  intro file hfile
  obtain ⟨path, hpath, -, -, -, hmodule⟩ := mem_discover hdiscover hfile
  obtain ⟨place, -, -, -, -, hplace, -⟩ := FileTree.mem_below.mp hpath
  rw [hmodule]
  exact not_mem_moduleNameOf hdot fun name hname =>
    hnames _ hplace name (List.mem_append_right _ hname)

theorem slash_not_mem_classes {tree : Workspace}
    (hsuffix : '/' ∉ request.profile.moduleSuffix.toList)
    (hdiscover : discover tree request.sourceRoot request.exclude = .ok files) :
    ∀ declared ∈ request.classes tree files,
      '/' ∉ (declared.owner.binderModule request.profile).toList := by
  intro declared hclass
  obtain ⟨scan, hscan, hdeclared⟩ := List.mem_flatMap.mp hclass
  obtain ⟨file, hfile, rfl⟩ := List.mem_map.mp hscan
  obtain ⟨hnamed, hmodule⟩ := scanFile_classes declared hdeclared
  have hslash := not_mem_moduleName (by decide)
    (fun place hplace name hname => (tree.formed.named place hplace name hname).slashless)
    hdiscover file hfile
  refine slash_not_mem_binderModule ?_ (hnamed.owner.not_mem (by decide)) hsuffix
  rw [hmodule]
  exact hslash

theorem specs_placed_of_suffix {tree : Workspace}
    (hsuffix : '/' ∉ request.profile.moduleSuffix.toList)
    (hdiscover : discover tree request.sourceRoot request.exclude = .ok files) :
    ∀ spec ∈ (request.built tree files).specs, spec.Placed := by
  intro spec hspec
  obtain ⟨declared, hclass, rfl⟩ := mem_build_specs hspec
  exact modulePath_isUnitPath (slash_not_mem_classes hsuffix hdiscover declared hclass)

theorem specs_placed {tree : Workspace} (hprofile : request.profile = .standard)
    (hdiscover : discover tree request.sourceRoot request.exclude = .ok files) :
    ∀ spec ∈ (request.built tree files).specs, spec.Placed :=
  specs_placed_of_suffix (by rw [hprofile]; decide) hdiscover

/-- A blank other than the space stands in no text of the specification of a class unless it stands
in the name of the module. -/
theorem scanFile_without {blank : Char} (hblank : Text.isBlank blank) (hspace : blank ≠ ' ')
    (hprofile : request.profile = .standard) {file : SourceFile}
    (hmodule : blank ∉ file.moduleName.toList) :
    ∀ declared ∈ (request.scanFile tree file).classes,
      (declared.spec request.profile).Without blank := by
  intro declared hclass
  obtain ⟨hnamed, hfrom⟩ := scanFile_classes declared hclass
  have hname {text : String} (h : Grammar.IsName text) : blank ∉ text.toList :=
    h.not_mem (Text.isIdentifierRest_of_isBlank hblank)
  have hsuffix : blank ∉ Profile.standard.binderSuffix.toList := by
    have hblanks : Profile.standard.binderSuffix.toList.all (!Text.isBlank ·) := by decide
    intro hmem
    have hnot := List.all_eq_true.mp hblanks blank hmem
    simp [hblank] at hnot
  refine ⟨?_, hname hnamed.owner, ?_, fun field hfield => hname (hnamed.field field hfield).name,
    fun field hfield type htype => ?_⟩
  · change blank ∉ declared.owner.moduleName.toList
    rwa [hfrom]
  · change blank ∉ (declared.owner.name ++ request.profile.binderSuffix).toList
    rw [hprofile, String.toList_append, List.mem_append, not_or]
    exact ⟨hname hnamed.owner, hsuffix⟩
  · obtain ⟨raw, rfl⟩ := (hnamed.field field hfield).type type htype
    exact TypeHint.not_mem_normalize hblank hspace raw

/-- A blank other than the space stands in no text of a pass unless it stands in a name of the
tree. -/
theorem specs_without {blank : Char} (hblank : Text.isBlank blank) (hspace : blank ≠ ' ')
    (hprofile : request.profile = .standard)
    (hnames : ∀ place, tree.lookup place ≠ none → ∀ name ∈ place, blank ∉ name.toList)
    (hdiscover : discover tree request.sourceRoot request.exclude = .ok files) :
    ∀ spec ∈ (request.built tree files).specs, spec.Without blank := by
  intro spec hspec
  obtain ⟨declared, hclass, rfl⟩ := mem_build_specs hspec
  obtain ⟨scan, hscan, hdeclared⟩ := List.mem_flatMap.mp hclass
  obtain ⟨file, hfile, rfl⟩ := List.mem_map.mp hscan
  have hdot : blank ≠ '.' := by
    rintro rfl
    exact absurd hblank (by decide)
  have hmodule := not_mem_moduleName hdot hnames hdiscover file hfile
  exact scanFile_without hblank hspace hprofile hmodule declared hdeclared

end Request

end ElementBinding
