import ElementBinding.Proofs.Pass.Specs

/-!
# Names of modules and places of their files

A module whose name has parts without slashes has one file below a root, and the name is read off
the path of that file. So is the path off the name, unless the file is the one of a package. A
binder stands in the directory in which its owner was found: beside the file of a module, and
inside the package if the owner is in the package's own file.
-/
namespace ElementBinding
open ElementBinding.Naming ElementBinding.Text

namespace Path

theorem stem_append_py {name : String} (h : name ≠ "") : stem (name ++ ".py") = name := by
  have hchars : (name ++ ".py").toList.reverse = 'y' :: 'p' :: '.' :: name.toList.reverse := by
    rw [String.toList_append]
    simp
  have hname : name.toList.reverse ≠ [] := by simpa using h
  unfold stem
  simp only [hchars]
  simp [h]

theorem relativeTo_append (base : Path) (parts : List String) :
    relativeTo { base with parts := base.parts ++ parts } base = .ok ⟨"", parts⟩ := by
  simp [relativeTo]

end Path

/-- The file of a module whose name has the given parts. -/
theorem moduleNameOf_source (dirs : List String) {stem : String} (h : stem ≠ "") :
    moduleNameOf ⟨"", dirs ++ [stem ++ ".py"]⟩ =
      ".".intercalate (dirs ++ if stem = "__init__" then [] else [stem]) := by
  simp [moduleNameOf, Path.name, Path.stem_append_py h]

section

variable {dirs : List String} {stem : String}

theorem isUnitPath_source (h : ∀ part ∈ dirs ++ [stem], IsPart part) :
    IsUnitPath ("/".intercalate (dirs ++ [stem ++ ".py"])) dirs (stem ++ ".py") := by
  refine ⟨rfl, fun dir hdir => ?_, ?_, ?_⟩
  · have hpart := h dir (by simp [hdir])
    exact ⟨hpart.nonempty, hpart.dotless, hpart.slashless⟩
  · rw [String.toList_append, List.mem_append, not_or]
    exact ⟨(h stem (by simp)).slashless, by decide⟩
  · rw [String.toList_append]
    exact List.suffix_append _ _

theorem moduleName_source (root : Path) (h : ∀ part ∈ dirs ++ [stem], IsPart part)
    (hstem : stem ≠ "__init__") :
    moduleName (root.extend ("/".intercalate (dirs ++ [stem ++ ".py"]))) root =
      .ok (".".intercalate (dirs ++ [stem])) := by
  rw [moduleName, (isUnitPath_source h).extend root, Path.relativeTo_append]
  simp [moduleNameOf_source dirs (h stem (by simp)).nonempty, hstem]

theorem modulePath_source (h : ∀ part ∈ dirs ++ [stem], IsPart part) :
    modulePath (".".intercalate (dirs ++ [stem])) = "/".intercalate (dirs ++ [stem ++ ".py"]) := by
  rw [modulePath_intercalate (by simp) h, intercalate_concat_append]

/-- The unit of an owner stands in the directory that its package is. -/
theorem parent_of_binder {owner : Owner} {profile : Profile} (hdirs : ∀ dir ∈ dirs, IsPart dir)
    (hpackage : (if owner.isPackage then owner.moduleName else packageOf owner.moduleName) =
      ".".intercalate dirs)
    (hleaf : IsPart (snakeCase owner.name ++ profile.moduleSuffix)) (root : Path) :
    (root.extend (modulePath (owner.binderModule profile))).parent =
      { root with parts := root.parts ++ dirs } := by
  have hparts : ∀ part ∈ dirs ++ [snakeCase owner.name ++ profile.moduleSuffix], IsPart part := by
    intro part hpart
    rcases List.mem_append.mp hpart with hpart | hpart
    · exact hdirs part hpart
    · exact List.mem_singleton.mp hpart ▸ hleaf
  rw [binderModule_intercalate (fun dir hdir => (hdirs dir hdir).nonempty) hpackage,
    modulePath_source hparts, (isUnitPath_source hparts).extend root]
  simp [Path.parent, ← List.append_assoc]

/-- The package of the module in a source file: its directories, whether the file is the package's
own or not. -/
theorem package_source (h : ∀ part ∈ dirs ++ [stem], IsPart part) :
    (if (stem ++ ".py" = packageFile : Bool) then moduleNameOf ⟨"", dirs ++ [stem ++ ".py"]⟩
      else packageOf (moduleNameOf ⟨"", dirs ++ [stem ++ ".py"]⟩)) = ".".intercalate dirs := by
  have hstem := h stem (by simp)
  have hfile : stem ++ ".py" = packageFile ↔ stem = "__init__" := by
    have hpackage : packageFile = "__init__" ++ ".py" := rfl
    rw [hpackage, String.append_left_inj]
  have hdecide : decide (stem ++ ".py" = packageFile) = decide (stem = "__init__") :=
    decide_eq_decide.mpr hfile
  rw [moduleNameOf_source dirs hstem.nonempty, hdecide]
  by_cases hinit : stem = "__init__"
  · simp [hinit]
  · simp only [hinit, decide_false, Bool.false_eq_true, if_false]
    exact packageOf_intercalate hstem.dotless

end

namespace Request
variable {request : Request} {tree : FileTree} {files : List SourceFile} {file : SourceFile}

theorem scanFile_isPackage : ∀ declared ∈ (request.scanFile tree file).classes,
    declared.owner.isPackage = file.isPackage := by
  have hscan {source : Source} {classes : List DeclaredClass}
      (h : source.scan file.moduleName request.profile file.isPackage = .ok classes) :
      ∀ declared ∈ classes, declared.owner.isPackage = file.isPackage := by
    unfold Source.scan at h
    split at h
    · obtain rfl := Except.ok.inj h
      intro declared hdeclared
      obtain ⟨statement, -, rfl⟩ := List.mem_map.mp hdeclared
      rw [ScanContext.declared_owner]
    · simp at h
  unfold scanFile
  dsimp only
  split
  · simp
  · split
    · rename_i hclasses _
      exact hscan hclasses
    · simp
    · rename_i hclasses _
      exact hscan hclasses

theorem discovered_source {dirs : List String} {leaf : String}
    (hdiscover : discover tree request.sourceRoot request.exclude = .ok files)
    (hfile : file ∈ files)
    (hpath : file.path = request.sourceRoot ++ (⟨"", dirs ++ [leaf]⟩ : Path)) :
    file.moduleName = moduleNameOf ⟨"", dirs ++ [leaf]⟩ ∧
      file.isPackage = decide (leaf = packageFile) := by
  obtain ⟨-, rfl⟩ := discover_eq_ok_iff.mp hdiscover
  obtain ⟨⟨root, parts⟩, hselected, hof⟩ := List.mem_filterMap.mp hfile
  obtain ⟨_, -, -, hrelative, -⟩ := FileTree.mem_below.mp (List.mem_filter.mp hselected).1
  simp only at hrelative
  subst hrelative
  unfold sourceFile? at hof
  split at hof
  · simp at hof
  · obtain rfl := Option.some.inj hof
    have hparts : parts = dirs ++ [leaf] :=
      List.append_cancel_left (congrArg Path.parts hpath)
    subst hparts
    exact ⟨rfl, by simp [Path.name]⟩

/-- The unit of an owner and the file in which the owner was found stand in one directory. -/
theorem unit_beside_owner (hdot : '.' ∉ request.profile.moduleSuffix.toList)
    (hslash : '/' ∉ request.profile.moduleSuffix.toList)
    (hdiscover : discover tree request.sourceRoot request.exclude = .ok files)
    (hfile : file ∈ files)
    {dirs : List String} {stem : String} (hparts : ∀ part ∈ dirs ++ [stem], IsPart part)
    (hpath : file.path = request.sourceRoot ++ (⟨"", dirs ++ [stem ++ ".py"]⟩ : Path)) :
    ∀ declared ∈ (request.scanFile tree file).classes, ∀ root : Path,
      (root.extend (declared.spec request.profile).unitPath).parent =
        (root ++ (⟨"", dirs ++ [stem ++ ".py"]⟩ : Path)).parent := by
  intro declared hdeclared root
  obtain ⟨hname, hpackage⟩ := discovered_source hdiscover hfile hpath
  obtain ⟨hnamed, hmodule⟩ := scanFile_classes declared hdeclared
  have hnonempty : declared.owner.name ≠ "" := by
    obtain ⟨first, rest, htext, -⟩ := hnamed.owner.start
    intro hempty
    simp [hempty] at htext
  have hleaf : IsPart (snakeCase declared.owner.name ++ request.profile.moduleSuffix) := by
    refine ⟨by simp [snakeCase_ne_empty hnonempty], ?_, ?_⟩
    · rw [String.toList_append, List.mem_append, not_or]
      exact ⟨not_mem_snakeCase (by decide) (by decide) (hnamed.owner.not_mem (by decide)), hdot⟩
    · rw [String.toList_append, List.mem_append, not_or]
      exact ⟨not_mem_snakeCase (by decide) (by decide) (hnamed.owner.not_mem (by decide)), hslash⟩
  have hdirectory : (if declared.owner.isPackage then declared.owner.moduleName
      else packageOf declared.owner.moduleName) = ".".intercalate dirs := by
    rw [scanFile_isPackage declared hdeclared, hmodule, hname, hpackage]
    exact package_source hparts
  have hparent :=
    parent_of_binder (fun dir hdir => hparts dir (by simp [hdir])) hdirectory hleaf root
  refine hparent.trans ?_
  change _ = Path.parent ⟨root.root, root.parts ++ (dirs ++ [stem ++ ".py"])⟩
  simp [Path.parent, ← List.append_assoc]

end Request

/-- Below every root, the path of a module's file gives the module's name, and the name of a module
gives the path of its file. The unit of an owner stands in the directory of the file in which the
owner was found, whether that is the file of a module or of a package. -/
theorem moduleNames_give_paths :
    (∀ (root : Path) (parts : List String) (hne : parts ≠ []), (∀ part ∈ parts, IsPart part) →
      parts.getLast hne ≠ "__init__" →
      moduleName (root.extend (modulePath (".".intercalate parts))) root =
        .ok (".".intercalate parts)) ∧
    (∀ (root : Path) (dirs : List String) (stem : String),
      (∀ part ∈ dirs ++ [stem], IsPart part) → stem ≠ "__init__" → ∃ name,
      moduleName (root.extend ("/".intercalate (dirs ++ [stem ++ ".py"]))) root = .ok name ∧
        modulePath name = "/".intercalate (dirs ++ [stem ++ ".py"])) ∧
    (∀ (request : Request) (tree : FileTree) (files : List SourceFile),
      '.' ∉ request.profile.moduleSuffix.toList → '/' ∉ request.profile.moduleSuffix.toList →
      discover tree request.sourceRoot request.exclude = .ok files →
      ∀ file ∈ files, ∀ (dirs : List String) (stem : String),
      (∀ part ∈ dirs ++ [stem], IsPart part) →
      file.path = request.sourceRoot ++ (⟨"", dirs ++ [stem ++ ".py"]⟩ : Path) →
      ∀ declared ∈ (request.scanFile tree file).classes, ∀ root : Path,
        (root.extend (declared.spec request.profile).unitPath).parent =
          (root ++ (⟨"", dirs ++ [stem ++ ".py"]⟩ : Path)).parent) := by
  refine ⟨fun root parts hne hparts hlast => ?_, fun root dirs stem hparts hstem => ?_, ?_⟩
  · obtain ⟨dirs, stem, rfl⟩ : ∃ dirs stem, parts = dirs ++ [stem] :=
      ⟨_, _, (List.dropLast_append_getLast hne).symm⟩
    rw [List.getLast_append_singleton] at hlast
    rw [modulePath_source hparts, moduleName_source root hparts hlast]
  · exact ⟨_, moduleName_source root hparts hstem, modulePath_source hparts⟩
  · intro request tree files hdot hslash hdiscover file hfile dirs stem hparts hpath
    exact request.unit_beside_owner hdot hslash hdiscover hfile hparts hpath

/-- A tree with an owner in the file of a package. -/
def FileTree.packaged : FileTree := ⟨[(["src"], .directory), (["src", "app"], .directory),
  (["src", "app", "__init__.py"], .file (encode "class Home:\n    f = bind_view(1)\n"))]⟩

private def packaged : Request where
  sourceRoot := ⟨"", ["src"]⟩

private def packagedFile : SourceFile := ⟨⟨"", ["src", "app", "__init__.py"]⟩, "app", true⟩

private theorem discover_packaged :
    discover .packaged packaged.sourceRoot packaged.exclude = .ok [packagedFile] := by
  have hbelow : FileTree.packaged.below packaged.sourceRoot ".py" =
      [⟨"", ["app", "__init__.py"]⟩].mergeSort Path.le := rfl
  rw [discover, candidateFiles_of_below hbelow (by decide)]
  rfl

private theorem packaged_owners :
    (packaged.scanFile .packaged packagedFile).classes.map (·.owner) = [⟨"app", "Home", true⟩] := by
  decide +kernel

theorem moduleNames_give_paths_package :
    moduleName (Path.extend ⟨"/", ["src"]⟩ (modulePath (".".intercalate ["app", "main"])))
      ⟨"/", ["src"]⟩ = .ok "app.main" ∧
    (∃ name, moduleName (Path.extend ⟨"/", ["src"]⟩ ("/".intercalate ["app", "main.py"]))
      ⟨"/", ["src"]⟩ = .ok name ∧ modulePath name = "/".intercalate ["app", "main.py"]) ∧
    ∃ declared ∈ (packaged.scanFile .packaged packagedFile).classes,
      declared.owner = ⟨"app", "Home", true⟩ ∧
      (Path.extend ⟨"", ["src"]⟩ (declared.spec .standard).unitPath).parent =
        ⟨"", ["src", "app"]⟩ := by
  obtain ⟨hname, hpath, hunit⟩ := moduleNames_give_paths
  refine ⟨hname ⟨"/", ["src"]⟩ ["app", "main"] (by decide) (by decide) (by decide),
    hpath ⟨"/", ["src"]⟩ ["app"] "main" (by decide) (by decide), ?_⟩
  have hmem : (⟨"app", "Home", true⟩ : Owner) ∈
      (packaged.scanFile .packaged packagedFile).classes.map (·.owner) := by
    rw [packaged_owners]
    exact List.mem_singleton_self _
  obtain ⟨declared, hdeclared, howner⟩ := List.mem_map.mp hmem
  exact ⟨declared, hdeclared, howner, hunit packaged .packaged [packagedFile]
    (by decide) (by decide)
    discover_packaged packagedFile (List.mem_singleton_self _) ["app"] "__init__" (by decide) rfl
    declared hdeclared ⟨"", ["src"]⟩⟩

end ElementBinding
