import ElementBinding.Pass
import ElementBinding.Proofs.Action
import ElementBinding.Proofs.FileTree.Below
import ElementBinding.Proofs.Naming
import ElementBinding.Proofs.Scan
import ElementBinding.Proofs.Text.Lines

/-!
# Modules that are discovered

Discovery reads the candidates below the source root and keeps those that were not generated. The
names of modules and of what they declare hold no character that neither the places of the tree nor
names hold, so units have paths of names, and their texts have no carriage return unless the tree
has one in a name.
-/
namespace ElementBinding
open ElementBinding.Naming ElementBinding.Grammar

/-- A relative path at which discovery looks for a module. -/
def isCandidate (exclude : List String) (path : Path) : Bool :=
  !path.parts.dropLast.any isIgnoredByDiscovery && !isExcluded exclude path

def isGeneratedAt (tree : FileTree) (root path : Path) : Bool :=
  (tree.read (root ++ path)).toOption.any fun octets => isGenerated (readFirstLine octets)

def sourceFile? (root path : Path) : Option SourceFile :=
  if moduleNameOf path = "" then none
  else some ⟨root ++ path, moduleNameOf path, path.name = packageFile⟩

variable {tree : FileTree} {root : Path} {exclude : List String} {files : List SourceFile}

theorem candidateFiles_of_below {paths : List Path}
    (hbelow : tree.below root ".py" = paths.mergeSort Path.le)
    (hsorted : paths.Pairwise fun first second => Path.le first second) :
    candidateFiles tree root =
      paths.filter fun path => !path.parts.dropLast.any isIgnoredByDiscovery := by
  rw [candidateFiles, hbelow, List.mergeSort_of_pairwise hsorted]

private theorem selected_eq (tree : FileTree) (root : Path) (exclude : List String) :
    ((candidateFiles tree root).filter fun path => !isExcluded exclude path) =
      (tree.below root ".py").filter (isCandidate exclude) := by
  rw [candidateFiles, List.filter_filter]
  refine List.filter_congr fun path _ => ?_
  rw [isCandidate, Bool.and_comm]

/-- What discovery gives: the candidates that were not generated, all of which can be read. -/
theorem discover_eq_ok_iff : discover tree root exclude = .ok files ↔
    (∀ path ∈ tree.below root ".py", isCandidate exclude path →
      ∃ octets, tree.read (root ++ path) = .ok octets) ∧
    files = ((tree.below root ".py").filter fun path =>
      !isGeneratedAt tree root path && isCandidate exclude path).filterMap (sourceFile? root) := by
  have hreadable : (∀ path ∈ (tree.below root ".py").filter (isCandidate exclude),
      ∃ octets, tree.read (root ++ path) = .ok octets) ↔
      ∀ path ∈ tree.below root ".py", isCandidate exclude path →
        ∃ octets, tree.read (root ++ path) = .ok octets := by
    simp only [List.mem_filter, and_imp]
  unfold discover
  simp only [selected_eq]
  rw [← hreadable]
  cases hfilter : ((tree.below root ".py").filter (isCandidate exclude)).filterM fun path => do
      let octets ← tree.read (root ++ path)
      return !isGenerated (readFirstLine octets) with
  | error fault =>
    simp only [Bind.bind, Except.bind, reduceCtorEq, false_iff, not_and]
    intro hall
    -- Were all candidates readable, the filter would not have failed.
    have hok : (((tree.below root ".py").filter (isCandidate exclude)).filterM fun path => do
        let octets ← tree.read (root ++ path)
        return !isGenerated (readFirstLine octets)) = .ok _ :=
      filterM_read_eq_ok_iff.mpr ⟨hall, rfl⟩
    rw [hfilter] at hok
    simp at hok
  | ok chosen =>
    obtain ⟨hall, hfound⟩ := filterM_read_eq_ok_iff.mp hfilter
    have hchosen : chosen = (tree.below root ".py").filter fun path =>
        !isGeneratedAt tree root path && isCandidate exclude path := by
      rw [hfound, ← List.filter_filter]
      refine List.filter_congr fun path hpath => ?_
      obtain ⟨octets, hread⟩ := hall path hpath
      simp [isGeneratedAt, hread, Except.toOption]
    subst hchosen
    exact ⟨fun h => ⟨hall, (Except.ok.inj h).symm⟩, fun h => congrArg Except.ok h.2.symm⟩

/-- The generated units below a root, if all that may be one can be read. -/
theorem generatedBelow_eq_ok_iff {generated : List Path} :
    generatedBelow tree root = .ok generated ↔
    (∀ path ∈ tree.below root ".py", !path.parts.dropLast.any isIgnoredBySink →
      ∃ octets, tree.read (root ++ path) = .ok octets) ∧
    generated = (tree.below root ".py").filter fun path =>
      isGeneratedAt tree root path && !path.parts.dropLast.any isIgnoredBySink := by
  unfold generatedBelow
  rw [filterM_read_eq_ok_iff, ← List.filter_filter]
  simp only [List.mem_filter, and_imp]
  rfl

theorem mem_discover (h : discover tree root exclude = .ok files) {file : SourceFile}
    (hfile : file ∈ files) :
    ∃ path ∈ tree.below root ".py", isCandidate exclude path ∧ !isGeneratedAt tree root path ∧
      file.path = root ++ path ∧ file.moduleName = moduleNameOf path := by
  obtain ⟨-, rfl⟩ := discover_eq_ok_iff.mp h
  obtain ⟨path, hpath, hof⟩ := List.mem_filterMap.mp hfile
  obtain ⟨hbelow, hselected⟩ := List.mem_filter.mp hpath
  rw [Bool.and_eq_true] at hselected
  unfold sourceFile? at hof
  split at hof
  · simp at hof
  · obtain rfl := Option.some.inj hof
    exact ⟨path, hbelow, hselected.2, hselected.1, rfl, rfl⟩

private theorem not_mem_stem {name : String} {c : Char} (h : c ∉ name.toList) :
    c ∉ (Path.stem name).toList := by
  unfold Path.stem
  dsimp only
  split
  · rename_i before hrest
    split
    · rw [String.toList_ofList, List.mem_reverse]
      intro hmem
      have hdrop : c ∈ name.toList.reverse.drop
          (name.toList.reverse.takeWhile (· ≠ '.')).length := by
        rw [hrest]
        exact List.mem_cons_of_mem _ hmem
      exact h (List.mem_reverse.mp (List.mem_of_mem_drop hdrop))
    · exact h
  · exact h

theorem not_mem_moduleNameOf {path : Path} {c : Char} (hdot : c ≠ '.')
    (hparts : ∀ name ∈ path.parts, c ∉ name.toList) : c ∉ (moduleNameOf path).toList := by
  have hname : c ∉ path.name.toList := by
    unfold Path.name
    cases hlast : path.parts.getLast? with
    | none => simp
    | some name => exact hparts name (List.mem_of_getLast? hlast)
  unfold moduleNameOf
  rw [String.toList_intercalate]
  refine Text.not_mem_intercalate hdot fun part hpart => ?_
  obtain ⟨name, hmem, rfl⟩ := List.mem_map.mp hpart
  rcases List.mem_append.mp hmem with hmem | hmem
  · exact hparts name (List.dropLast_subset _ hmem)
  · split at hmem
    · simp at hmem
    · rw [List.mem_singleton.mp hmem]
      exact not_mem_stem hname

end ElementBinding
