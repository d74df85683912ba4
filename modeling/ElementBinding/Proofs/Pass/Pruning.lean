import ElementBinding.Proofs.FileTree.Contents
import ElementBinding.Proofs.Pass.Target

/-!
# What is left to prune

Pruning looks at generated units that nobody claims. Whatever was written or deleted since is
claimed or gone, so the trees before and after leave the same units to prune.
-/
namespace ElementBinding
open ElementBinding.Text

variable {root : Path} {tree before after : FileTree} {path : Path}

theorem isGeneratedAt_eq {place : Location} (h : tree.locate (root ++ path) = .ok place) :
    isGeneratedAt tree root path =
      (tree.content? place).any fun octets => isGenerated (decodeTolerant octets) := by
  unfold isGeneratedAt FileTree.read FileTree.content?
  rw [h]
  rcases hplace : tree.lookup place with _ | _ | octets <;>
    simp [Except.toOption, hplace, isGenerated_readFirstLine]

theorem Ready.mem_below {ending : String} (h : Ready root tree) :
    path ∈ tree.below root ending ↔ root.root = "" ∧ path.root = "" ∧ path.parts ≠ [] ∧
      tree.lookup (root.place ++ path.parts) ≠ none ∧ ending.toList <:+ path.name.toList := by
  rw [FileTree.mem_below]
  constructor
  · rintro ⟨place, hlocate, -, hpath⟩
    obtain ⟨rfl, hroot⟩ := FileTree.place_of_locate hlocate
    exact ⟨hroot, hpath⟩
  · rintro ⟨hroot, hrelative, hparts, hplace, hending⟩
    have hdir := h.nested.directory_above hparts hplace
    exact ⟨root.place, h.grounded.locate h.nested hroot (by rw [hdir]; simp), hdir, hrelative,
      hparts, hplace, hending⟩

private theorem locate_of_mem_below {ending : String}
    (hpath : path ∈ tree.below root ending) : tree.locate root = .ok root.place := by
  obtain ⟨place, hlocate, -⟩ := FileTree.mem_below.mp hpath
  rw [hlocate, (FileTree.place_of_locate hlocate).1]

theorem sourcePlace_below (hparts : path.parts ≠ [])
    (hending : ".py".toList <:+ path.name.toList) :
    SourcePlace root (root.place ++ path.parts) := by
  refine ⟨path.parts.dropLast, path.name, ?_, hending⟩
  rw [Path.name, List.getLast?_eq_some_getLast hparts, Option.getD_some,
    List.dropLast_append_getLast hparts]

/-- The unit of a handed-over path is the only one at its place. -/
theorem IsUnitPath.text_of_place {unitPath leaf : String} {dirs : List String}
    (h : IsUnitPath unitPath dirs leaf) (hrelative : path.root = "")
    (hplace : root.place ++ path.parts = (root.extend unitPath).place) : path.text = unitPath := by
  obtain ⟨_, parts⟩ := path
  simp only at hrelative
  subst hrelative
  simp only [h.place_eq root] at hplace
  rw [← h.text_eq, List.append_cancel_left hplace]

theorem IsUnitPath.eq_of_place {unitPath leaf other leaf' : String} {dirs dirs' : List String}
    (h : IsUnitPath unitPath dirs leaf) (h' : IsUnitPath other dirs' leaf')
    (hplace : (root.extend unitPath).place = (root.extend other).place) : unitPath = other := by
  have htext : (⟨"", dirs ++ [leaf]⟩ : Path).text = other :=
    h'.text_of_place rfl ((h.place_eq root).symm.trans hplace)
  rw [← htext, h.text_eq]

private theorem isGeneratedAt_congr {ending : String} (h : Ready root before)
    (h' : Ready root after) (hpath : path ∈ before.below root ending)
    (hpath' : path ∈ after.below root ending)
    (hsame : after.lookup (root.place ++ path.parts) = before.lookup (root.place ++ path.parts)) :
    isGeneratedAt after root path = isGeneratedAt before root path := by
  rw [isGeneratedAt_eq (h.nested.locate_below (locate_of_mem_below hpath) hpath),
    isGeneratedAt_eq (h'.nested.locate_below (locate_of_mem_below hpath') hpath'),
    FileTree.content?_congr hsame]

/-- The units left to prune are the same before emissions and after them. -/
theorem generatedBelow_before {seen : List String} {touched : Location → Prop}
    {generated : List Path} (h : Ready root before) (h' : Ready root after)
    (hreworked : Reworked root touched before after)
    (htouched : ∀ place, touched place → ∃ unitPath dirs leaf, IsUnitPath unitPath dirs leaf ∧
      unitPath ∈ seen ∧ place = (root.extend unitPath).place)
    (hfound : generatedBelow after root = .ok generated) (keep : List String) :
    ∃ found, generatedBelow before root = .ok found ∧
      unclaimed seen keep found = unclaimed seen keep generated := by
  obtain ⟨hreadable, rfl⟩ := generatedBelow_eq_ok_iff.mp hfound
  refine ⟨_, generatedBelow_eq_ok_iff.mpr ⟨fun path hpath hignored => ?_, rfl⟩, ?_⟩
  · rw [h.nested.read_below (locate_of_mem_below hpath) hpath]
    obtain ⟨hroot, hrelative, hparts, hplace, hending⟩ := h.mem_below.mp hpath
    rcases hreworked (root.place ++ path.parts) with heq | ⟨hnone, -⟩ | ⟨-, -, hfile, -⟩
    · have hpath' : path ∈ after.below root ".py" :=
        h'.mem_below.mpr ⟨hroot, hrelative, hparts, heq ▸ hplace, hending⟩
      rw [← heq, ← h'.nested.read_below (locate_of_mem_below hpath') hpath']
      exact hreadable path hpath' hignored
    · exact absurd hnone hplace
    · exact hfile.not_directory
  · unfold unclaimed
    -- What emissions touch was handed over, and so is claimed before and after.
    have hsame {path : Path} (hrelative : path.root = "") (hparts : path.parts ≠ [])
        (hending : ".py".toList <:+ path.name.toList) (hseen : path.text ∉ seen) :
        after.lookup (root.place ++ path.parts) = before.lookup (root.place ++ path.parts) := by
      refine hreworked.lookup_eq (sourcePlace_below hparts hending) fun hplace => ?_
      obtain ⟨unitPath, dirs, leaf, hunit, hmem, hplace⟩ := htouched _ hplace
      rw [hunit.text_of_place hrelative hplace] at hseen
      exact hseen hmem
    rw [List.filter_filter, List.filter_filter]
    refine FileTree.below_filter_congr h.nested h'.nested fun path => ?_
    by_cases hseen : path.text ∈ seen
    · simp [hseen]
    · have hbelow : path ∈ before.below root ".py" ↔ path ∈ after.below root ".py" := by
        rw [h.mem_below, h'.mem_below]
        refine and_congr_right fun _ => and_congr_right fun hrelative =>
          and_congr_right fun hparts => and_congr_left fun hending => ?_
        rw [hsame hrelative hparts hending hseen]
      rw [hbelow]
      refine and_congr_right fun hpath' => ?_
      have hpath := hbelow.mpr hpath'
      obtain ⟨-, hrelative, hparts, -, hending⟩ := h.mem_below.mp hpath
      rw [isGeneratedAt_congr h h' hpath hpath' (hsame hrelative hparts hending hseen)]

theorem mem_unclaimed {seen keep : List String} {generated : List Path}
    (h : generatedBelow tree root = .ok generated) :
    path ∈ unclaimed seen keep generated ↔ path ∈ tree.below root ".py" ∧ path.text ∉ seen ∧
      path.text ∉ keep ∧ isGeneratedAt tree root path ∧
      !path.parts.dropLast.any isIgnoredBySink := by
  obtain ⟨-, rfl⟩ := generatedBelow_eq_ok_iff.mp h
  simp [unclaimed, List.mem_filter, and_assoc]

theorem deleted_of_applied {seen keep : List String} {generated : List Path} {next : FileTree}
    (hnested : tree.Nested) (happlied : tree.applyAll ((unclaimed seen keep generated).map
      fun path => .delete (root ++ path)) = (next, none)) :
    next.Nested ∧ FileTree.Deleted tree next ((unclaimed seen keep generated).map (root ++ ·)) := by
  refine hnested.deleteAll ?_
  rw [List.map_map]
  exact happlied

/-- The place of a generated unit that was not handed over. -/
def PrunedPlace (root : Path) (seen : List String) (place : Location) : Prop :=
  ∃ path : Path, path.root = "" ∧ path.text ∉ seen ∧ place = root.place ++ path.parts

section

variable {enabled : Bool} {seen keep pruned stale : List String} {next : FileTree}

theorem Prunes.reworked (h : Prunes false root enabled seen keep tree pruned next stale)
    (hready : Ready root tree) :
    Ready root next ∧ stale = [] ∧ Reworked root (PrunedPlace root seen) tree next := by
  cases h with
  | skipped => exact ⟨hready, rfl, .refl _ _ _⟩
  | checked _ check => simp at check
  | deleted _ _ found applied =>
    obtain ⟨hnext, hdeleted⟩ := deleted_of_applied hready.nested applied
    refine ⟨hready.keeps hnext hdeleted.keeps, rfl, fun place => ?_⟩
    rcases hdeleted.others place with heq | ⟨hnone, _, hmem, hlocate⟩
    · exact .inl heq
    · obtain ⟨path, hunclaimed, rfl⟩ := List.mem_map.mp hmem
      obtain ⟨hpath, hseen, -, hmark, -⟩ := (mem_unclaimed found).mp hunclaimed
      obtain ⟨-, hrelative, hparts, -, hending⟩ := hready.mem_below.mp hpath
      have hplace := hready.nested.locate_below (locate_of_mem_below hpath) hpath
      rw [isGeneratedAt_eq hplace] at hmark
      obtain rfl := Except.ok.inj (hlocate.symm.trans hplace)
      refine .inr (.inr ⟨⟨path, hrelative, hseen, rfl⟩, sourcePlace_below hparts hending,
        fun entry hentry => ?_, fun entry hentry => by simp [hnone] at hentry⟩)
      obtain ⟨content, hcontent, hgenerated⟩ := (Option.any_eq_true _ _).mp hmark
      rw [FileTree.content?_eq_some_iff, hentry, Option.some.injEq] at hcontent
      exact ⟨content, hcontent, hgenerated⟩

/-- Nothing is left to prune on a tree that was pruned. -/
theorem Prunes.again (h : Prunes false root enabled seen keep tree pruned next stale)
    (hready : Ready root tree) : Prunes false root enabled seen keep next [] next [] := by
  obtain ⟨hnext, -, -⟩ := h.reworked hready
  cases h with
  | skipped disabled => exact .skipped disabled
  | checked _ check => simp at check
  | @deleted generated _ on real found applied =>
    obtain ⟨-, hdeleted⟩ := deleted_of_applied hready.nested applied
    have hstood {path : Path} (hpath : path ∈ next.below root ".py") :
        path ∈ tree.below root ".py" ∧
          next.lookup (root.place ++ path.parts) = tree.lookup (root.place ++ path.parts) := by
      obtain ⟨hroot, hrelative, hparts, hplace, hending⟩ := hnext.mem_below.mp hpath
      rcases hdeleted.others (root.place ++ path.parts) with heq | ⟨hnone, -⟩
      · exact ⟨hready.mem_below.mpr ⟨hroot, hrelative, hparts, heq ▸ hplace, hending⟩, heq⟩
      · exact absurd hnone hplace
    obtain ⟨more, hmore⟩ : ∃ more, generatedBelow next root = .ok more := by
      refine ⟨_, generatedBelow_eq_ok_iff.mpr ⟨fun path hpath hignored => ?_, rfl⟩⟩
      obtain ⟨hpath', hsame⟩ := hstood hpath
      rw [hnext.nested.read_below (locate_of_mem_below hpath) hpath, hsame,
        ← hready.nested.read_below (locate_of_mem_below hpath') hpath']
      exact (generatedBelow_eq_ok_iff.mp found).1 path hpath' hignored
    -- A unit that is still to be pruned was so before, and would have gone.
    have hnone : unclaimed seen keep more = [] := by
      rw [List.eq_nil_iff_forall_not_mem]
      intro path hunclaimed
      obtain ⟨hpath, hseen, hkeep, hmark, hignored⟩ := (mem_unclaimed hmore).mp hunclaimed
      obtain ⟨hpath', hsame⟩ := hstood hpath
      rw [isGeneratedAt_congr hready hnext hpath' hpath hsame] at hmark
      have hdoomed := (mem_unclaimed found).mpr ⟨hpath', hseen, hkeep, hmark, hignored⟩
      obtain ⟨place, -, hlocate, -, hgone⟩ := hdeleted.files _ (List.mem_map_of_mem hdoomed)
      have hplace := hready.nested.locate_below (locate_of_mem_below hpath') hpath'
      obtain rfl := Except.ok.inj (hlocate.symm.trans hplace)
      obtain ⟨-, -, -, hstands, -⟩ := hnext.mem_below.mp hpath
      exact hstands hgone
    have hskipped : next.applyAll ((unclaimed seen keep more).map fun path =>
        .delete (root ++ path)) = (next, none) := by
      rw [hnone]
      rfl
    have hagain := Prunes.deleted on real hmore hskipped
    rwa [hnone] at hagain

end

end ElementBinding
