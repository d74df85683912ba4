import ElementBinding.Proofs.FileTree.Places

/-!
# What is found below a directory

The paths found below a directory are those of the entries there, each once and in order. So two
searches of different trees agree as lists if they find the same paths.
-/
namespace ElementBinding

namespace Path

theorem le_trans {a b c : Path} (h : a.le b) (h' : b.le c) : a.le c := by
  simp only [le, Bool.not_eq_true', decide_eq_false_iff_not, not_lt] at *
  exact h.trans h'

theorem le_or_le (a b : Path) : a.le b || b.le a := by
  simp only [le, Bool.or_eq_true, Bool.not_eq_true', decide_eq_false_iff_not, not_lt]
  exact le_total _ _

theorem eq_of_le {a b : Path} (ha : a.root = "") (hb : b.root = "") (h : a.le b)
    (h' : b.le a) : a = b := by
  obtain ⟨root, parts⟩ := a
  obtain ⟨root', parts'⟩ := b
  simp only at ha hb
  subst ha hb
  simp only [le, sortKey, if_true, Bool.not_eq_true', decide_eq_false_iff_not, not_lt] at h h'
  rw [le_antisymm h h']

end Path

namespace FileTree
variable {tree : FileTree} {root path : Path} {ending : String}

private def pathBelow? (location : Location) (ending : String) (place : Location) : Option Path :=
  if location.isPrefixOf place && location.length < place.length then
    let path : Path := { parts := place.drop location.length }
    if ending.toList.isSuffixOf path.name.toList then some path else none
  else none

private theorem pathBelow?_eq_some {location place : Location} :
    pathBelow? location ending place = some path ↔
      path.root = "" ∧ path.parts ≠ [] ∧ place = location ++ path.parts ∧
        ending.toList <:+ path.name.toList := by
  unfold pathBelow?
  constructor
  · intro h
    split at h
    · rename_i hbelow
      simp only [Bool.and_eq_true, List.isPrefixOf_iff_prefix, decide_eq_true_eq] at hbelow
      obtain ⟨⟨names, rfl⟩, hlength⟩ := hbelow
      dsimp only at h
      split at h
      · rename_i hending
        obtain rfl := Option.some.inj h
        have hnames : names ≠ [] := by
          rintro rfl
          simp at hlength
        rw [List.drop_left] at hending ⊢
        exact ⟨rfl, hnames, rfl, List.isSuffixOf_iff_suffix.mp hending⟩
      · simp at h
    · simp at h
  · rintro ⟨hroot, hparts, rfl, hending⟩
    obtain ⟨_, names⟩ := path
    simp only at hroot hparts
    subst hroot
    have hlength : 0 < names.length := List.length_pos_iff.mpr hparts
    simp [hlength, List.isSuffixOf_iff_suffix.mpr hending]

private theorem below_eq (tree : FileTree) (root : Path) (ending : String) :
    tree.below root ending =
      match tree.locate root with
      | .error _ => []
      | .ok location =>
        if tree.lookup location = some .directory then
          ((tree.entries.map (·.1)).filterMap (pathBelow? location ending)).mergeSort Path.le
        else [] := by
  unfold below
  cases tree.locate root with
  | error condition => rfl
  | ok location =>
    simp only [List.filterMap_map]
    rfl

/-- What is found below a directory: the entries there whose names have the ending. -/
theorem mem_below : path ∈ tree.below root ending ↔
    ∃ place, tree.locate root = .ok place ∧ tree.lookup place = some .directory ∧
      path.root = "" ∧ path.parts ≠ [] ∧ tree.lookup (place ++ path.parts) ≠ none ∧
      ending.toList <:+ path.name.toList := by
  rw [below_eq]
  cases hlocate : tree.locate root with
  | error condition => simp
  | ok location =>
    simp only [Except.ok.injEq, exists_eq_left']
    by_cases hdir : tree.lookup location = some .directory
    · simp only [hdir, if_true, List.mem_mergeSort, List.mem_filterMap,
        pathBelow?_eq_some, true_and]
      constructor
      · rintro ⟨place, hplace, hroot, hparts, rfl, hending⟩
        exact ⟨hroot, hparts, (mem_places_iff tree (by simp [hparts])).mp hplace, hending⟩
      · rintro ⟨hroot, hparts, hplace, hending⟩
        exact ⟨_, (mem_places_iff tree (by simp [hparts])).mpr hplace, hroot, hparts, rfl, hending⟩
    · simp [hdir]

theorem Nested.mem_below_of_locate (h : tree.Nested) {base : Location}
    (hbase : tree.locate root = .ok base) : path ∈ tree.below root ending ↔
      path.root = "" ∧ path.parts ≠ [] ∧ tree.lookup (base ++ path.parts) ≠ none ∧
        ending.toList <:+ path.name.toList := by
  rw [mem_below]
  constructor
  · rintro ⟨place, hlocate, -, hpath⟩
    obtain rfl := Except.ok.inj (hbase.symm.trans hlocate)
    exact hpath
  · rintro ⟨hrelative, hparts, hplace, hending⟩
    exact ⟨base, hbase, h.directory_above hparts hplace, hrelative, hparts, hplace, hending⟩

theorem below_eq_nil (h : ∀ base, tree.locate root ≠ .ok base) : tree.below root ending = [] := by
  rw [List.eq_nil_iff_forall_not_mem]
  intro path hpath
  obtain ⟨base, hbase, -⟩ := mem_below.mp hpath
  exact h base hbase

theorem Nested.locate_below (h : tree.Nested) {base : Location}
    (hbase : tree.locate root = .ok base)
    (hpath : path ∈ tree.below root ending) :
    tree.locate (root ++ path) = .ok (base ++ path.parts) := by
  obtain ⟨place, hlocate, -, hrelative, -, hplace, -⟩ := mem_below.mp hpath
  obtain rfl := Except.ok.inj (hbase.symm.trans hlocate)
  have hroot := (place_of_locate hbase).2
  have hjoined : root ++ path = ⟨root.root, root.parts ++ path.parts⟩ := if_pos hrelative
  rw [locate_relative tree hroot] at hbase
  rw [hjoined, locate, if_pos hroot, follow_append, hbase]
  exact h.follow_names hplace

theorem Nested.read_below (h : tree.Nested) {base : Location} (hbase : tree.locate root = .ok base)
    (hpath : path ∈ tree.below root ending) :
    (∃ octets, tree.read (root ++ path) = .ok octets) ↔
      tree.lookup (base ++ path.parts) ≠ some .directory := by
  obtain ⟨place, hlocate, -, -, -, hplace, -⟩ := mem_below.mp hpath
  obtain rfl := Except.ok.inj (hbase.symm.trans hlocate)
  unfold read
  rw [h.locate_below hbase hpath]
  rcases hfound : tree.lookup (base ++ path.parts) with _ | _ | octets
  · exact absurd hfound hplace
  · simp [hfound]
  · simp [hfound]

theorem below_sorted (tree : FileTree) (root : Path) (ending : String) :
    (tree.below root ending).Pairwise fun a b => a.le b := by
  rw [below_eq]
  split
  · exact .nil
  · split
    · refine List.pairwise_mergeSort ?_ ?_ _
      · exact fun _ _ _ => Path.le_trans
      · exact Path.le_or_le
    · exact .nil

theorem Nested.below_nodup (h : tree.Nested) (root : Path) (ending : String) :
    (tree.below root ending).Nodup := by
  rw [below_eq]
  split
  · exact .nil
  · split
    · rw [(List.mergeSort_perm _ _).nodup_iff]
      refine h.distinct.filterMap fun first second path hfirst hsecond => ?_
      rw [Option.mem_def, pathBelow?_eq_some] at hfirst hsecond
      rw [hfirst.2.2.1, hsecond.2.2.1]
    · exact .nil

/-- Two selections of what is found agree if they select the same paths. -/
theorem below_filter_congr {before after : FileTree} (h : before.Nested) (h' : after.Nested)
    {p q : Path → Bool}
    (hsame : ∀ path, (path ∈ before.below root ending ∧ p path) ↔
      (path ∈ after.below root ending ∧ q path)) :
    (before.below root ending).filter p = (after.below root ending).filter q := by
  have hperm : ((before.below root ending).filter p).Perm ((after.below root ending).filter q) := by
    rw [List.perm_ext_iff_of_nodup ((h.below_nodup _ _).filter _) ((h'.below_nodup _ _).filter _)]
    intro path
    rw [List.mem_filter, List.mem_filter]
    exact hsame path
  refine hperm.eq_of_pairwise ?_ ((below_sorted _ _ _).filter _) ((below_sorted _ _ _).filter _)
  intro a b ha hb hab hba
  obtain ⟨_, _, _, haroot, _⟩ := mem_below.mp (List.mem_filter.mp ha).1
  obtain ⟨_, _, _, hbroot, _⟩ := mem_below.mp (List.mem_filter.mp hb).1
  exact Path.eq_of_le haroot hbroot hab hba

end FileTree

end ElementBinding
