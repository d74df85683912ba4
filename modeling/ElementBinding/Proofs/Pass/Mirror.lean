import ElementBinding.Proofs.Pass.Frame

/-!
# Files that mirror memory

A directory sink on an empty directory and a sink in memory that are handed the same units in turn
keep the same. The units have paths of names that lie apart as files whenever they differ as texts,
and a file is read back as the text that was written, so both sinks see a unit as changed together.
-/
namespace ElementBinding
open ElementBinding.Naming ElementBinding.Text

/-- The unit is rendered from the specification of a class in a module that was discovered. There is
no carriage return in the module's name, which is made of the names on its path. -/
inductive BinderUnit.Scanned (unit : BinderUnit) : Prop
  | of {request : Request} (tree : Workspace) {files : List SourceFile} {file : SourceFile}
      {declared : DeclaredClass} (standard : request.profile = .standard)
      (discovered : discover tree request.sourceRoot request.exclude = .ok files)
      (among : file ∈ files) (plain : '\r' ∉ file.moduleName.toList)
      (declares : declared ∈ (request.scanFile tree file).classes)
      (rendered : (declared.spec request.profile).render request.profile = .ok unit)

/-- The unit has a path of names, and its file is recognized and read back as it was written. -/
structure BinderUnit.ReadsBack (unit : BinderUnit) : Prop where
  placed : ∃ dirs leaf, IsUnitPath unit.path dirs leaf
  marked : isGenerated unit.source.toList
  plain : readText (encode unit.source) = some unit.source.toList

theorem BinderUnit.Scanned.readsBack {unit : BinderUnit} (h : unit.Scanned) : unit.ReadsBack := by
  obtain ⟨tree, standard, discovered, among, plain, declares, rendered⟩ := h
  rename_i request files file declared
  have hclass : declared ∈ request.classes tree files :=
    List.mem_flatMap.mpr ⟨_, List.mem_map_of_mem among, declares⟩
  have hslash := Request.slash_not_mem_classes (by rw [standard]; decide) discovered declared
    hclass
  have hwithout := Request.scanFile_without (by decide) (by decide) standard plain declared declares
  refine ⟨?_, Spec.render_isGenerated rendered, ?_⟩
  · rw [(Spec.render_ok rendered).1]
    exact modulePath_isUnitPath hslash
  · rw [standard] at hwithout rendered
    exact Spec.readText_encode hwithout rendered

namespace MemorySink

theorem find?_write (sink : MemorySink) (unit : BinderUnit) (path : String) :
    (sink.write unit).1.find? path = if path = unit.path then some unit else sink.find? path :=
  Pairs.find?_replaced_or_added sink.units unit.path path unit

theorem accept_from (unit : BinderUnit) (sink : MemorySink) :
    (accept unit).from sink = (.ok (sink.write unit).2, (sink.write unit).1) := rfl

theorem write_changed (sink : MemorySink) (unit : BinderUnit) :
    (sink.write unit).2 = decide ((sink.find? unit.path).map (·.source) ≠ some unit.source) := rfl

theorem nodup_write {sink : MemorySink} (h : (sink.units.map (·.1)).Nodup) (unit : BinderUnit) :
    ((sink.write unit).1.units.map (·.1)).Nodup := by
  unfold write
  dsimp only
  split
  · -- A replaced entry keeps its path, so the paths are those that were there.
    rw [List.map_map, List.map_congr_left (g := (·.1)) fun entry _ => ?_]
    · exact h
    · simp only [Function.comp_apply]
      split <;> rfl
  · rename_i hnone
    rw [List.map_append, List.nodup_append]
    refine ⟨h, by simp, fun path hpath other hother heq => hnone ?_⟩
    obtain ⟨entry, hentry, rfl⟩ := List.mem_map.mp hpath
    rw [List.map_singleton, List.mem_singleton] at hother
    exact List.any_eq_true.mpr ⟨entry, hentry, by simp [heq, hother]⟩

theorem find?_eq_some_iff {sink : MemorySink} (h : (sink.units.map (·.1)).Nodup) {path : String}
    {unit : BinderUnit} : sink.find? path = some unit ↔ (path, unit) ∈ sink.units :=
  Pairs.find?_eq_some_iff h

end MemorySink

/-- Nothing stands below a directory, and no file stands in the way of it. -/
structure Vacant (root : Path) (tree : FileTree) : Prop where
  ready : Ready root tree
  relative : root.root = ""
  free : ¬tree.Obstructed root
  empty : ∀ names, names ≠ [] → tree.lookup (root.place ++ names) = none

theorem Vacant.of_directory {root : Path} {tree : FileTree} (hnested : tree.Nested)
    (hdirectory : tree.isDirectory root)
    (hempty : ∀ names, names ≠ [] → tree.lookup (root.place ++ names) = none) :
    Vacant root tree := by
  obtain ⟨place, hlocate, hdir⟩ := (FileTree.isDirectory_iff _ _).mp hdirectory
  obtain ⟨rfl, hrelative⟩ := FileTree.place_of_locate hlocate
  refine ⟨⟨hnested, .of_locate hlocate⟩, hrelative, ?_, hempty⟩
  rintro ⟨above, content, hpre, hfile⟩
  by_cases hsame : above = root.place
  · rw [hsame, hdir] at hfile
    simp at hfile
  · rw [hnested.directory_of_prefix hpre hsame (by rw [hdir]; simp)] at hfile
    simp at hfile

/-- A directory sink and a sink in memory that keep the same. -/
structure Mirrors (root : Path) (site : Site) (sink : MemorySink) : Prop where
  ready : Ready root site.tree
  relative : root.root = ""
  free : ∀ dirs : List String, (∀ dir ∈ dirs, '.' ∉ dir.toList) →
    ¬site.tree.Obstructed ⟨root.root, root.parts ++ dirs⟩
  target : site.sink.root = root
  real : site.sink.checkOnly = false
  stored : ∀ path unit, sink.find? path = some unit → unit.path = path ∧ unit.ReadsBack ∧
    site.tree.lookup (root.extend path).place = some (.file (encode unit.source))
  found : ∀ place, SourcePlace root place → site.tree.lookup place ≠ none →
    ∃ path unit, sink.find? path = some unit ∧ place = (root.extend path).place
  distinct : (sink.units.map (·.1)).Nodup
  counted : sink.writeCount = site.sink.written.length + site.sink.unchanged.length

theorem Vacant.mirrors {root : Path} {tree : FileTree} (h : Vacant root tree) :
    Mirrors root { tree, sink := { root } } {} where
  ready := h.ready
  relative := h.relative
  free dirs hdirs := by
    have hdots : ".." ∉ dirs := fun hmem => hdirs _ hmem (by decide)
    rintro ⟨place, content, hpre, hfile⟩
    rw [FileTree.place_append hdots] at hpre
    rcases List.prefix_or_prefix_of_prefix hpre (List.prefix_append root.place dirs) with
      habove | ⟨names, rfl⟩
    · exact h.free ⟨place, content, habove, hfile⟩
    · by_cases hnames : names = []
      · subst hnames
        exact h.free ⟨_, content, by simp, hfile⟩
      · rw [h.empty names hnames] at hfile
        simp at hfile
  target := rfl
  real := rfl
  stored path unit hfind := by simp [MemorySink.find?] at hfind
  found place hsource hstands := by
    obtain ⟨dirs, leaf, rfl, -⟩ := hsource
    exact absurd (h.empty _ (by simp)) hstands
  distinct := .nil
  counted := rfl

namespace Mirrors
variable {root : Path} {site : Site} {sink : MemorySink} {unit : BinderUnit}

/-- What stands where a unit goes is what is stored under its path. -/
theorem existingUnit_eq (h : Mirrors root site sink) (hunit : unit.ReadsBack) :
    existingUnit site.tree (root.extend unit.path) unit.path =
      .ok ((sink.find? unit.path).map (·.source.toList)) := by
  obtain ⟨dirs, leaf, hplaced⟩ := hunit.placed
  rw [ElementBinding.existingUnit_eq, h.ready.find? hplaced, if_pos h.relative]
  cases hfind : sink.find? unit.path with
  | some old =>
    obtain ⟨-, hold, hstands⟩ := h.stored _ _ hfind
    simp [hstands, hold.plain, hold.marked]
  | none =>
    have hnone : site.tree.lookup (root.extend unit.path).place = none := by
      by_contra hstands
      obtain ⟨path, old, hold, hplace⟩ := h.found _ (hplaced.sourcePlace root) hstands
      obtain ⟨rfl, ⟨⟨_, _, hplaced'⟩, -, -⟩, -⟩ := h.stored _ _ hold
      rw [hplaced.eq_of_place hplaced' hplace, hold] at hfind
      simp at hfind
    rw [hnone]
    rfl

/-- The sinks keep the same once the tree has been changed at the place of one unit at most, the
unit stands there, and was counted. -/
theorem next (h : Mirrors root site sink) (hunit : unit.ReadsBack) {after : Site}
    (hready : Ready root after.tree)
    (hreworked : Reworked root (· = (root.extend unit.path).place) site.tree after.tree)
    (hwritten : after.tree.lookup (root.extend unit.path).place =
      some (.file (encode unit.source)))
    (htarget : after.sink.root = site.sink.root)
    (hreal : after.sink.checkOnly = site.sink.checkOnly)
    (hcounted : after.sink.written.length + after.sink.unchanged.length =
      site.sink.written.length + site.sink.unchanged.length + 1) :
    Mirrors root after (sink.write unit).1 where
  ready := hready
  relative := h.relative
  free dirs hdirs := by
    rw [hreworked.obstructed_iff hdirs]
    exact h.free dirs hdirs
  target := htarget.trans h.target
  real := hreal.trans h.real
  stored path found hfind := by
    rw [MemorySink.find?_write] at hfind
    split_ifs at hfind with hpath
    · obtain rfl := Option.some.inj hfind
      exact ⟨hpath.symm, hunit, hpath ▸ hwritten⟩
    · obtain ⟨rfl, hfound, hstands⟩ := h.stored path found hfind
      obtain ⟨dirs, leaf, hplaced⟩ := hunit.placed
      obtain ⟨dirs', leaf', hplaced'⟩ := hfound.placed
      refine ⟨rfl, hfound, (hreworked.lookup_eq (hplaced'.sourcePlace root) ?_).trans hstands⟩
      exact fun hplace => hpath (hplaced'.eq_of_place hplaced hplace)
  found place hsource hstands := by
    by_cases hplace : place = (root.extend unit.path).place
    · exact ⟨unit.path, unit, by rw [MemorySink.find?_write, if_pos rfl], hplace⟩
    · -- What is new elsewhere are directories, which have no place of a source file.
      rw [hreworked.lookup_eq hsource hplace] at hstands
      obtain ⟨path, found, hfind, hplace'⟩ := h.found place hsource hstands
      refine ⟨path, found, ?_, hplace'⟩
      rw [MemorySink.find?_write, if_neg, hfind]
      rintro rfl
      exact hplace hplace'
  distinct := MemorySink.nodup_write h.distinct unit
  counted := by
    rw [hcounted, ← h.counted]
    rfl

theorem write (h : Mirrors root site sink) (hunit : unit.ReadsBack) :
    ∃ after, (DirectorySink.write unit).from site = (.ok (sink.write unit).2, after) ∧
      Mirrors root after (sink.write unit).1 := by
  have hexisting := h.existingUnit_eq hunit
  obtain ⟨dirs, leaf, hplaced⟩ := hunit.placed
  have hkept : (sink.find? unit.path).map (·.source.toList) = some unit.source.toList ↔
      (sink.find? unit.path).map (·.source) = some unit.source := by
    cases sink.find? unit.path <;> simp [String.toList_inj]
  rw [write_from, MemorySink.write_changed]
  simp only [h.target, h.real, hexisting, hkept]
  -- The file is left alone if memory has the same text, and is written otherwise.
  by_cases hsame : (sink.find? unit.path).map (·.source) = some unit.source
  · simp only [hsame, if_true, ne_eq, not_true_eq_false, decide_false]
    obtain ⟨old, hold, hsource⟩ := Option.map_eq_some_iff.mp hsame
    obtain ⟨-, -, hstands⟩ := h.stored _ _ hold
    refine ⟨_, rfl, h.next hunit h.ready (.refl _ _ _) (hsource ▸ hstands) h.target.symm
      h.real.symm ?_⟩
    simp [Nat.add_assoc]
  · have hfree : ¬Blocked root dirs site.tree := not_or.mpr
      ⟨not_not.mpr h.relative, h.free dirs hplaced.dotless⟩
    have hmarked : isGenerated (decodeTolerant (encode unit.source)) := by
      rw [decodeTolerant_encode]
      exact hunit.marked
    obtain ⟨next, happlied, hnext, hwritten, hreworked⟩ :=
      h.ready.write_free hplaced hfree hexisting hmarked
    simp only [hsame, if_false, ne_eq, not_false_eq_true, decide_true, happlied,
      Bool.false_eq_true]
    refine ⟨_, rfl, h.next hunit hnext hreworked hwritten h.target.symm h.real.symm ?_⟩
    simp [Site.report, Nat.add_right_comm]

/-- Both sinks take units in turn and tell alike which are changed. -/
theorem run {units : List BinderUnit} (h : Mirrors root site sink)
    (hunits : ∀ unit ∈ units, unit.ReadsBack) :
    ∃ flags after next, Action.Each DirectorySink.write units site flags after ∧
      Action.Each MemorySink.accept units sink flags next ∧ Mirrors root after next := by
  induction units generalizing site sink with
  | nil => exact ⟨[], site, sink, .nil site, .nil sink, h⟩
  | cons unit rest ih =>
    rw [List.forall_mem_cons] at hunits
    obtain ⟨middle, hfirst, hmiddle⟩ := h.write hunits.1
    obtain ⟨flags, after, next, hmore, hmore', hlast⟩ := ih hmiddle hunits.2
    exact ⟨_ :: flags, after, next, .cons hfirst hmore,
      .cons (MemorySink.accept_from unit sink) hmore', hlast⟩

theorem mem_below_iff (h : Mirrors root site sink) {path : Path} :
    path ∈ site.tree.below root ".py" ↔ ∃ unit dirs leaf, sink.find? path.text = some unit ∧
      IsUnitPath path.text dirs leaf ∧ path = ⟨"", dirs ++ [leaf]⟩ := by
  rw [h.ready.mem_below]
  constructor
  · rintro ⟨-, hrelative, hparts, hstands, hending⟩
    obtain ⟨key, unit, hfind, hplace⟩ := h.found _ (sourcePlace_below hparts hending) hstands
    obtain ⟨rfl, ⟨⟨dirs, leaf, hplaced⟩, -, -⟩, -⟩ := h.stored _ _ hfind
    have htext := hplaced.text_of_place hrelative hplace
    rw [hplaced.place_eq root] at hplace
    rw [htext]
    refine ⟨unit, dirs, leaf, hfind, hplaced, ?_⟩
    obtain ⟨_, _⟩ := path
    simp only [Path.mk.injEq]
    exact ⟨hrelative, List.append_cancel_left hplace⟩
  · rintro ⟨unit, dirs, leaf, hfind, hplaced, hpath⟩
    obtain ⟨-, -, hstands⟩ := h.stored _ _ hfind
    rw [hplaced.place_eq root] at hstands
    rw [hpath]
    refine ⟨h.relative, rfl, by simp, by rw [hstands]; simp, ?_⟩
    simpa [Path.name] using hplaced.leaf.2

theorem below_perm (h : Mirrors root site sink) :
    ((site.tree.below root ".py").map (·.text)).Perm (sink.units.map (·.1)) := by
  have hinjective : ∀ path ∈ site.tree.below root ".py", ∀ other ∈ site.tree.below root ".py",
      path.text = other.text → path = other := by
    intro path hpath other hother htext
    obtain ⟨_, dirs, leaf, -, hplaced, hsame⟩ := h.mem_below_iff.mp hpath
    obtain ⟨_, dirs', leaf', -, hplaced', hsame'⟩ := h.mem_below_iff.mp hother
    rw [hsame, hsame']
    rw [htext] at hplaced
    have hplace := (hplaced.place_eq root).symm.trans (hplaced'.place_eq root)
    rw [List.append_cancel_left hplace]
  refine (List.perm_ext_iff_of_nodup ((h.ready.nested.below_nodup _ _).map_on hinjective)
    h.distinct).mpr fun text => ?_
  rw [List.mem_map, List.mem_map]
  constructor
  · rintro ⟨path, hpath, rfl⟩
    obtain ⟨unit, -, -, hfind, -, -⟩ := h.mem_below_iff.mp hpath
    exact ⟨_, (MemorySink.find?_eq_some_iff h.distinct).mp hfind, rfl⟩
  · rintro ⟨⟨text, unit⟩, hmem, rfl⟩
    have hfind := (MemorySink.find?_eq_some_iff h.distinct).mpr hmem
    obtain ⟨rfl, ⟨⟨dirs, leaf, hplaced⟩, -, -⟩, -⟩ := h.stored _ _ hfind
    refine ⟨⟨"", dirs ++ [leaf]⟩, ?_, hplaced.text_eq⟩
    rw [h.mem_below_iff, hplaced.text_eq]
    exact ⟨unit, dirs, leaf, hfind, hplaced, rfl⟩

theorem read_eq (h : Mirrors root site sink) {path : String} (hmem : (path, unit) ∈ sink.units) :
    site.tree.read (root.extend path) = .ok (encode unit.source) := by
  obtain ⟨rfl, ⟨⟨dirs, leaf, hplaced⟩, -, -⟩, hstands⟩ :=
    h.stored _ _ ((MemorySink.find?_eq_some_iff h.distinct).mpr hmem)
  have hfind := h.ready.find? hplaced
  rw [if_pos h.relative, hstands, FileTree.find?_eq_some_iff] at hfind
  obtain ⟨place, hlocate, hfile⟩ := hfind
  obtain ⟨rfl, -⟩ := FileTree.place_of_locate hlocate
  exact FileTree.read_eq_ok_iff.mpr ⟨hlocate, FileTree.content?_eq_some_iff.mpr hfile⟩

end Mirrors

/-- Units that are scanned go into an empty directory as they go into memory: after any number of
them no write has been refused or has failed, both sinks have told alike which were
changed, and the source files below the directory have the paths and the encoded texts of the units
in memory. -/
theorem sinks_agree {root : Path} {tree : FileTree} {units front : List BinderUnit}
    (hvacant : Vacant root tree) (hscanned : ∀ unit ∈ units, unit.Scanned)
    (hfront : front <+: units) :
    ∃ flags site sink,
      (front.mapM DirectorySink.write).from { tree, sink := { root } } = (.ok flags, site) ∧
      (front.mapM MemorySink.accept).from {} = (.ok flags, sink) ∧
      ((site.tree.below root ".py").map (·.text)).Perm (sink.units.map (·.1)) ∧
      (∀ path unit, (path, unit) ∈ sink.units →
        site.tree.read (root.extend path) = .ok (encode unit.source)) ∧
      sink.writeCount = site.sink.written.length + site.sink.unchanged.length := by
  have hunits : ∀ unit ∈ front, unit.ReadsBack :=
    fun unit hunit => (hscanned unit (hfront.subset hunit)).readsBack
  obtain ⟨flags, site, sink, hdirectory, hmemory, hmirrors⟩ := hvacant.mirrors.run hunits
  exact ⟨flags, site, sink, Action.mapM_from_iff.mpr hdirectory, Action.mapM_from_iff.mpr hmemory,
    hmirrors.below_perm, fun _ _ => hmirrors.read_eq, hmirrors.counted⟩

def FileTree.hollow : FileTree := ⟨[(["out"], .directory)]⟩

private theorem FileTree.hollow_vacant : Vacant ⟨"", ["out"]⟩ .hollow := by
  refine .of_directory (WellFormed.of_entries (by decide) (by decide)).toNested (by decide) ?_
  intro names hnames
  by_contra hstands
  have hshort := forall_places (P := fun place => place.length ≤ 1) (by decide) (by simp) _ hstands
  have hplace : (⟨"", ["out"]⟩ : Path).place = ["out"] := rfl
  rw [hplace, List.singleton_append, List.length_cons] at hshort
  exact hnames (List.length_eq_zero_iff.mp (by omega))

/-- A unit that is written twice is changed the first time. -/
theorem sinks_agree_sample : ∃ unit site, unit.Scanned ∧
    ([unit, unit].mapM DirectorySink.write).from
      { tree := .hollow, sink := { root := ⟨"", ["out"]⟩ } } = (.ok [true, false], site) ∧
    (site.tree.below ⟨"", ["out"]⟩ ".py").map (·.text) = ["a_binding.py"] ∧
    site.tree.read ⟨"", ["out", "a_binding.py"]⟩ = .ok (encode unit.source) ∧
    site.sink.written.length + site.sink.unchanged.length = 2 := by
  obtain ⟨unit, hrender, hpath⟩ := Spec.sample_render
  have hspec : .sample ∈ (Request.sample.built .sample Request.sampleFiles).specs := by
    simp [sample_built.1]
  obtain ⟨declared, hclass, hspec⟩ := mem_build_specs hspec
  obtain ⟨scan, hscan, hdeclared⟩ := List.mem_flatMap.mp hclass
  obtain ⟨file, hfile, rfl⟩ := List.mem_map.mp hscan
  have hscanned : unit.Scanned := .of ⟨_, FileTree.sample_formed⟩ rfl
    (Request.discover_sampleWith (encode generatedHeader)) hfile
    (by rw [List.mem_singleton.mp hfile]; decide) hdeclared (hspec ▸ hrender)
  have hmemory : ([unit, unit].mapM MemorySink.accept).from {} =
      (.ok [true, false], ⟨[(unit.path, unit)], 2⟩) := by
    simp only [Action.mapM_from_iff]
    refine .cons rfl (.cons ?_ (.nil _))
    rw [MemorySink.accept_from]
    simp [MemorySink.write, MemorySink.find?]
  have hall : ∀ other ∈ [unit, unit], other.Scanned := by simp [hscanned]
  obtain ⟨flags, site, sink, hdirectory, hmemory', hpaths, hread, hcount⟩ :=
    sinks_agree FileTree.hollow_vacant hall List.prefix_rfl
  obtain ⟨hflags, rfl⟩ := Prod.mk.inj (hmemory.symm.trans hmemory')
  obtain rfl := Except.ok.inj hflags
  refine ⟨unit, site, hscanned, hdirectory, ?_, ?_, hcount.symm⟩
  · rw [← hpath]
    exact List.perm_singleton.mp hpaths
  · have hunit := hread unit.path unit (by simp)
    rwa [hpath] at hunit

end ElementBinding
