import ElementBinding.Proofs.Discovery
import ElementBinding.Proofs.FileTree.Apart
import ElementBinding.Proofs.Pass.UnitPaths

/-!
# Modules that cannot be read

A module that was found but cannot be read is rejected and declares nothing. The others are scanned
and their owners emitted as in the tree without its file, only that its name is taken and that
nothing is pruned. The emissions in the two trees go side by side, since they pass by the files
that cannot be read.
-/
namespace ElementBinding
open ElementBinding.Text

section

variable {checkOnly : Bool} {root : Path} {profile : Profile} {classes : List DeclaredClass}
  {spec : Spec} {unit : BinderUnit} {specs : List Spec} {places : List Location}
  {tree next last before after : FileTree} {report : OwnerReport} {reports : List OwnerReport}
  {seen stale : List String}

theorem existingUnit_of_agreeBut {target : Path} (h : FileTree.AgreeBut places before after)
    (htarget : target.Avoids places) (unitPath : String) :
    existingUnit after target unitPath = existingUnit before target unitPath := by
  rw [existingUnit_eq, existingUnit_eq, h.find?_eq htarget]

theorem Emits.agreeBut (h : Emits checkOnly root classes spec unit tree report next stale)
    (hagree : FileTree.AgreeBut places tree after)
    (htarget : (root.extend unit.path).Avoids places) :
    ∃ next', Emits checkOnly root classes spec unit after report next' stale ∧
      FileTree.AgreeBut places next next' := by
  have hexisting := existingUnit_of_agreeBut hagree htarget unit.path
  obtain ⟨hfault, hwritten⟩ := hagree.write htarget (encode unit.source)
  rcases hran : after.applyAll (after.writeSteps (root.extend unit.path) (encode unit.source)) with
    ⟨next', outcome⟩
  rw [hran] at hfault hwritten
  cases h with
  | kept found => exact ⟨after, .kept (hexisting.trans found), hagree⟩
  | stale found differs checked =>
    exact ⟨after, .stale (hexisting.trans found) differs checked, hagree⟩
  | written found differs unchecked applied =>
    rw [applied] at hfault hwritten
    obtain rfl : outcome = none := hfault
    exact ⟨next', .written (hexisting.trans found) differs unchecked hran, hwritten⟩
  | @unwritten _ _ fault found differs unchecked applied =>
    rw [applied] at hfault hwritten
    obtain rfl : outcome = some fault := hfault
    exact ⟨next', .unwritten (hexisting.trans found) differs unchecked hran, hwritten⟩
  | refused found stopped => exact ⟨after, .refused (hexisting.trans found) stopped, hagree⟩

theorem EmitsAll.agreeBut
    (h : EmitsAll checkOnly root profile classes tree specs reports last seen stale)
    (hagree : FileTree.AgreeBut places tree after)
    (htargets : ∀ spec ∈ specs, (root.extend spec.unitPath).Avoids places) :
    ∃ last', EmitsAll checkOnly root profile classes after specs reports last' seen stale ∧
      FileTree.AgreeBut places last last' := by
  induction h generalizing after with
  | nil tree => exact ⟨after, .nil after, hagree⟩
  | cons rendered first rest ih =>
    rw [List.forall_mem_cons, ← (Spec.render_ok rendered).1] at htargets
    obtain ⟨next', hfirst, hnext⟩ := first.agreeBut hagree htargets.1
    obtain ⟨last', hrest, hlast⟩ := ih hnext htargets.2
    exact ⟨last', .cons rendered hfirst hrest, hlast⟩

theorem Prunes.of_skipped {enabled : Bool} {seen keep pruned stale : List String}
    (h : Prunes checkOnly root enabled seen keep tree pruned next stale)
    (hskipped : enabled = false) :
    next = tree ∧ pruned = [] ∧ stale = [] := by
  cases h with
  | skipped => exact ⟨rfl, rfl, rfl⟩
  | checked on | deleted on => simp [hskipped] at on

end

private theorem filter_filterMap_all {α β : Type} (f : α → Option β) (p : β → Bool)
    (items : List α) :
    (items.filterMap f).filter p = (items.filter fun item => (f item).all p).filterMap f := by
  induction items with
  | nil => rfl
  | cons item rest ih =>
    cases hitem : f item with
    | none => simp [hitem, ih]
    | some found => by_cases hp : p found <;> simp [hitem, hp, ih]

private theorem flatMap_filter_eq {α β : Type} (p : α → Bool) (f : α → List β) (items : List α) :
    (items.filter p).flatMap f = items.flatMap fun item => if p item then f item else [] := by
  induction items with
  | nil => rfl
  | cons item rest ih => by_cases hp : p item <;> simp [hp, ih]

def SourceFile.unreadReport (file : SourceFile) (fault : FileFault) : ModuleReport where
  moduleName := file.moduleName
  path := file.path.text
  digest := ""
  parsed := false
  judgement := ⟨.reject, [.moduleReadError]⟩
  faults := [⟨file.moduleName, some 0, fault.message⟩]

namespace Request
variable {request : Request} {tree : FileTree} {files : List SourceFile} {file : SourceFile}

def reads (request : Request) (tree : FileTree) (file : SourceFile) : Bool :=
  (request.readSource tree file.path).toOption.isSome

/-- The places of the modules that cannot be read. -/
def unread (request : Request) (tree : FileTree) (files : List SourceFile) : List Location :=
  (files.filter fun file => !request.reads tree file).map (·.path.place)

/-- The tree without the modules that cannot be read. -/
def legible (request : Request) (tree : FileTree) (files : List SourceFile) : FileTree :=
  tree.without (request.unread tree files)

theorem scanFile_of_unread {fault : FileFault}
    (h : request.readSource tree file.path = .error fault) :
    (request.scanFile tree file).report = file.unreadReport fault ∧
      (request.scanFile tree file).classes = [] := by
  unfold scanFile
  rw [h]
  exact ⟨rfl, rfl⟩

theorem scanFile_congr {after : FileTree}
    (h : request.readSource after file.path = request.readSource tree file.path) :
    request.scanFile after file = request.scanFile tree file := by
  unfold scanFile
  rw [h]

section

variable (hnested : tree.Nested)
  (hdiscover : discover tree request.sourceRoot request.exclude = .ok files)

include hdiscover

private theorem mem_files_iff : file ∈ files ↔ ∃ path ∈ tree.below request.sourceRoot ".py",
    (!isGeneratedAt tree request.sourceRoot path && isCandidate request.exclude path) = true ∧
      sourceFile? request.sourceRoot path = some file := by
  obtain ⟨-, hfound⟩ := discover_eq_ok_iff.mp hdiscover
  rw [hfound, List.mem_filterMap]
  simp only [List.mem_filter, and_assoc]

omit hdiscover in
private theorem path_of_sourceFile? {root path : Path} (h : sourceFile? root path = some file) :
    file.path = root ++ path := by
  unfold sourceFile? at h
  split at h
  · simp at h
  · rw [← Option.some.inj h]

private theorem read_of_discovered (hfile : file ∈ files) :
    ∃ octets, tree.read file.path = .ok octets := by
  obtain ⟨path, hpath, hcandidate, -, hsame, -⟩ := mem_discover hdiscover hfile
  rw [hsame]
  exact (discover_eq_ok_iff.mp hdiscover).1 path hpath hcandidate

private theorem unread_files : ∀ place ∈ request.unread tree files,
    ∃ content, tree.lookup place = some (.file content) := by
  intro place hplace
  obtain ⟨file, hfile, rfl⟩ := List.mem_map.mp hplace
  obtain ⟨octets, hread⟩ := read_of_discovered hdiscover (List.mem_filter.mp hfile).1
  exact ⟨octets, FileTree.content?_eq_some_iff.mp (FileTree.read_eq_ok_iff.mp hread).2⟩

private theorem read_legible {path : Path} (hplace : path.place ∉ request.unread tree files)
    {octets : Octets} (hread : tree.read path = .ok octets) :
    (request.legible tree files).read path = .ok octets := by
  obtain ⟨hlocate, hcontent⟩ := FileTree.read_eq_ok_iff.mp hread
  have hfiles := unread_files hdiscover
  refine FileTree.read_eq_ok_iff.mpr ⟨(FileTree.locate_without_eq_ok_iff hfiles).mpr hlocate, ?_⟩
  rw [legible, FileTree.content?_congr (FileTree.agreeBut_without tree _ _ hplace), hcontent]

include hnested

omit hdiscover in
private theorem place_below {root path : Path} {base : Location}
    (hbase : tree.locate root = .ok base) (hpath : path ∈ tree.below root ".py") :
    (root ++ path).place = base ++ path.parts :=
  (FileTree.place_of_locate (hnested.locate_below hbase hpath)).1.symm

omit hdiscover in
private theorem eq_of_place {root path other : Path} (hpath : path ∈ tree.below root ".py")
    (hother : other ∈ tree.below root ".py")
    (hplace : (root ++ path).place = (root ++ other).place) :
    path = other := by
  obtain ⟨base, hbase, -, hrelative, -⟩ := FileTree.mem_below.mp hpath
  obtain ⟨-, -, -, hrelative', -⟩ := FileTree.mem_below.mp hother
  rw [place_below hnested hbase hpath, place_below hnested hbase hother] at hplace
  obtain ⟨_, parts⟩ := path
  obtain ⟨_, parts'⟩ := other
  simp only at hrelative hrelative' hplace
  rw [hrelative, hrelative', List.append_cancel_left hplace]

private theorem place_mem_unread_iff {path : Path}
    (hpath : path ∈ tree.below request.sourceRoot ".py")
    (hselected : (!isGeneratedAt tree request.sourceRoot path &&
      isCandidate request.exclude path) = true) :
    (request.sourceRoot ++ path).place ∉ request.unread tree files ↔
      (sourceFile? request.sourceRoot path).all (request.reads tree) = true := by
  rw [Option.all_eq_true]
  constructor
  · intro hplace file hfile
    by_contra hunread
    have hmem := (mem_files_iff hdiscover).mpr ⟨path, hpath, hselected, hfile⟩
    refine hplace (List.mem_map.mpr ⟨file, List.mem_filter.mpr ⟨hmem, by simpa using hunread⟩, ?_⟩)
    rw [path_of_sourceFile? hfile]
  · intro hall hplace
    obtain ⟨file, hfile, hsame⟩ := List.mem_map.mp hplace
    obtain ⟨hfile, hunread⟩ := List.mem_filter.mp hfile
    obtain ⟨other, hother, -, hof⟩ := (mem_files_iff hdiscover).mp hfile
    rw [path_of_sourceFile? hof] at hsame
    obtain rfl := eq_of_place hnested hother hpath hsame
    rw [hall file hof] at hunread
    simp at hunread

/-- What is found without the files that cannot be read. -/
private theorem mem_below_legible {path : Path} :
    path ∈ (request.legible tree files).below request.sourceRoot ".py" ↔
      path ∈ tree.below request.sourceRoot ".py" ∧
        (request.sourceRoot ++ path).place ∉ request.unread tree files := by
  have hfiles := unread_files hdiscover
  constructor
  · intro hpath
    obtain ⟨base, hbase, hdir, hrelative, hparts, hstands, hending⟩ := FileTree.mem_below.mp hpath
    rw [legible, FileTree.locate_without_eq_ok_iff hfiles] at hbase
    rw [legible, FileTree.lookup_without_eq_directory_iff hfiles] at hdir
    rw [legible, FileTree.lookup_without_of_files hfiles] at hstands
    obtain ⟨hplace, hstands⟩ := ite_ne_left_iff.mp hstands
    have hbelow : path ∈ tree.below request.sourceRoot ".py" :=
      FileTree.mem_below.mpr ⟨base, hbase, hdir, hrelative, hparts, hstands.symm, hending⟩
    exact ⟨hbelow, by rwa [place_below hnested hbase hbelow]⟩
  · rintro ⟨hpath, hplace⟩
    obtain ⟨base, hbase, hdir, hrelative, hparts, hstands, hending⟩ := FileTree.mem_below.mp hpath
    rw [place_below hnested hbase hpath] at hplace
    refine FileTree.mem_below.mpr ⟨base, ?_, ?_, hrelative, hparts, ?_, hending⟩
    · rwa [legible, FileTree.locate_without_eq_ok_iff hfiles]
    · rwa [legible, FileTree.lookup_without_eq_directory_iff hfiles]
    · rwa [legible, FileTree.lookup_without_of_files hfiles, if_neg hplace]

/-- Without the files that cannot be read the other modules are found. -/
theorem discover_legible : discover (request.legible tree files) request.sourceRoot
    request.exclude = .ok (files.filter (request.reads tree)) := by
  obtain ⟨hreadable, hfound⟩ := discover_eq_ok_iff.mp hdiscover
  have hread {path : Path} (hpath : path ∈ tree.below request.sourceRoot ".py")
      (hplace : (request.sourceRoot ++ path).place ∉ request.unread tree files)
      (hcandidate : isCandidate request.exclude path) :
      ∃ octets, tree.read (request.sourceRoot ++ path) = .ok octets ∧
        (request.legible tree files).read (request.sourceRoot ++ path) = .ok octets := by
    obtain ⟨octets, hoctets⟩ := hreadable path hpath hcandidate
    exact ⟨octets, hoctets, read_legible hdiscover hplace hoctets⟩
  -- What is left reads alike, and so is taken for generated alike.
  have hgenerated {path : Path} (hpath : path ∈ tree.below request.sourceRoot ".py")
      (hplace : (request.sourceRoot ++ path).place ∉ request.unread tree files) :
      (!isGeneratedAt (request.legible tree files) request.sourceRoot path &&
        isCandidate request.exclude path) =
      (!isGeneratedAt tree request.sourceRoot path && isCandidate request.exclude path) := by
    cases hcandidate : isCandidate request.exclude path with
    | false => simp
    | true =>
      obtain ⟨octets, hoctets, hoctets'⟩ := hread hpath hplace hcandidate
      rw [isGeneratedAt, isGeneratedAt, hoctets, hoctets']
  refine discover_eq_ok_iff.mpr ⟨fun path hpath hcandidate => ?_, ?_⟩
  · obtain ⟨hbelow, hplace⟩ := (mem_below_legible hnested hdiscover).mp hpath
    obtain ⟨octets, -, hoctets⟩ := hread hbelow hplace hcandidate
    exact ⟨octets, hoctets⟩
  · have hfiltered := congrArg (List.filter (request.reads tree)) hfound
    rw [hfiltered, filter_filterMap_all, List.filter_filter]
    congr 1
    have hlegible : (request.legible tree files).Nested := hnested.without (unread_files hdiscover)
    refine FileTree.below_filter_congr hnested hlegible fun path => ?_
    rw [mem_below_legible hnested hdiscover, and_assoc]
    refine and_congr_right fun hpath => ?_
    rw [Bool.and_eq_true]
    constructor
    · rintro ⟨hall, hselected⟩
      have hplace := (place_mem_unread_iff hnested hdiscover hpath hselected).mpr hall
      exact ⟨hplace, (hgenerated hpath hplace).trans hselected⟩
    · rintro ⟨hplace, hselected⟩
      rw [hgenerated hpath hplace] at hselected
      exact ⟨(place_mem_unread_iff hnested hdiscover hpath hselected).mp hplace, hselected⟩

private theorem scanFile_legible (hfile : file ∈ files) (hreads : request.reads tree file) :
    request.scanFile (request.legible tree files) file = request.scanFile tree file := by
  obtain ⟨path, hpath, hselected, hof⟩ := (mem_files_iff hdiscover).mp hfile
  have hplace : file.path.place ∉ request.unread tree files := by
    rw [path_of_sourceFile? hof]
    refine (place_mem_unread_iff hnested hdiscover hpath hselected).mpr ?_
    rw [hof, Option.all_some, hreads]
  obtain ⟨octets, hread⟩ := read_of_discovered hdiscover hfile
  refine scanFile_congr ?_
  rw [readSource, readSource, hread, read_legible hdiscover hplace hread]

private theorem report_legible (hfile : file ∈ files) :
    (request.scanFile tree file).report =
      match request.readSource tree file.path with
      | .ok _ => (request.scanFile (request.legible tree files) file).report
      | .error fault => file.unreadReport fault := by
  cases hread : request.readSource tree file.path with
  | error fault => exact (scanFile_of_unread hread).1
  | ok octets => rw [scanFile_legible hnested hdiscover hfile (by rw [reads, hread]; rfl)]

theorem classes_legible : request.classes (request.legible tree files)
    (files.filter (request.reads tree)) = request.classes tree files := by
  have hscans : ∀ file ∈ files, (request.scanFile tree file).classes =
      if request.reads tree file then (request.scanFile (request.legible tree files) file).classes
      else [] := by
    intro file hfile
    split
    · rename_i hreads
      rw [scanFile_legible hnested hdiscover hfile hreads]
    · rename_i hunread
      cases hread : request.readSource tree file.path with
      | error fault => exact (scanFile_of_unread hread).2
      | ok octets => simp [reads, hread, Except.toOption] at hunread
  rw [classes, classes, scans, scans, List.flatMap_map, List.flatMap_map, flatMap_filter_eq,
    List.flatMap_congr hscans]

end

private theorem discover_of_opens (hnested : tree.Nested)
    (hopens : ∀ path ∈ tree.below request.sourceRoot ".py", isCandidate request.exclude path →
      tree.find? (request.sourceRoot ++ path) ≠ some .directory) :
    ∃ files, discover tree request.sourceRoot request.exclude = .ok files := by
  refine ⟨_, discover_eq_ok_iff.mpr ⟨fun path hpath hcandidate => ?_, rfl⟩⟩
  obtain ⟨base, hbase, -⟩ := FileTree.mem_below.mp hpath
  have hlocate := hnested.locate_below hbase hpath
  refine (hnested.read_below hbase hpath).mpr fun hdirectory => hopens path hpath hcandidate ?_
  exact (FileTree.find?_eq_some_iff _ _ _).mpr ⟨_, hlocate, hdirectory⟩

private theorem clean_of_unread (h : request.unread tree files ≠ []) :
    request.clean tree files = false := by
  obtain ⟨place, hplace⟩ := List.exists_mem_of_ne_nil _ h
  obtain ⟨file, hfile, -⟩ := List.mem_map.mp hplace
  obtain ⟨hfile, hunread⟩ := List.mem_filter.mp hfile
  have hreport : (request.scanFile tree file).report.judgement.verdict = .reject := by
    cases hread : request.readSource tree file.path with
    | error fault => rw [(scanFile_of_unread hread).1, SourceFile.unreadReport]
    | ok octets => simp [reads, hread, Except.toOption] at hunread
  rw [clean, List.all_eq_false]
  refine ⟨_, List.mem_map_of_mem (List.mem_map_of_mem hfile), by simp [hreport]⟩

/-- A pass over modules of which some cannot be read rejects these, and goes as without their files:
it finds the other modules there, with the same classes and the same reports; whatever report it
gives, the owners could be emitted there with what is reported of them; and if they can be, a pass
that does not write its report gives it and leaves the same tree but for the files that cannot be
read. Only the names of all modules are taken, and nothing is pruned. This needs that every
candidate can be opened at first, and that no unit goes through or to a file that cannot be read. -/
theorem run_isolates (tree : Workspace)
    (hopens : ∀ path ∈ tree.below request.sourceRoot ".py", isCandidate request.exclude path →
      tree.find? (request.sourceRoot ++ path) ≠ some .directory)
    (hapart : ∀ files, discover tree request.sourceRoot request.exclude = .ok files →
      ∀ spec ∈ (request.built tree files).specs,
        (request.target.extend spec.unitPath).Avoids (request.unread tree files)) :
    ∃ files others, discover tree request.sourceRoot request.exclude = .ok files ∧
      discover (request.legible tree files) request.sourceRoot request.exclude = .ok others ∧
      others = files.filter (request.reads tree) ∧
      request.classes (request.legible tree files) others = request.classes tree files ∧
      (∀ file ∈ files, (request.scanFile tree file).report =
        match request.readSource tree file.path with
        | .ok _ => (request.scanFile (request.legible tree files) file).report
        | .error fault => file.unreadReport fault) ∧
      (request.unread tree files ≠ [] →
        let specs := (build (request.classes (request.legible tree files) others) request.profile
          (files.map (·.moduleName))).specs
        let emits := EmitsAll request.checkOnly request.target request.profile
          (request.classes (request.legible tree files) others) (request.legible tree files) specs
        (∀ report, (request.run tree).result = .ok report → ∃ emitted last seen stale,
          emits emitted last seen stale ∧ report = request.reported tree files emitted stale []) ∧
        ∀ emitted last seen stale, emits emitted last seen stale → request.reportDirectory = none →
          (request.run tree).result = .ok (request.reported tree files emitted stale []) ∧
          FileTree.AgreeBut (request.unread tree files) last (request.run tree).tree) := by
  have hnested := tree.formed.toNested
  obtain ⟨files, hdiscover⟩ := discover_of_opens hnested hopens
  have hapart := hapart files hdiscover
  have hclasses := classes_legible hnested hdiscover
  have hbuilt : build (request.classes tree files) request.profile (files.map (·.moduleName)) =
      request.built tree files := rfl
  refine ⟨files, _, hdiscover, discover_legible hnested hdiscover, rfl, hclasses,
    fun file hfile => report_legible hnested hdiscover hfile, fun hunread => ?_⟩
  have hagree : FileTree.AgreeBut (request.unread tree files) tree (request.legible tree files) :=
    FileTree.agreeBut_without tree _
  have hskipped : (request.prune && request.clean tree files) = false := by
    rw [clean_of_unread hunread, Bool.and_false]
  rw [hclasses, hbuilt]
  refine ⟨fun report hrun => ?_, fun emitted last seen stale hemits hreport => ?_⟩
  · obtain ⟨course, rfl, -⟩ := run_ok hrun
    obtain rfl := Except.ok.inj (hdiscover.symm.trans course.discovered)
    obtain ⟨last, hemits, -⟩ := course.emits.agreeBut hagree hapart
    obtain ⟨-, hpruned, houtdated⟩ := course.prunes.of_skipped hskipped
    refine ⟨course.emitted, last, course.seen, course.stale, hemits, ?_⟩
    rw [Course.report, hpruned, houtdated, List.append_nil]
  · obtain ⟨last', hemits', hlast⟩ := hemits.agreeBut hagree.symm hapart
    obtain ⟨hrun, htree⟩ := run_of ⟨files, emitted, last', seen, stale, [], last', [], hdiscover,
      hemits', .skipped hskipped⟩ hreport
    rw [Course.report, List.append_nil] at hrun
    exact ⟨hrun, htree ▸ hlast⟩

end Request

/-- Two modules, the second of which is to turn out to be unreadable. -/
def FileTree.sealed : FileTree := ⟨[(["src"], .directory),
  (["src", "m.py"], .file (encode "class A:\n    f = bind_view(1)\n")),
  (["src", "x.py"], .file (encode "class B:\n    g = bind_view(2)\n"))]⟩

def Request.hampered : Request where
  sourceRoot := ⟨"", ["src"]⟩
  unreadable := [(⟨"", ["src", "x.py"]⟩, .reported "locked")]

private theorem sealed_below : FileTree.sealed.below Request.hampered.sourceRoot ".py" =
    [⟨"", ["m.py"]⟩, ⟨"", ["x.py"]⟩] := by
  have hbelow : FileTree.sealed.below Request.hampered.sourceRoot ".py" =
      [⟨"", ["m.py"]⟩, ⟨"", ["x.py"]⟩].mergeSort Path.le := rfl
  rw [hbelow, List.mergeSort_of_pairwise (by decide)]

theorem Request.discover_sealed : discover .sealed hampered.sourceRoot hampered.exclude =
    .ok [⟨⟨"", ["src", "m.py"]⟩, "m", false⟩, ⟨⟨"", ["src", "x.py"]⟩, "x", false⟩] := by
  unfold discover candidateFiles
  rw [sealed_below]
  rfl

theorem Request.hampered_sealed : (hampered.run .sealed).units =
    some ([(some "a_binding.py", none, true)], []) := by
  rw [run_eq_proceed (by simp [excludedFiles, isExcluded, hampered]) discover_sealed]
  decide +kernel

/-- The second module is rejected, and the owner in the first is emitted as if it were alone. -/
theorem Request.run_isolates_sealed : ∃ report files, (hampered.run .sealed).result = .ok report ∧
    hampered.unread .sealed files = [["src", "x.py"]] ∧
    ∃ emitted last seen stale,
      EmitsAll hampered.checkOnly hampered.target hampered.profile
        (hampered.classes (hampered.legible .sealed files) (files.filter (hampered.reads .sealed)))
        (hampered.legible .sealed files)
        (build (hampered.classes (hampered.legible .sealed files)
          (files.filter (hampered.reads .sealed))) hampered.profile
            (files.map (·.moduleName))).specs emitted last seen stale ∧
      report = hampered.reported .sealed files emitted stale [] := by
  have hformed : FileTree.sealed.WellFormed := .of_entries (by decide) (by decide)
  have hopens : ∀ path ∈ FileTree.sealed.below hampered.sourceRoot ".py",
      isCandidate hampered.exclude path →
        FileTree.sealed.find? (hampered.sourceRoot ++ path) ≠ some .directory := by
    rw [sealed_below]
    decide
  have hapart : ∀ files, discover .sealed hampered.sourceRoot hampered.exclude = .ok files →
      ∀ spec ∈ (hampered.built .sealed files).specs,
        (hampered.target.extend spec.unitPath).Avoids (hampered.unread .sealed files) := by
    intro files hfiles
    obtain rfl := Except.ok.inj (discover_sealed.symm.trans hfiles)
    decide +kernel
  obtain ⟨report, hrun, -⟩ := PassOutcome.result_of_units hampered_sealed
  obtain ⟨files, _, hdiscover, -, rfl, -, -, hpass⟩ :=
    run_isolates ⟨_, hformed⟩ hopens hapart
  obtain rfl := Except.ok.inj (discover_sealed.symm.trans hdiscover)
  have hunread : hampered.unread .sealed
      [⟨⟨"", ["src", "m.py"]⟩, "m", false⟩, ⟨⟨"", ["src", "x.py"]⟩, "x", false⟩] =
        [["src", "x.py"]] := by decide
  exact ⟨report, _, hrun, hunread, (hpass (by rw [hunread]; simp)).1 report hrun⟩

/-- A module, and a directory with the name of one. -/
def FileTree.doored : FileTree := ⟨[(["src"], .directory),
  (["src", "m.py"], .file (encode "class A:\n    f = bind_view(1)\n")),
  (["src", "x.py"], .directory)]⟩

/-- A directory with the name of a module interrupts the pass before any module is scanned. -/
theorem Request.run_doored : (beside.run .doored).result =
    .error (.file (.at .isDirectory ⟨"", ["src", "x.py"]⟩)) := by
  have hbelow : FileTree.doored.below beside.sourceRoot ".py" =
      [⟨"", ["m.py"]⟩, ⟨"", ["x.py"]⟩].mergeSort Path.le := rfl
  refine run_of_undiscovered ?_
  unfold discover candidateFiles
  rw [hbelow, List.mergeSort_of_pairwise (by decide)]
  rfl

end ElementBinding
