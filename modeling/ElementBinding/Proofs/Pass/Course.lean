import ElementBinding.Proofs.FileTree.Contents
import ElementBinding.Proofs.Pass.Emission

/-!
# The course of a pass

A pass that gives a report has discovered its modules, emitted its owners one after another, and
pruned what nobody claims. Its report is a function of what these three have given, so statements
about passes become statements about the trees between them.
-/
namespace ElementBinding
open ElementBinding.Text

/-- The generated units that were neither handed over nor are to be kept. -/
def unclaimed (seen keep : List String) (generated : List Path) : List Path :=
  generated.filter fun path => !seen.contains path.text && !keep.contains path.text

/-- What pruning can do: the paths it gives, the tree it leaves, and the units found out of date. -/
inductive Prunes (checkOnly : Bool) (root : Path) (enabled : Bool) (seen keep : List String)
    (tree : FileTree) : List String → FileTree → List String → Prop
  | skipped (disabled : enabled = false) : Prunes checkOnly root enabled seen keep tree [] tree []
  | checked {generated : List Path} (on : enabled = true) (check : checkOnly = true)
      (found : generatedBelow tree root = .ok generated) :
      Prunes checkOnly root enabled seen keep tree
        ((unclaimed seen keep generated).map (·.text)) tree
        ((unclaimed seen keep generated).map (·.text))
  | deleted {generated : List Path} {next : FileTree} (on : enabled = true)
      (real : checkOnly = false) (found : generatedBelow tree root = .ok generated)
      (applied : tree.applyAll ((unclaimed seen keep generated).map fun path =>
        .delete (root ++ path)) = (next, none)) :
      Prunes checkOnly root enabled seen keep tree
        ((unclaimed seen keep generated).map (·.text)) next []

/-- What pruning leaves, whether it is done or gives up at a unit that cannot be deleted. -/
inductive PrunesSome (checkOnly : Bool) (root : Path) (enabled : Bool) (seen keep : List String)
    (tree : FileTree) : FileTree → Prop
  | nothing : PrunesSome checkOnly root enabled seen keep tree tree
  | deleted {generated front : List Path} {next : FileTree} (on : enabled = true)
      (real : checkOnly = false) (found : generatedBelow tree root = .ok generated)
      (doomed : front <+: unclaimed seen keep generated)
      (applied : tree.applyAll (front.map fun path => .delete (root ++ path)) = (next, none)) :
      PrunesSome checkOnly root enabled seen keep tree next

theorem Prunes.toPrunesSome {checkOnly enabled : Bool} {root : Path}
    {seen keep pruned stale : List String}
    {tree next : FileTree} (h : Prunes checkOnly root enabled seen keep tree pruned next stale) :
    PrunesSome checkOnly root enabled seen keep tree next := by
  cases h with
  | skipped => exact .nothing
  | checked => exact .nothing
  | deleted on real found applied => exact .deleted on real found List.prefix_rfl applied

section

variable {site after : Site}

private theorem pruneUnit_check (path : Path) (hcheck : site.sink.checkOnly = true) :
    ∃ after, (DirectorySink.pruneUnit path).from site = (.ok ⟨⟩, after) ∧
      SiteAfter site after site.tree [] [path.text] := by
  unfold DirectorySink.pruneUnit
  rw [Action.from_bind_of_ok (Action.from_get site), if_pos hcheck, Action.from_set]
  exact ⟨_, rfl, ⟨rfl, rfl, rfl, (List.append_nil _).symm, rfl⟩⟩

private theorem pruneUnit_real (path : Path) (hcheck : site.sink.checkOnly = false) :
    match site.tree.apply (.delete (site.sink.root ++ path)) with
    | .error fault => (DirectorySink.pruneUnit path).from site = (.error fault, site)
    | .ok tree => ∃ after, (DirectorySink.pruneUnit path).from site = (.ok ⟨⟩, after) ∧
        SiteAfter site after tree [] [] := by
  unfold DirectorySink.pruneUnit
  rw [Action.from_bind_of_ok (Action.from_get site), if_neg (by rw [hcheck]; simp),
    Action.from_bind, Action.from_lift]
  cases site.tree.apply (.delete (site.sink.root ++ path)) with
  | error fault => rfl
  | ok tree =>
    exact ⟨_, rfl, ⟨rfl, rfl, rfl, (List.append_nil _).symm, (List.append_nil _).symm⟩⟩

private theorem pruneAll_check (paths : List Path) (hcheck : site.sink.checkOnly = true) :
    ∃ after, (paths.forM DirectorySink.pruneUnit).from site = (.ok ⟨⟩, after) ∧
      SiteAfter site after site.tree [] (paths.map (·.text)) := by
  induction paths generalizing site with
  | nil => exact ⟨site, rfl, ⟨rfl, rfl, rfl, by simp, by simp⟩⟩
  | cons path rest ih =>
    obtain ⟨middle, hfirst, hmiddle⟩ := pruneUnit_check path hcheck
    obtain ⟨after, hrest, hafter⟩ := ih (hmiddle.checkOnly.trans hcheck)
    rw [hmiddle.tree] at hafter
    refine ⟨after, ?_, hmiddle.trans hafter⟩
    rw [List.forM_eq_forM, List.forM_cons, Action.from_bind_of_ok hfirst]
    exact hrest

private theorem pruneAll_real (paths : List Path) (hcheck : site.sink.checkOnly = false) :
    match site.tree.applyAll (paths.map fun path => .delete (site.sink.root ++ path)) with
    | (next, none) => ∃ after, (paths.forM DirectorySink.pruneUnit).from site = (.ok ⟨⟩, after) ∧
        SiteAfter site after next [] []
    | (next, some fault) =>
        ∃ after, (paths.forM DirectorySink.pruneUnit).from site = (.error fault, after) ∧
          after.tree = next := by
  induction paths generalizing site with
  | nil => exact ⟨site, rfl, ⟨rfl, rfl, rfl, by simp, by simp⟩⟩
  | cons path rest ih =>
    rw [List.map_cons, FileTree.applyAll, List.forM_eq_forM, List.forM_cons]
    have hunit := pruneUnit_real path hcheck
    cases happly : site.tree.apply (.delete (site.sink.root ++ path)) with
    | error fault =>
      rw [happly] at hunit
      exact ⟨site, Action.from_bind_of_error hunit _, rfl⟩
    | ok tree =>
      rw [happly] at hunit
      obtain ⟨middle, hfirst, hmiddle⟩ := hunit
      have hrest := ih (hmiddle.checkOnly.trans hcheck)
      rw [hmiddle.tree, hmiddle.root] at hrest
      rw [Action.from_bind_of_ok hfirst]
      dsimp only
      rcases hall : tree.applyAll (rest.map fun path => .delete (site.sink.root ++ path)) with
        ⟨next, _ | fault⟩
      · rw [hall] at hrest
        obtain ⟨after, hrun, hafter⟩ := hrest
        exact ⟨after, hrun, hmiddle.trans hafter⟩
      · rw [hall] at hrest
        exact hrest

private theorem prune_from (keep : List String) (site : Site) :
    (DirectorySink.prune keep).from site =
      match generatedBelow site.tree site.sink.root with
      | .error fault => (.error fault, site)
      | .ok generated =>
        match ((unclaimed site.sink.seen keep generated).forM
          DirectorySink.pruneUnit).from site with
        | (.error fault, after) => (.error fault, after)
        | (.ok _, after) =>
          (.ok ((unclaimed site.sink.seen keep generated).map (·.text)), after) := by
  unfold DirectorySink.prune unclaimed
  rw [Action.from_bind_of_ok (Action.from_get site), Action.from_bind, Action.from_lift]
  cases generatedBelow site.tree site.sink.root with
  | error fault => rfl
  | ok generated =>
    simp only [Action.from_bind, Action.from_pure]
    rcases Action.from _ site with ⟨_ | _, after⟩
    · rfl
    · rfl

private theorem skipPrune (request : Request) (site : Site) :
    ∃ after, Action.from (do
        if request.prune then modify (·.report .pruneSkipped)
        return [] : Action Site Interruption (List String)) site = (.ok [], after) ∧
      SiteAfter site after site.tree [] [] := by
  cases request.prune with
  | true =>
    exact ⟨_, rfl, ⟨rfl, rfl, rfl, (List.append_nil _).symm, (List.append_nil _).symm⟩⟩
  | false =>
    exact ⟨_, rfl, ⟨rfl, rfl, rfl, (List.append_nil _).symm, (List.append_nil _).symm⟩⟩

/-- Pruning does one of the things it can do, or gives up on the way. -/
private theorem pruneStale_settles {request : Request} (clean : Bool) (keep : List String)
    (hcheck : site.sink.checkOnly = request.checkOnly) :
    match (pruneStale request clean keep).from site with
    | (.ok pruned, after) => ∃ tree stale, Prunes request.checkOnly site.sink.root
        (request.prune && clean) site.sink.seen keep site.tree pruned tree stale ∧
          SiteAfter site after tree [] stale
    | (.error _, after) => PrunesSome request.checkOnly site.sink.root (request.prune && clean)
        site.sink.seen keep site.tree after.tree := by
  unfold pruneStale
  by_cases hon : request.prune && clean
  · rw [if_pos hon, Action.from_adapt, prune_from]
    cases hfound : generatedBelow site.tree site.sink.root with
    | error fault => exact .nothing
    | ok generated =>
      cases hcheckOnly : request.checkOnly with
      | true =>
        obtain ⟨last, hall, hlast⟩ := pruneAll_check (unclaimed site.sink.seen keep generated)
          (hcheck.trans hcheckOnly)
        simp only [hall, Except.mapError]
        exact ⟨_, _, .checked hon rfl hfound, hlast⟩
      | false =>
        have hall := pruneAll_real (unclaimed site.sink.seen keep generated)
          (hcheck.trans hcheckOnly)
        rcases happly : site.tree.applyAll ((unclaimed site.sink.seen keep generated).map
          fun path => .delete (site.sink.root ++ path)) with ⟨next, _ | fault⟩
        · rw [happly] at hall
          obtain ⟨last, hrun, hlast⟩ := hall
          simp only [hrun, Except.mapError]
          exact ⟨_, _, .deleted hon rfl hfound happly, hlast⟩
        · rw [happly] at hall
          obtain ⟨last, hrun, hlast⟩ := hall
          simp only [hrun, Except.mapError]
          -- The units that come before the one that cannot be deleted are gone.
          obtain ⟨steps, hsteps, happlied⟩ := FileTree.applyAll_front happly
          obtain ⟨front, hdoomed, rfl⟩ := List.prefix_map_iff.mp hsteps
          rw [hlast]
          exact .deleted hon rfl hfound hdoomed happlied
  · rw [if_neg hon]
    obtain ⟨last, hskip, hlast⟩ := skipPrune request site
    simp only [hskip]
    exact ⟨_, _, .skipped (Bool.eq_false_iff.mpr hon), hlast⟩

theorem pruneStale_ok {request : Request} {clean : Bool} {keep pruned : List String}
    (hcheck : site.sink.checkOnly = request.checkOnly)
    (h : (pruneStale request clean keep).from site = (.ok pruned, after)) :
    ∃ tree stale, Prunes request.checkOnly site.sink.root (request.prune && clean) site.sink.seen
      keep site.tree pruned tree stale ∧ SiteAfter site after tree [] stale := by
  have hsettles := pruneStale_settles clean keep hcheck
  rwa [h] at hsettles

theorem pruneStale_error {request : Request} {clean : Bool} {keep : List String}
    {interruption : Interruption} (hcheck : site.sink.checkOnly = request.checkOnly)
    (h : (pruneStale request clean keep).from site = (.error interruption, after)) :
    PrunesSome request.checkOnly site.sink.root (request.prune && clean) site.sink.seen keep
      site.tree after.tree := by
  have hsettles := pruneStale_settles clean keep hcheck
  rwa [h] at hsettles

theorem pruneStale_of {request : Request} {clean : Bool} {keep pruned stale : List String}
    {tree : FileTree} (hcheck : site.sink.checkOnly = request.checkOnly)
    (h : Prunes request.checkOnly site.sink.root (request.prune && clean) site.sink.seen
      keep site.tree pruned tree stale) :
    ∃ after, (pruneStale request clean keep).from site = (.ok pruned, after) ∧
      SiteAfter site after tree [] stale := by
  unfold pruneStale
  cases h with
  | skipped disabled =>
    rw [if_neg (by rw [disabled]; simp)]
    exact skipPrune request site
  | checked on check found =>
    rename_i generated
    obtain ⟨last, hall, hlast⟩ := pruneAll_check (unclaimed site.sink.seen keep generated)
      (hcheck.trans check)
    rw [if_pos on, Action.from_adapt, prune_from, found]
    simp only [hall, Except.mapError]
    exact ⟨last, rfl, hlast⟩
  | deleted on real found applied =>
    rename_i generated
    have hall := pruneAll_real (unclaimed site.sink.seen keep generated) (hcheck.trans real)
    rw [applied] at hall
    obtain ⟨last, hrun, hlast⟩ := hall
    rw [if_pos on, Action.from_adapt, prune_from, found]
    simp only [hrun, Except.mapError]
    exact ⟨last, rfl, hlast⟩

private theorem reportAll_from (events : List Event) (site : Site) :
    ∃ after, (reportAll events).from site = (.ok ⟨⟩, after) ∧
      SiteAfter site after site.tree [] [] := by
  unfold reportAll
  rw [Action.forM_modify_from]
  refine ⟨_, rfl, ?_⟩
  induction events generalizing site with
  | nil => exact ⟨rfl, rfl, rfl, by simp, by simp⟩
  | cons event rest ih =>
    have hfirst : SiteAfter site (site.report event) site.tree [] [] :=
      ⟨rfl, rfl, rfl, (List.append_nil _).symm, (List.append_nil _).symm⟩
    exact hfirst.trans (ih (site.report event))

end

namespace Request

def scans (request : Request) (tree : FileTree) (files : List SourceFile) : List ModuleScan :=
  files.map (request.scanFile tree)

def classes (request : Request) (tree : FileTree) (files : List SourceFile) :
    List DeclaredClass :=
  (request.scans tree files).flatMap (·.classes)

def built (request : Request) (tree : FileTree) (files : List SourceFile) : Build :=
  build (request.classes tree files) request.profile (files.map (·.moduleName))

def clean (request : Request) (tree : FileTree) (files : List SourceFile) : Bool :=
  ((request.scans tree files).map (·.report)).all fun module =>
    module.judgement.verdict ≠ .reject

/-- The report of a pass, from what was emitted, found out of date, and pruned. -/
def reported (request : Request) (tree : FileTree) (files : List SourceFile)
    (emitted : List OwnerReport) (stale pruned : List String) : Report :=
  let build := request.built tree files
  let rejected := build.rejected.map fun (declared, fault) =>
    rejectedReport request.profile declared fault
  { profileId := request.profile.id
    parserVersion := parserName request.parserVersion
    sourceRoot := request.sourceRoot.text
    outputRoot := request.target.text
    checkOnly := request.checkOnly
    modules := (request.scans tree files).map (·.report)
    owners := rejected ++ emitted
    counts := .of (rejected ++ emitted) build.skipped.length
    staleUnits := sortedDistinct stale
    prunedUnits := pruned }

/-- What happens between the tree a pass starts from and the one it leaves. -/
structure Course (request : Request) (tree : FileTree) where
  files : List SourceFile
  emitted : List OwnerReport
  /-- The tree between emitting and pruning. -/
  middle : FileTree
  seen : List String
  stale : List String
  pruned : List String
  last : FileTree
  outdated : List String
  discovered : discover tree request.sourceRoot request.exclude = .ok files
  emits : EmitsAll request.checkOnly request.target request.profile (request.classes tree files)
    tree (request.built tree files).specs emitted middle seen stale
  prunes : Prunes request.checkOnly request.target (request.prune && request.clean tree files) seen
    (retainedPaths request.profile (request.built tree files) emitted) middle pruned last outdated

def Course.report {request : Request} {tree : FileTree} (course : request.Course tree) : Report :=
  request.reported tree course.files course.emitted (course.stale ++ course.outdated) course.pruned

variable {request : Request} {tree : FileTree} {report : Report}

theorem Course.mem_emitted (course : request.Course tree) {owner : OwnerReport}
    (howner : owner ∈ course.report.owners) (haccepted : owner.judgement.verdict ≠ .reject) :
    owner ∈ course.emitted := by
  refine (List.mem_append.mp howner).resolve_left fun hrejected => haccepted ?_
  obtain ⟨rejected, -, rfl⟩ := List.mem_map.mp hrejected
  rfl

/-- The last part of a pass: the report is written if it is to be. -/
def conclude (request : Request) (report : Report) : Action Site Interruption Report := do
  match request.reportDirectory with
  | none => return report
  | some directory =>
    let (tree, outcome) := writeReport (← get).tree report directory
    modify fun site => { site with tree }
    match outcome with
    | .error interruption => throw interruption
    | .ok _ =>
      modify (·.report (.reportWritten directory))
      return report

/-- The part of a pass that follows the reports on its modules. -/
def emitAndPrune (request : Request) (tree : FileTree) (files : List SourceFile) :
    Action Site Interruption Report := do
  let emitted ← (request.built tree files).specs.mapM
    (emitOwner request (request.classes tree files))
  let pruned ← pruneStale request (request.clean tree files)
    (retainedPaths request.profile (request.built tree files) emitted)
  conclude request (request.reported tree files emitted (← get).sink.stale pruned)

def proceed (request : Request) (tree : FileTree) (files : List SourceFile) :
    Action Site Interruption Report := do
  reportAll ((request.scans tree files).flatMap (·.events))
  reportAll ((request.built tree files).colliding.map fun (_, fault) => .collision fault)
  request.emitAndPrune tree files

private theorem work_from_reported {site first : Site}
    (h : (reportAll ((excludedFiles site.tree request.sourceRoot request.exclude).map
      .excluded)).from site = (.ok ⟨⟩, first)) :
    request.work.from site =
      match discover site.tree request.sourceRoot request.exclude with
      | .error fault => (.error (.file fault), first)
      | .ok files => (request.proceed site.tree files).from first := by
  unfold work
  rw [Action.from_bind_of_ok (Action.from_get _), Action.from_bind_of_ok h]
  dsimp only
  cases discover site.tree request.sourceRoot request.exclude with
  | error fault => rfl
  | ok files => exact Action.from_bind_of_ok (Action.from_pure files first) _

private theorem work_from (request : Request) (site : Site) :
    ∃ first, SiteAfter site first site.tree [] [] ∧
      request.work.from site =
        match discover site.tree request.sourceRoot request.exclude with
        | .error fault => (.error (.file fault), first)
        | .ok files => (request.proceed site.tree files).from first := by
  obtain ⟨first, hreported, hfirst⟩ := reportAll_from
    ((excludedFiles site.tree request.sourceRoot request.exclude).map .excluded) site
  exact ⟨first, hfirst, work_from_reported hreported⟩

private theorem conclude_ok {site after : Site} {found : Report}
    (h : (request.conclude report).from site = (.ok found, after)) :
    found = report ∧
      match request.reportDirectory with
      | none => after.tree = site.tree
      | some directory => ∃ file,
          writeReport site.tree report directory = (after.tree, .ok file) := by
  unfold conclude at h
  split at h
  · obtain ⟨hfound, rfl⟩ := Prod.mk.inj h
    exact ⟨(Except.ok.inj hfound).symm, rfl⟩
  · rename_i directory _
    rw [Action.from_bind_of_ok (Action.from_get site)] at h
    rcases hwrite : writeReport site.tree report directory with ⟨tree, interruption | file⟩
    · rw [hwrite] at h
      simp [Action.from_bind] at h
    · rw [hwrite] at h
      simp only [Action.from_bind, Action.from_modify, Action.from_pure, Prod.mk.injEq,
        Except.ok.injEq] at h
      obtain ⟨rfl, rfl⟩ := h
      exact ⟨rfl, file, rfl⟩

theorem writeReport_keepsFiles (tree : FileTree) (report : Report) (directory : Path) :
    FileTree.KeepsFiles tree (writeReport tree report directory).1 := by
  have hmake : FileTree.KeepsFiles tree (tree.applyAll (tree.makeDirectories directory)).1 := by
    obtain ⟨paths, hpaths⟩ := FileTree.makeDirectories_eq_map tree directory
    rw [hpaths]
    exact FileTree.applyAll_keepsFiles (by simp)
  unfold writeReport
  rcases hmade : tree.applyAll (tree.makeDirectories directory) with ⟨middle, _ | fault⟩
  · rw [hmade] at hmake
    cases htext : report.fileText? with
    | none => exact hmake
    | some text =>
      have hwrite : FileTree.KeepsFiles middle (middle.applyAll
          [.openFile (reportFile directory), .append (reportFile directory) (encode text)]).1 :=
        FileTree.applyAll_keepsFiles (by simp)
      dsimp only
      split
      all_goals
        rename_i heq
        rw [heq] at hwrite
        exact hmake.trans hwrite
  · rw [hmade] at hmake
    exact hmake

/-- What is left of a tree behind the place where a report is written, if one is to be. -/
inductive Filed (request : Request) (tree : FileTree) : FileTree → Prop
  | unfiled : Filed request tree tree
  | filed {directory : Path} (asked : request.reportDirectory = some directory) (report : Report) :
      Filed request tree (writeReport tree report directory).1

theorem Filed.keepsFiles {after : FileTree} (h : request.Filed tree after) :
    tree.KeepsFiles after := by
  cases h with
  | unfiled => exact .refl tree
  | filed asked report => exact writeReport_keepsFiles tree report _

private theorem conclude_error {site after : Site} {interruption : Interruption}
    (h : (request.conclude report).from site = (.error interruption, after)) :
    request.Filed site.tree after.tree := by
  unfold conclude at h
  split at h
  · simp at h
  · rename_i directory asked
    rw [Action.from_bind_of_ok (Action.from_get site)] at h
    rcases hwrite : writeReport site.tree report directory with ⟨tree, found | file⟩
    · rw [hwrite] at h
      simp only [Action.from_bind, Action.from_modify, Action.from_throw, Prod.mk.injEq] at h
      have hfiled : request.Filed site.tree (writeReport site.tree report directory).1 :=
        .filed asked report
      rwa [hwrite, show tree = after.tree from congrArg Site.tree h.2] at hfiled
    · rw [hwrite] at h
      simp only [Action.from_bind, Action.from_modify, Action.from_pure, Prod.mk.injEq,
        reduceCtorEq, false_and] at h

def start (request : Request) (tree : FileTree) : Site :=
  { tree, sink := { root := request.target, checkOnly := request.checkOnly } }

theorem run_of_undiscovered {fault : FileFault}
    (h : discover tree request.sourceRoot request.exclude = .error fault) :
    (request.run tree).result = .error (.file fault) := by
  obtain ⟨first, -, hwork⟩ := work_from request (request.start tree)
  rw [show (request.start tree).tree = tree from rfl, h] at hwork
  exact congrArg Prod.fst hwork

private theorem tree_of_undiscovered {fault : FileFault}
    (h : discover tree request.sourceRoot request.exclude = .error fault) :
    (request.run tree).tree = tree := by
  obtain ⟨first, hfirst, hwork⟩ := work_from request (request.start tree)
  rw [show (request.start tree).tree = tree from rfl, h] at hwork
  exact (congrArg (·.2.tree) hwork).trans hfirst.tree

/-- Once the modules are discovered, nothing but events comes before the first emission. -/
private theorem run_from_discovered {files : List SourceFile}
    (h : discover tree request.sourceRoot request.exclude = .ok files) :
    ∃ site after, SiteAfter (request.start tree) site tree [] [] ∧
      (request.emitAndPrune tree files).from site = ((request.run tree).result, after) ∧
      (request.run tree).tree = after.tree := by
  obtain ⟨first, hfirst, hwork⟩ := work_from request (request.start tree)
  rw [show (request.start tree).tree = tree from rfl, h] at hwork
  obtain ⟨second, hscans, hsecond⟩ := reportAll_from
    ((request.scans tree files).flatMap (·.events)) first
  obtain ⟨third, hcolliding, hthird⟩ := reportAll_from
    ((request.built tree files).colliding.map fun (_, fault) => .collision fault) second
  refine ⟨third, _, (hfirst.quiet hsecond).quiet hthird, ?_, rfl⟩
  refine Eq.trans ?_ hwork.symm
  exact ((Action.from_bind_of_ok hscans _).trans (Action.from_bind_of_ok hcolliding _)).symm

theorem run_eq_proceed {files : List SourceFile}
    (hexcluded : excludedFiles tree request.sourceRoot request.exclude = [])
    (hdiscover : discover tree request.sourceRoot request.exclude = .ok files) :
    request.run tree =
      ⟨((request.proceed tree files).from (request.start tree)).1,
        ((request.proceed tree files).from (request.start tree)).2.tree,
        ((request.proceed tree files).from (request.start tree)).2.events⟩ := by
  have hwork : request.work.from (request.start tree) =
      (request.proceed tree files).from (request.start tree) := by
    unfold work
    rw [Action.from_bind_of_ok (Action.from_get _)]
    dsimp only
    rw [show (request.start tree).tree = tree from rfl, hexcluded, hdiscover]
    rfl
  rw [← hwork]
  rfl

/-- A pass that gives a report has taken a course, and has written the report if it was to. -/
theorem run_ok (h : (request.run tree).result = .ok report) :
    ∃ course : request.Course tree, report = course.report ∧
      match request.reportDirectory with
      | none => (request.run tree).tree = course.last
      | some directory => ∃ file,
          writeReport course.last report directory = ((request.run tree).tree, .ok file) := by
  cases hdiscover : discover tree request.sourceRoot request.exclude with
  | error fault => simp [run_of_undiscovered hdiscover] at h
  | ok files =>
    obtain ⟨site, after, hsite, hrun, htree⟩ := run_from_discovered hdiscover
    rw [h] at hrun
    rw [htree]
    obtain ⟨emitted, second, hemit, hrun⟩ := Action.from_bind_ok hrun
    obtain ⟨middle, seen, stale, hemits, hsecond⟩ := emitAll_ok hsite.checkOnly hemit
    have hsite' := hsite.trans hsecond
    obtain ⟨pruned, third, hprune, hrun⟩ := Action.from_bind_ok hrun
    obtain ⟨last, outdated, hprunes, hthird⟩ := pruneStale_ok hsite'.checkOnly hprune
    have hsite'' := hsite'.trans hthird
    rw [Action.from_bind_of_ok (Action.from_get _), hsite''.stale] at hrun
    obtain ⟨rfl, hconclude⟩ := conclude_ok hrun
    rw [hsite.root, hsite.tree] at hemits
    rw [hsite'.root, hsite'.tree, hsite'.seen] at hprunes
    refine ⟨⟨files, emitted, middle, seen, stale, pruned, last, outdated, hdiscover, hemits,
      hprunes⟩, rfl, ?_⟩
    split at hconclude
    · exact hconclude.trans hsite''.tree
    · rw [hsite''.tree] at hconclude
      exact hconclude

/-- What a pass can have done before its report: some emissions, or all of them and some pruning. -/
inductive Worked (request : Request) (tree : FileTree) : FileTree → Prop
  | emitted {last : FileTree} {files : List SourceFile} {specs : List Spec}
      {reports : List OwnerReport} {seen stale : List String}
      (emits : EmitsAll request.checkOnly request.target request.profile
        (request.classes tree files) tree specs reports last seen stale) : Worked request tree last
  | pruned {middle last : FileTree} {files : List SourceFile} {emitted : List OwnerReport}
      {seen stale : List String}
      (discovered : discover tree request.sourceRoot request.exclude = .ok files)
      (emits : EmitsAll request.checkOnly request.target request.profile
        (request.classes tree files) tree (request.built tree files).specs emitted
          middle seen stale)
      (prunes : PrunesSome request.checkOnly request.target
        (request.prune && request.clean tree files) seen
        (retainedPaths request.profile (request.built tree files) emitted) middle last) :
      Worked request tree last

theorem run_error {interruption : Interruption}
    (h : (request.run tree).result = .error interruption) :
    ∃ last, request.Worked tree last ∧ request.Filed last (request.run tree).tree := by
  cases hdiscover : discover tree request.sourceRoot request.exclude with
  | error fault =>
    rw [tree_of_undiscovered hdiscover]
    have hemits : EmitsAll request.checkOnly request.target request.profile
        (request.classes tree []) tree [] [] tree [] [] := .nil tree
    exact ⟨tree, .emitted hemits, .unfiled⟩
  | ok files =>
    obtain ⟨site, after, hsite, hrun, htree⟩ := run_from_discovered hdiscover
    rw [h] at hrun
    rw [htree]
    unfold emitAndPrune at hrun
    -- The emissions fail, or they do not and pruning fails, or only filing the report does.
    rcases hemit : ((request.built tree files).specs.mapM
      (emitOwner request (request.classes tree files))).from site with ⟨_ | emitted, second⟩
    · rw [Action.from_bind_of_error hemit] at hrun
      obtain ⟨-, rfl⟩ := Prod.mk.inj hrun
      obtain ⟨front, reports, seen, stale, hemits⟩ := emitAll_error hsite.checkOnly hemit
      rw [hsite.root, hsite.tree] at hemits
      exact ⟨_, .emitted hemits, .unfiled⟩
    · rw [Action.from_bind_of_ok hemit] at hrun
      obtain ⟨middle, seen, stale, hemits, hsecond⟩ := emitAll_ok hsite.checkOnly hemit
      have hsite' := hsite.trans hsecond
      rw [hsite.root, hsite.tree] at hemits
      rcases hprune : (pruneStale request (request.clean tree files)
        (retainedPaths request.profile (request.built tree files) emitted)).from second with
        ⟨_ | pruned, third⟩
      · rw [Action.from_bind_of_error hprune] at hrun
        obtain ⟨-, rfl⟩ := Prod.mk.inj hrun
        have hprunes := pruneStale_error hsite'.checkOnly hprune
        rw [hsite'.root, hsite'.tree, hsite'.seen] at hprunes
        exact ⟨_, .pruned hdiscover hemits hprunes, .unfiled⟩
      · rw [Action.from_bind_of_ok hprune, Action.from_bind_of_ok (Action.from_get _)] at hrun
        obtain ⟨last, outdated, hprunes, hthird⟩ := pruneStale_ok hsite'.checkOnly hprune
        rw [hsite'.root, hsite'.tree, hsite'.seen] at hprunes
        have hfiled := conclude_error hrun
        rw [hthird.tree] at hfiled
        exact ⟨last, .pruned hdiscover hemits hprunes.toPrunesSome, hfiled⟩

theorem Course.worked (course : request.Course tree) : request.Worked tree course.last :=
  .pruned course.discovered course.emits course.prunes.toPrunesSome

theorem Course.filed (course : request.Course tree) {after : FileTree}
    (h : match request.reportDirectory with
      | none => after = course.last
      | some directory => ∃ file,
          writeReport course.last course.report directory = (after, .ok file)) :
    request.Filed course.last after := by
  split at h
  · exact h ▸ .unfiled
  · rename_i directory asked
    obtain ⟨file, hwrite⟩ := h
    have hfiled : request.Filed course.last
        (writeReport course.last course.report directory).1 := .filed asked course.report
    rwa [hwrite] at hfiled

/-- Whatever becomes of a pass, it has done its work on the tree, or some of it, and has filed its
report behind it, or not. -/
theorem run_worked (request : Request) (tree : FileTree) :
    ∃ last, request.Worked tree last ∧ request.Filed last (request.run tree).tree := by
  cases hresult : (request.run tree).result with
  | error interruption => exact run_error hresult
  | ok report =>
    obtain ⟨course, rfl, hreport⟩ := run_ok hresult
    exact ⟨course.last, course.worked, course.filed hreport⟩

theorem run_of (course : request.Course tree) (h : request.reportDirectory = none) :
    (request.run tree).result = .ok course.report ∧ (request.run tree).tree = course.last := by
  obtain ⟨site, after, hsite, hrun, htree⟩ := run_from_discovered course.discovered
  unfold emitAndPrune at hrun
  obtain ⟨second, hemit, hsecond⟩ := emitAll_of course.emits hsite.checkOnly hsite.root hsite.tree
  rw [Action.from_bind_of_ok hemit] at hrun
  have hsite' := hsite.trans hsecond
  have hprunes := course.prunes
  obtain ⟨third, hprune, hthird⟩ := pruneStale_of hsite'.checkOnly (by
    rw [hsite'.root, hsite'.tree, hsite'.seen]
    exact hprunes)
  rw [Action.from_bind_of_ok hprune, Action.from_bind_of_ok (Action.from_get _)] at hrun
  have hsite'' := hsite'.trans hthird
  have hconclude (report : Report) :
      (request.conclude report).from third = (.ok report, third) := by
    rw [conclude, h]
    rfl
  rw [hconclude, hsite''.stale] at hrun
  obtain ⟨hresult, rfl⟩ := Prod.mk.inj hrun
  exact ⟨hresult.symm, htree.trans hsite''.tree⟩

/-- The request without a place for its report. -/
def unfiled (request : Request) : Request := { request with reportDirectory := none }

private theorem proceed_eq (request : Request) (tree : FileTree) (files : List SourceFile) :
    request.proceed tree files = request.unfiled.proceed tree files >>= request.conclude := by
  have hconclude (report : Report) : request.unfiled.conclude report = pure report := rfl
  unfold proceed emitAndPrune
  simp only [hconclude, bind_assoc, pure_bind]
  rfl

/-- A pass is the one that writes no report, and the writing of its report behind it. -/
theorem work_from_unfiled (request : Request) (site : Site) :
    request.work.from site = (request.unfiled.work >>= request.conclude).from site := by
  obtain ⟨first, hreported, -⟩ := reportAll_from
    ((excludedFiles site.tree request.sourceRoot request.exclude).map .excluded) site
  have hunfiled : request.unfiled.work.from site =
      match discover site.tree request.sourceRoot request.exclude with
      | .error fault => (.error (.file fault), first)
      | .ok files => (request.unfiled.proceed site.tree files).from first :=
    work_from_reported hreported
  rw [work_from_reported hreported, Action.from_bind, hunfiled]
  cases discover site.tree request.sourceRoot request.exclude with
  | error fault => rfl
  | ok files =>
    dsimp only
    rw [proceed_eq, Action.from_bind]

/-- What a pass gives and leaves, told from the pass that writes no report. -/
theorem run_unfiled (request : Request) (tree : FileTree) :
    ((request.run tree).result, (request.run tree).tree) =
      match (request.unfiled.run tree).result, request.reportDirectory with
      | .error interruption, _ => (.error interruption, (request.unfiled.run tree).tree)
      | .ok report, none => (.ok report, (request.unfiled.run tree).tree)
      | .ok report, some directory =>
        match writeReport (request.unfiled.run tree).tree report directory with
        | (after, .ok _) => (.ok report, after)
        | (after, .error interruption) => (.error interruption, after) := by
  have hrun : (request.run tree).result = (request.work.from (request.start tree)).1 ∧
      (request.run tree).tree = (request.work.from (request.start tree)).2.tree := ⟨rfl, rfl⟩
  have hunfiled :
      (request.unfiled.run tree).result = (request.unfiled.work.from (request.start tree)).1 ∧
      (request.unfiled.run tree).tree =
        (request.unfiled.work.from (request.start tree)).2.tree := ⟨rfl, rfl⟩
  rw [hrun.1, hrun.2, hunfiled.1, hunfiled.2, work_from_unfiled, Action.from_bind]
  rcases request.unfiled.work.from (request.start tree) with ⟨interruption | report, site⟩
  · rfl
  · dsimp only
    unfold conclude
    cases request.reportDirectory with
    | none => rfl
    | some directory =>
      dsimp only
      rw [Action.from_bind_of_ok (Action.from_get site)]
      rcases writeReport site.tree report directory with ⟨after, interruption | file⟩
      · rfl
      · rfl

end Request

end ElementBinding
