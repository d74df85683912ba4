import ElementBinding.Proofs.Pass.Frame

/-!
# A second pass

A pass leaves a tree on which the same pass has nothing to do. What was emitted is found as it was
rendered, what was refused or could not be written meets the same obstacle again, and nothing that
discovery reads has changed. This needs a target whose directories, once made, are not taken for
modules themselves.
-/
namespace ElementBinding
open ElementBinding.Text

def OwnerReport.unchanged (owner : OwnerReport) : OwnerReport := { owner with changed := false }

def emittedPaths (owners : List OwnerReport) : List String :=
  (owners.filter (·.error.isNone)).filterMap (·.unitPath)

theorem emittedPaths_cons (owner : OwnerReport) (owners : List OwnerReport) :
    emittedPaths (owner :: owners) = emittedPaths [owner] ++ emittedPaths owners := by
  unfold emittedPaths
  rw [← List.filterMap_append, ← List.filter_append, List.singleton_append]

private theorem emittedPaths_eq (owners : List OwnerReport) : emittedPaths owners =
    ((owners.map (·.unit)).filter (·.2.1.isNone)).filterMap (·.1) := by
  rw [List.filter_map, List.filterMap_map]
  rfl

section

variable {root : Path} {tree before after next last : FileTree} {seen stale : List String}
  {classes : List DeclaredClass} {spec : Spec} {unit : BinderUnit} {report : OwnerReport}
  {profile : Profile} {path leaf : String} {dirs : List String} {touched : Location → Prop}

/-- Once emitted, a unit is kept; what could not be emitted cannot be emitted again. -/
theorem Emits.again (h : Emits false root classes spec unit tree report next stale)
    (hready : Ready root tree) (hrender : spec.render profile = .ok unit)
    (hunit : IsUnitPath unit.path dirs leaf)
    (hplain : readText (encode unit.source) = some unit.source.toList) :
    Emits false root classes spec unit next report.unchanged next [] := by
  have hkept := (h.reworked hready hrender hunit).2.2.2.1
  cases h with
  | kept found => exact .kept found
  | stale _ _ checked => simp at checked
  | refused found stopped => exact .refused found stopped
  | unwritten found differs unchecked applied =>
    obtain rfl := hkept rfl
    exact .unwritten found differs unchecked applied
  | written _ _ _ applied =>
    obtain ⟨-, place, hlocate, hwrote⟩ := hready.nested.write applied
    have hfind := (FileTree.find?_eq_some_iff _ _ _).mpr ⟨place, hlocate, hwrote.written⟩
    have hmark := Spec.render_isGenerated hrender
    exact .kept (existingUnit_of_generated hfind hplain hmark unit.path)

private theorem blocked_of_fault {existing : Option (List Char)} {fault : FileFault}
    (hready : Ready root tree) (hrender : spec.render profile = .ok unit)
    (hunit : IsUnitPath unit.path dirs leaf)
    (hfound : existingUnit tree (root.extend unit.path) unit.path = .ok existing)
    (happlied : tree.applyAll (tree.writeSteps (root.extend unit.path) (encode unit.source)) =
      (next, some fault)) : Blocked root dirs tree := by
  by_contra hfree
  have hmark := Spec.encode_isGenerated hrender
  obtain ⟨_, happly, -⟩ := hready.write_free hunit hfree hfound hmark
  simp [happly] at happlied

/-- An emission that changes nothing is the same on a tree that was reworked elsewhere. -/
theorem Emits.moved (h : Emits false root classes spec unit before report next stale)
    (hsame : report.changed = false) (hready : Ready root before) (hready' : Ready root after)
    (hrender : spec.render profile = .ok unit) (hunit : IsUnitPath unit.path dirs leaf)
    (hreworked : Reworked root touched before after)
    (huntouched : ¬touched (root.extend unit.path).place) :
    Emits false root classes spec unit after report after [] := by
  have hexisting := existingUnit_congr hready hready' hunit
    (hreworked.lookup_eq (hunit.sourcePlace root) huntouched)
  cases h with
  | kept found => exact .kept (hexisting.trans found)
  | stale _ _ checked => simp at checked
  | written => simp [emittedOwner] at hsame
  | refused found stopped => exact .refused (hexisting.trans found) stopped
  | unwritten found differs unchecked applied =>
    have hblocked := blocked_of_fault hready hrender hunit found applied
    obtain ⟨fault, hbefore, hafter⟩ :=
      hready.write_blocked hready' hunit hreworked hblocked (encode unit.source)
    obtain ⟨-, hfault⟩ := Prod.mk.inj (hbefore.symm.trans applied)
    obtain rfl := Option.some.inj hfault
    exact .unwritten (hexisting.trans found) differs unchecked hafter

/-- No unit can be put at a path. -/
def Stuck (root : Path) (path : String) (dirs : List String) (tree : FileTree) : Prop :=
  (∃ met, existingUnit tree (root.extend path) path = .error met) ∨ Blocked root dirs tree

theorem EmitsAll.not_changed_of_stuck {specs : List Spec} {reports : List OwnerReport}
    (h : EmitsAll false root profile classes tree specs reports last seen stale)
    (hready : Ready root tree) (hplaced : ∀ spec ∈ specs, spec.Placed)
    (hunit : IsUnitPath path dirs leaf) (hstuck : Stuck root path dirs tree) :
    path ∉ changedPaths reports := by
  induction h with
  | nil => simp [changedPaths]
  | @cons spec specs unit tree next last report reports seen stale more rendered first rest ih =>
    obtain ⟨dirs', leaf', hunit'⟩ := hplaced spec List.mem_cons_self
    rw [← (Spec.render_ok rendered).1] at hunit'
    obtain ⟨hnext, -, hone, -, hreworked⟩ := first.reworked hready rendered hunit'
    have hfirst : path ∉ changedPaths [report] := by
      intro hpath
      obtain rfl := hone path hpath
      cases first with
      | kept => simp [changedPaths, emittedOwner] at hpath
      | stale _ _ checked => simp at checked
      | refused => simp [changedPaths, failedOwner, rejectedOwner] at hpath
      | unwritten => simp [changedPaths, failedOwner, rejectedOwner] at hpath
      | written found _ _ applied =>
        rcases hstuck with ⟨met, hmet⟩ | hblocked
        · simp [found] at hmet
        · obtain ⟨fault, hfault, -⟩ := hready.write_blocked hready hunit
            (.refl root (fun _ => False) tree) hblocked (encode unit.source)
          simp [hfault] at applied
    have hplace : ¬ChangedPlace root [report] (root.extend path).place := by
      rintro ⟨other, hother, hplace⟩
      obtain rfl := hone other hother
      exact hfirst (hunit.eq_of_place hunit' hplace ▸ hother)
    -- Other units stand elsewhere, and leave in the way whatever is in the way of this one.
    have hstuck' : Stuck root path dirs next := by
      rcases hstuck with ⟨met, hmet⟩ | hblocked
      · exact .inl ⟨met, (existingUnit_congr hready hnext hunit
          (hreworked.lookup_eq (hunit.sourcePlace root) hplace)).trans hmet⟩
      · exact .inr ((hreworked.blocked_iff hunit.dotless).mpr hblocked)
    rw [changedPaths_cons, List.mem_append, not_or]
    exact ⟨hfirst, ih hnext (fun spec hspec => hplaced spec (List.mem_cons_of_mem _ hspec)) hstuck'⟩

/-- Emissions that change nothing are the same on a tree that was reworked elsewhere. -/
theorem EmitsAll.moved {specs : List Spec} {reports : List OwnerReport}
    (h : EmitsAll false root profile classes before specs reports last seen stale)
    (hsame : ∀ report ∈ reports, report.changed = false) (hready : Ready root before)
    (hready' : Ready root after) (hplaced : ∀ spec ∈ specs, spec.Placed)
    (hreworked : Reworked root touched before after)
    (huntouched : ∀ path ∈ seen, ¬touched (root.extend path).place) :
    EmitsAll false root profile classes after specs reports after seen [] := by
  induction h with
  | nil => exact .nil after
  | @cons spec specs unit before next last report reports seen stale more rendered first rest ih =>
    rw [List.forall_mem_cons] at hsame huntouched
    obtain ⟨dirs, leaf, hunit⟩ := hplaced spec List.mem_cons_self
    rw [← (Spec.render_ok rendered).1] at hunit
    obtain ⟨-, -, -, hkept, -⟩ := first.reworked hready rendered hunit
    obtain rfl := hkept hsame.1
    have hrest := ih hsame.2 hready (fun spec hspec => hplaced spec (List.mem_cons_of_mem _ hspec))
      hreworked huntouched.2
    exact .cons rendered
      (first.moved hsame.1 hready hready' rendered hunit hreworked huntouched.1) hrest

private theorem Emits.stuck (h : Emits false root classes spec unit tree report next stale)
    (hready : Ready root tree) (hrender : spec.render profile = .ok unit)
    (hunit : IsUnitPath unit.path dirs leaf) (hfailed : report.error ≠ none) :
    Stuck root unit.path dirs next := by
  have hkept := (h.reworked hready hrender hunit).2.2.2.1
  cases h with
  | kept => simp [emittedOwner] at hfailed
  | stale _ _ checked => simp at checked
  | written => simp [emittedOwner] at hfailed
  | refused found => exact .inl ⟨_, found⟩
  | unwritten found _ _ applied =>
    obtain rfl := hkept rfl
    exact .inr (blocked_of_fault hready hrender hunit found applied)

private theorem EmitsAll.emitted_of_changed {specs : List Spec} {reports : List OwnerReport}
    (h : EmitsAll false root profile classes tree specs reports last seen stale) :
    ∀ path ∈ changedPaths reports, path ∈ emittedPaths reports := by
  have herror : ∀ owner ∈ reports, owner.changed = true → owner.error = none := by
    induction h with
    | nil => simp
    | cons _ first _ ih =>
      rw [List.forall_mem_cons]
      refine ⟨?_, ih⟩
      cases first <;> simp [emittedOwner, failedOwner, rejectedOwner]
  intro path hpath
  obtain ⟨owner, howner, hunit⟩ := List.mem_filterMap.mp hpath
  obtain ⟨hmem, hchanged⟩ := List.mem_filter.mp howner
  refine List.mem_filterMap.mpr ⟨owner, List.mem_filter.mpr ⟨hmem, ?_⟩, hunit⟩
  rw [herror owner hmem hchanged, Option.isNone_none]

/-- Emissions of units with distinct paths have nothing to do on the tree they left. -/
theorem EmitsAll.again {specs : List Spec} {reports : List OwnerReport}
    (h : EmitsAll false root profile classes tree specs reports last seen stale)
    (hready : Ready root tree) (hplaced : ∀ spec ∈ specs, spec.Placed)
    (hplain : ∀ spec ∈ specs, ∀ unit, spec.render profile = .ok unit →
      readText (encode unit.source) = some unit.source.toList)
    (hdistinct : (emittedPaths reports).Nodup) :
    EmitsAll false root profile classes last specs (reports.map (·.unchanged)) last seen [] := by
  induction h with
  | nil tree => exact .nil tree
  | @cons spec specs unit tree next last report reports seen stale more rendered first rest ih =>
    rw [List.forall_mem_cons] at hplaced hplain
    obtain ⟨dirs, leaf, hunit⟩ := hplaced.1
    rw [← (Spec.render_ok rendered).1] at hunit
    obtain ⟨hnext, -⟩ := first.reworked hready rendered hunit
    obtain ⟨hlast, -, hseen, -, hreworked⟩ := rest.reworked hnext hplaced.2
    rw [emittedPaths_cons, List.nodup_append] at hdistinct
    obtain ⟨-, hmore, hapart⟩ := hdistinct
    have huntouched : unit.path ∉ changedPaths reports := by
      by_cases hfailed : report.error = none
      · intro hpath
        have hemitted : unit.path ∈ emittedPaths [report] := by
          cases first <;> simp_all [emittedPaths, emittedOwner, failedOwner, rejectedOwner]
        exact hapart _ hemitted _ (rest.emitted_of_changed _ hpath) rfl
      · exact rest.not_changed_of_stuck hnext hplaced.2 hunit
          (first.stuck hready rendered hunit hfailed)
    have hplace : ¬ChangedPlace root reports (root.extend unit.path).place := by
      rintro ⟨other, hother, hplace⟩
      obtain ⟨dirs', leaf', hunit'⟩ := rest.seen_placed hplaced.2 other (hseen other hother)
      exact huntouched (hunit.eq_of_place hunit' hplace ▸ hother)
    have hfirst := first.again hready rendered hunit (hplain.1 unit rendered)
    exact .cons rendered (hfirst.moved rfl hnext hlast rendered hunit hreworked hplace)
      (ih hnext hplaced.2 hplain.2 hmore)

end

/-- No directory that is still to be made on the way to the target can be taken for a module. -/
def ClearOf (exclude : List String) (source target : Path) (tree : FileTree) : Prop :=
  ∀ base path, tree.locate source = .ok base → base ++ path.parts <+: target.place →
    tree.lookup (base ++ path.parts) = none → ".py".toList <:+ path.name.toList →
    isCandidate exclude path = false

/-- A target on whose way no name is that of a source file is clear of modules. -/
theorem ClearOf.of_names {exclude : List String} {source target : Path} {tree : FileTree}
    (h : ∀ name ∈ target.place, ¬".py".toList <:+ name.toList) :
    ClearOf exclude source target tree := by
  intro base path _ hpre _ hending
  by_cases hparts : path.parts = []
  · rw [Path.name, hparts] at hending
    exact absurd hending (by decide)
  · have hname : path.name ∈ path.parts := by
      rw [Path.name, List.getLast?_eq_some_getLast hparts, Option.getD_some]
      exact List.getLast_mem hparts
    exact absurd hending (h _ (hpre.subset (List.mem_append_right _ hname)))

section

variable {source target : Path} {exclude : List String} {before after : FileTree}
  {touched : Location → Prop} {path : Path} {base : Location}

/-- A place with the name of a source file is on the way to the target only if it is above it. -/
private theorem OnTheWay.above (h : OnTheWay target (base ++ path.parts))
    (hparts : path.parts ≠ []) (hending : ".py".toList <:+ path.name.toList) :
    base ++ path.parts <+: target.place := by
  obtain ⟨dirs, hdirs, hpre⟩ := h
  rcases List.prefix_or_prefix_of_prefix hpre (List.prefix_append target.place dirs) with
    habove | hbelow
  · exact habove
  · obtain ⟨rest, hrest⟩ := hbelow
    by_cases hnil : rest = []
    · rw [← hrest, hnil, List.append_nil]
    · rw [← hrest, List.prefix_append_right_inj] at hpre
      have hname : path.name ∈ rest := by
        have hlast : (base ++ path.parts).getLast? = some path.name := by
          rw [List.getLast?_append_of_ne_nil _ hparts, Path.name,
            List.getLast?_eq_some_getLast hparts, Option.getD_some]
        rw [← hrest, List.getLast?_append_of_ne_nil _ hnil] at hlast
        exact List.mem_of_getLast? hlast
      exact absurd (hending.subset (by decide)) (hdirs _ (hpre.subset hname))

/-- What discovery looks at is as it was, or was and is a generated file. -/
private theorem Reworked.candidate (h : Reworked target touched before after)
    (hclear : ClearOf exclude source target before) (hbase : before.locate source = .ok base)
    (hparts : path.parts ≠ []) (hending : ".py".toList <:+ path.name.toList)
    (hcandidate : isCandidate exclude path) :
    after.lookup (base ++ path.parts) = before.lookup (base ++ path.parts) ∨
      Claimable before (base ++ path.parts) ∧ Claimable after (base ++ path.parts) := by
  rcases h (base ++ path.parts) with heq | ⟨hnone, -, hway⟩ | ⟨-, -, hclaims⟩
  · exact .inl heq
  · have hnot := hclear base path hbase (hway.above hparts hending) hnone hending
    simp [hcandidate] at hnot
  · exact .inr hclaims

private theorem isGeneratedAt_of_claimable {tree : FileTree} {ending : String}
    (hnested : tree.Nested) (hbase : tree.locate source = .ok base)
    (hpath : path ∈ tree.below source ending) (hclaim : Claimable tree (base ++ path.parts)) :
    isGeneratedAt tree source path := by
  obtain ⟨-, -, hplace, -⟩ := (hnested.mem_below_of_locate hbase).mp hpath
  obtain ⟨entry, hentry⟩ := Option.ne_none_iff_exists'.mp hplace
  obtain ⟨content, rfl, hmark⟩ := hclaim entry hentry
  rw [isGeneratedAt_eq (hnested.locate_below hbase hpath),
    FileTree.content?_eq_some_iff.mpr hentry]
  exact hmark

private theorem handWritten_stays (hbefore : before.Nested) (hafter : after.Nested)
    (hsource : before.locate source = .ok base) (hsource' : after.locate source = .ok base)
    (hkept : after.lookup (base ++ path.parts) = before.lookup (base ++ path.parts) ∨
      Claimable before (base ++ path.parts) ∧ Claimable after (base ++ path.parts))
    (hpath : path ∈ before.below source ".py") (hmark : isGeneratedAt before source path = false) :
    path ∈ after.below source ".py" ∧
      after.read (source ++ path) = before.read (source ++ path) := by
  rcases hkept with heq | ⟨hclaim, -⟩
  · have hpath' : path ∈ after.below source ".py" := by
      rw [hafter.mem_below_of_locate hsource', heq]
      exact (hbefore.mem_below_of_locate hsource).mp hpath
    refine ⟨hpath', ?_⟩
    unfold FileTree.read
    rw [hbefore.locate_below hsource hpath, hafter.locate_below hsource' hpath']
    dsimp only
    rw [heq]
  · rw [isGeneratedAt_of_claimable hbefore hsource hpath hclaim] at hmark
    simp at hmark

/-- Discovery finds the same modules in a tree where units were written and deleted, and reads the
same in them. -/
theorem discover_again {files : List SourceFile} (hbefore : before.Nested) (hafter : after.Nested)
    (hreworked : Reworked target touched before after)
    (hclear : ClearOf exclude source target before)
    (hback : ∀ base, after.locate source = .ok base → before.locate source = .ok base)
    (h : discover before source exclude = .ok files) :
    discover after source exclude = .ok files ∧
      ∀ file ∈ files, after.read file.path = before.read file.path := by
  cases hsource : before.locate source with
  | error condition =>
    -- What leads nowhere has nothing below it, before and after.
    have hnowhere (tree : FileTree) (hback : ∀ base, tree.locate source = .ok base →
        before.locate source = .ok base) : tree.below source ".py" = [] :=
      FileTree.below_eq_nil fun base hbase => by simpa [hsource] using hback base hbase
    have hfiles := (discover_eq_ok_iff.mp h).2
    rw [hnowhere before fun _ => id, List.filter_nil, List.filterMap_nil] at hfiles
    subst hfiles
    refine ⟨discover_eq_ok_iff.mpr ?_, by simp⟩
    simp [hnowhere after hback]
  | ok base =>
    have hsource' := hreworked.keeps.locate hsource
    have hkept {path : Path} (hparts : path.parts ≠ [])
      (hending : ".py".toList <:+ path.name.toList)
        (hcandidate : isCandidate exclude path) := hreworked.candidate hclear hsource hparts hending
          hcandidate
    obtain ⟨hreadable, rfl⟩ := discover_eq_ok_iff.mp h
    refine ⟨discover_eq_ok_iff.mpr ⟨fun path hpath hcandidate => ?_, ?_⟩, fun file hfile => ?_⟩
    · obtain ⟨hrelative, hparts, hplace, hending⟩ := (hafter.mem_below_of_locate hsource').mp hpath
      rw [hafter.read_below hsource' hpath]
      rcases hkept hparts hending hcandidate with heq | ⟨-, hclaim⟩
      · have hpath' : path ∈ before.below source ".py" :=
          (hbefore.mem_below_of_locate hsource).mpr ⟨hrelative, hparts, heq ▸ hplace, hending⟩
        rw [heq, ← hbefore.read_below hsource hpath']
        exact hreadable path hpath' hcandidate
      · exact hclaim.not_directory
    · refine congrArg (List.filterMap (sourceFile? source)) ?_
      refine FileTree.below_filter_congr hbefore hafter fun path => ?_
      simp only [Bool.and_eq_true, Bool.not_eq_true']
      constructor
      · rintro ⟨hpath, hmark, hcandidate⟩
        obtain ⟨-, hparts, -, hending⟩ := (hbefore.mem_below_of_locate hsource).mp hpath
        obtain ⟨hpath', hread⟩ := handWritten_stays hbefore hafter hsource hsource'
          (hkept hparts hending hcandidate) hpath hmark
        exact ⟨hpath', by rwa [isGeneratedAt, hread], hcandidate⟩
      · rintro ⟨hpath, hmark, hcandidate⟩
        obtain ⟨-, hparts, -, hending⟩ := (hafter.mem_below_of_locate hsource').mp hpath
        obtain ⟨hpath', hread⟩ := handWritten_stays hafter hbefore hsource' hsource
          ((hkept hparts hending hcandidate).imp Eq.symm And.symm) hpath hmark
        exact ⟨hpath', by rwa [isGeneratedAt, hread], hcandidate⟩
    · obtain ⟨path, hpath, hcandidate, hmark, hfile, -⟩ := mem_discover h hfile
      obtain ⟨-, hparts, -, hending⟩ := (hbefore.mem_below_of_locate hsource).mp hpath
      rw [Bool.not_eq_true'] at hmark
      rw [hfile]
      exact (handWritten_stays hbefore hafter hsource hsource' (hkept hparts hending hcandidate)
        hpath hmark).2

end

/-- The report of a pass that finds everything as it is to be. -/
def Report.settled (report : Report) : Report :=
  { report with owners := report.owners.map (·.unchanged), prunedUnits := [] }

private theorem Prunes.keeps_back {root : Path} {enabled : Bool}
    {seen keep pruned stale : List String}
    {tree next : FileTree} (h : Prunes false root enabled seen keep tree pruned next stale)
    (hnested : tree.Nested) : FileTree.Keeps next tree := by
  cases h with
  | skipped => exact .refl _
  | checked => exact .refl _
  | deleted _ _ _ applied => exact (deleted_of_applied hnested applied).2.keeps_back

namespace Request
variable {request : Request} {tree last : FileTree} {report : Report} {files : List SourceFile}

private theorem scans_congr (h : ∀ file ∈ files, last.read file.path = tree.read file.path) :
    request.scans last files = request.scans tree files := by
  refine List.map_congr_left fun file hfile => ?_
  unfold scanFile readSource
  rw [h file hfile]

private theorem built_congr (hscans : request.scans last files = request.scans tree files) :
    request.classes last files = request.classes tree files ∧
      request.built last files = request.built tree files ∧
      request.clean last files = request.clean tree files := by
  unfold built clean classes
  rw [hscans]
  exact ⟨rfl, rfl, rfl⟩

private def rejectedOwners (request : Request) (build : Build) : List OwnerReport :=
  build.rejected.map fun (declared, fault) => rejectedReport request.profile declared fault

private theorem unchanged_rejected (build : Build) :
    (request.rejectedOwners build).map (·.unchanged) = request.rejectedOwners build := by
  unfold rejectedOwners
  rw [List.map_map]
  rfl

private theorem emittedPaths_rejected (build : Build) (emitted : List OwnerReport) :
    emittedPaths (request.rejectedOwners build ++ emitted) = emittedPaths emitted := by
  unfold emittedPaths
  rw [List.filter_append, List.filter_eq_nil_iff.mpr, List.nil_append]
  intro owner howner
  obtain ⟨_, -, rfl⟩ := List.mem_map.mp howner
  simp [rejectedReport, rejectedOwner]

private theorem counts_unchanged (owners : List OwnerReport) (skipped : Nat) :
    OwnerCounts.of (owners.map (·.unchanged)) skipped = OwnerCounts.of owners skipped := by
  simp only [OwnerCounts.of, List.length_map, List.countP_map]
  rfl

private theorem retainedPaths_unchanged (profile : Profile) (build : Build)
    (emitted : List OwnerReport) :
    retainedPaths profile build (emitted.map (·.unchanged)) =
      retainedPaths profile build emitted := by
  unfold retainedPaths
  rw [List.filterMap_map]
  rfl

private theorem settled_report {emitted : List OwnerReport} {stale pruned : List String}
    (hscans : request.scans last files = request.scans tree files) :
    request.reported last files (emitted.map (·.unchanged)) stale [] =
      (request.reported tree files emitted stale pruned).settled := by
  obtain ⟨-, hbuilt, -⟩ := built_congr hscans
  have howners : (request.rejectedOwners (request.built tree files) ++ emitted).map (·.unchanged) =
      request.rejectedOwners (request.built tree files) ++ emitted.map (·.unchanged) := by
    rw [List.map_append, unchanged_rejected]
  have hcounts := counts_unchanged
    (request.rejectedOwners (request.built tree files) ++ emitted)
    (request.built tree files).skipped.length
  rw [howners] at hcounts
  unfold Report.settled reported
  dsimp only
  rw [hscans, hbuilt]
  simp only [← rejectedOwners.eq_def]
  rw [howners, hcounts]

/-- What leads nowhere leads nowhere after a pass either, since nothing is found below it. -/
private theorem source_back {middle : FileTree} {emitted : List OwnerReport}
    {seen keep pruned stale outdated : List String} {enabled : Bool}
    (hdiscover : discover tree request.sourceRoot request.exclude = .ok files)
    (hemits : EmitsAll false request.target request.profile (request.classes tree files) tree
      (request.built tree files).specs emitted middle seen stale)
    (hprunes : Prunes false request.target enabled seen keep middle pruned last outdated)
    (hready : Ready request.target middle) (hkeeps : FileTree.Keeps tree last) :
    ∀ base, last.locate request.sourceRoot = .ok base →
      tree.locate request.sourceRoot = .ok base := by
  intro base hbase
  cases hsource : tree.locate request.sourceRoot with
  | ok base' => exact (hkeeps.locate hsource).symm.trans hbase
  | error condition =>
    have hfiles := (discover_eq_ok_iff.mp hdiscover).2
    rw [FileTree.below_eq_nil fun base hbase => by simp [hsource] at hbase] at hfiles
    obtain rfl : files = [] := hfiles
    have hspecs : (request.built tree []).specs = [] := rfl
    rw [hspecs] at hemits
    cases hemits
    rw [← hsource]
    exact (hprunes.keeps_back hready.nested).locate hbase

private theorem Course.again {tree : Workspace} (course : request.Course tree)
    (hprofile : request.profile = .standard) (hreal : request.checkOnly = false)
    (hnames : ∀ place, tree.lookup place ≠ none → ∀ name ∈ place, '\r' ∉ name.toList)
    (hgrounded : tree.Grounded request.target)
    (hclear : ClearOf request.exclude request.sourceRoot request.target tree)
    (hdistinct : (emittedPaths course.emitted).Nodup) :
    ∃ second : request.Course course.last, second.last = course.last ∧
      second.report = course.report.settled := by
  obtain ⟨files, emitted, middle, seen, stale, pruned, last, outdated, hdiscover,
    hemits, hprunes⟩ :=
    course
  have hstart : Ready request.target tree := ⟨tree.formed.toNested, hgrounded⟩
  have hplaced := specs_placed hprofile hdiscover
  have hplain := specs_without (by decide) (by decide) hprofile hnames hdiscover
  rw [hreal] at hemits hprunes
  obtain ⟨hmiddle, rfl, -, -, hwritten⟩ := hemits.reworked hstart hplaced
  obtain ⟨hlast, rfl, hpruned⟩ := hprunes.reworked hmiddle
  have hreworked : Reworked request.target (fun place => ChangedPlace request.target emitted place ∨
      PrunedPlace request.target seen place) tree last :=
    (hwritten.mono fun _ => .inl).trans (hpruned.mono fun _ => .inr)
  obtain ⟨hdiscover', hread⟩ := discover_again tree.formed.toNested hlast.nested hreworked hclear
    (source_back hdiscover hemits hprunes hmiddle hreworked.keeps) hdiscover
  -- The same modules are found and read alike, so the same specifications are built from them.
  have hscans : request.scans last files = request.scans tree files := scans_congr hread
  obtain ⟨hclasses, hbuilt, hclean⟩ := built_congr hscans
  have hagain := hemits.again hstart hplaced (fun spec hspec unit hrender =>
    Spec.readText_encode (hplain spec hspec) (hprofile ▸ hrender)) hdistinct
  have hmoved := hagain.moved (by simp [OwnerReport.unchanged]) hmiddle hlast hplaced hpruned ?_
  · refine ⟨⟨files, emitted.map (·.unchanged), last, seen, [], [], last, [], hdiscover', ?_, ?_⟩,
      rfl, ?_⟩
    · rw [hreal, hclasses, hbuilt]
      exact hmoved
    · rw [hreal, hclean, hbuilt, retainedPaths_unchanged]
      exact hprunes.again hmiddle
    · exact settled_report hscans
  · rintro path hpath ⟨found, hrelative, hunseen, hplace⟩
    obtain ⟨dirs, leaf, hunit⟩ := hemits.seen_placed hplaced path hpath
    rw [hunit.text_of_place hrelative hplace.symm] at hunseen
    exact hunseen hpath

/-- A second pass over the tree that a pass left gives the same report, but that no unit is changed
or pruned, and leaves the tree as it is. -/
theorem run_again (tree : Workspace) (hprofile : request.profile = .standard)
    (hreal : request.checkOnly = false) (hdirectory : request.reportDirectory = none)
    (hnames : ∀ place, tree.lookup place ≠ none → ∀ name ∈ place, '\r' ∉ name.toList)
    (hgrounded : tree.Grounded request.target)
    (hclear : ClearOf request.exclude request.sourceRoot request.target tree)
    (hrun : (request.run tree).result = .ok report)
    (hdistinct : (emittedPaths report.owners).Nodup) :
    (request.run (request.run tree).tree).result = .ok report.settled ∧
      (request.run (request.run tree).tree).tree = (request.run tree).tree ∧
      report.settled.ok = report.ok := by
  obtain ⟨course, rfl, hend⟩ := run_ok hrun
  rw [hdirectory] at hend
  have hemitted : (emittedPaths course.emitted).Nodup := by
    rwa [← emittedPaths_rejected (request.built tree course.files)]
  obtain ⟨second, hlast, hreport⟩ :=
    course.again hprofile hreal hnames hgrounded hclear hemitted
  obtain ⟨hresult, htree⟩ := run_of second hdirectory
  rw [hend]
  exact ⟨hreport ▸ hresult, htree.trans hlast, rfl⟩

theorem run_again_sample : ∃ report, (Request.sample.run .sample).result = .ok report ∧
    (emittedPaths report.owners).Nodup ∧
    (Request.sample.run (Request.sample.run .sample).tree).result = .ok report.settled ∧
    (Request.sample.run (Request.sample.run .sample).tree).tree =
      (Request.sample.run .sample).tree ∧
    report.settled.ok = report.ok := by
  obtain ⟨hunits, -⟩ := sample_run
  obtain ⟨report, hrun, howners, -⟩ := PassOutcome.result_of_units hunits
  have hdistinct : (emittedPaths report.owners).Nodup := by
    simp [emittedPaths_eq, howners]
  refine ⟨report, hrun, hdistinct, ?_⟩
  exact run_again ⟨_, FileTree.sample_formed⟩ rfl rfl rfl
    (FileTree.forall_places (by decide) (by simp)) (.of_not_mem (by decide))
    (.of_names (by decide)) hrun hdistinct

end Request

/-- A module with a class to bind, and nothing else. -/
def FileTree.lone : FileTree := ⟨[(["src"], .directory),
  (["src", "m.py"], .file (encode "class A:\n    f = bind_view(1)\n"))]⟩

/-- A pass into a directory that is still to be made among the sources, and is named like one. -/
def Request.inside : Request where
  sourceRoot := ⟨"", ["src"]⟩
  outputRoot := some ⟨"", ["src", "gen.py"]⟩
  prune := false

theorem Request.inside_run :
    (Request.inside.run .lone).units = some ([(some "a_binding.py", none, true)], []) ∧
      (Request.inside.run .lone).tree.lookup ["src"] = some .directory ∧
      (Request.inside.run .lone).tree.lookup ["src", "gen.py"] = some .directory := by
  decide +kernel

/-- A second pass can come to nothing if the target was taken for a module. -/
theorem Request.run_fails_again : ∃ report, (Request.inside.run .lone).result = .ok report ∧
    (emittedPaths report.owners).Nodup ∧
    ∀ second, (Request.inside.run (Request.inside.run .lone).tree).result ≠ .ok second := by
  obtain ⟨hunits, hsource, htarget⟩ := Request.inside_run
  obtain ⟨report, hrun, howners, -⟩ := PassOutcome.result_of_units hunits
  refine ⟨report, hrun, by simp [emittedPaths_eq, howners], fun second hsecond => ?_⟩
  generalize (Request.inside.run .lone).tree = tree at hsource htarget hsecond
  obtain ⟨course, -, -⟩ := Request.run_ok hsecond
  have hlocate : tree.locate ⟨"", ["src"]⟩ = .ok ["src"] := by
    simp [FileTree.locate, FileTree.follow]
  have hlocate' : tree.locate ⟨"", ["src", "gen.py"]⟩ = .ok ["src", "gen.py"] := by
    simp [FileTree.locate, FileTree.follow, hsource]
  have hbelow : (⟨"", ["gen.py"]⟩ : Path) ∈ tree.below ⟨"", ["src"]⟩ ".py" :=
    FileTree.mem_below.mpr ⟨["src"], hlocate, hsource, rfl, by simp, by simp [htarget], by decide⟩
  obtain ⟨octets, hread⟩ :=
    (discover_eq_ok_iff.mp course.discovered).1 _ hbelow (by decide)
  have hjoined : (⟨"", ["src"]⟩ : Path) ++ (⟨"", ["gen.py"]⟩ : Path) =
      ⟨"", ["src", "gen.py"]⟩ := rfl
  rw [show Request.inside.sourceRoot = ⟨"", ["src"]⟩ from rfl, hjoined] at hread
  simp [FileTree.read, hlocate', htarget] at hread

end ElementBinding
