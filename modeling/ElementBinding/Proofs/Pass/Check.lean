import ElementBinding.Proofs.Pass.Frame

/-!
# What a check foretells

A check judges every unit against the tree it starts from, while a real pass judges it against a
tree that earlier writes have changed. Below a grounded target the two differ only in units that
share a path with one already written, and of these the check has found the path out of date
already. So a check finds out of date what a real pass changes or prunes.
-/
namespace ElementBinding
open ElementBinding.Text

/-- The report says that making a directory, opening or writing a file failed for the unit. -/
def OwnerReport.Unwritten (owner : OwnerReport) : Prop :=
  ∃ path fault, owner.unitPath = some path ∧
    owner.error = some (EmitFault.notWritten path fault).message

private theorem head?_notWritten (path : String) (fault : FileFault) :
    (EmitFault.notWritten path fault).message.toList.head? = some 'f' := by
  have hstart : "failed to write ".toList = 'f' :: "ailed to write ".toList := by decide
  unfold EmitFault.message
  dsimp only
  rw [String.toList_append, String.toList_append, String.toList_append, hstart, List.cons_append,
    List.cons_append, List.cons_append, List.head?_cons]

theorem OwnerReport.not_unwritten {owner : OwnerReport}
    (h : ∀ error, owner.error = some error → error.toList.head? ≠ some 'f') : ¬owner.Unwritten := by
  rintro ⟨path, fault, -, herror⟩
  exact h _ herror (head?_notWritten path fault)

/-- A check reports on an owner what a real pass does, but for whether its unit is changed. -/
def Foretold (real checked : OwnerReport) : Prop :=
  checked = real ∨ ∃ spec unit changed changed', real = emittedOwner false spec ⟨unit, changed⟩ ∧
    checked = emittedOwner true spec ⟨unit, changed'⟩

namespace Foretold
variable {real checked : OwnerReport}

theorem error (h : Foretold real checked) : checked.error = real.error := by
  rcases h with rfl | ⟨spec, unit, changed, changed', rfl, rfl⟩ <;> rfl

theorem unitPath (h : Foretold real checked) : checked.unitPath = real.unitPath := by
  rcases h with rfl | ⟨spec, unit, changed, changed', rfl, rfl⟩ <;> rfl

theorem reject_iff (h : Foretold real checked) :
    checked.judgement.verdict = .reject ↔ real.judgement.verdict = .reject := by
  rcases h with rfl | ⟨spec, unit, changed, changed', rfl, rfl⟩
  · rfl
  · simp only [emittedOwner_verdict]

end Foretold

section

variable {root : Path} {tree cur next last : FileTree} {done seen stale : List String}
  {classes : List DeclaredClass} {spec : Spec} {unit : BinderUnit} {report : OwnerReport}
  {profile : Profile} {path leaf : String} {dirs : List String}

/-- How a tree that was written to relates to the one a check sees: the units written so far could
be judged before, and can be judged now. -/
structure Foreseen (root : Path) (tree cur : FileTree) (done : List String) : Prop where
  start : Ready root tree
  now : Ready root cur
  reworked : Reworked root (fun place => ∃ path ∈ done, place = (root.extend path).place) tree cur
  placed : ∀ path ∈ done, ∃ dirs leaf, IsUnitPath path dirs leaf
  judged : ∀ path ∈ done, ∃ existing, existingUnit tree (root.extend path) path = .ok existing
  taken : ∀ path ∈ done, ∃ existing, existingUnit cur (root.extend path) path = .ok existing

theorem Foreseen.existingUnit_eq (h : Foreseen root tree cur done)
    (hunit : IsUnitPath path dirs leaf)
    (hnew : path ∉ done) : existingUnit cur (root.extend path) path =
      existingUnit tree (root.extend path) path := by
  refine existingUnit_congr h.start h.now hunit (h.reworked.lookup_eq (hunit.sourcePlace root) ?_)
  rintro ⟨other, hother, hplace⟩
  obtain ⟨dirs', leaf', hunit'⟩ := h.placed other hother
  rw [hunit.eq_of_place hunit' hplace] at hnew
  exact hnew hother

/-- A check foretells what comes of a unit, and finds it out of date if it is changed the first
time that its path is met. -/
theorem Emits.foretold (h : Emits false root classes spec unit cur report next stale)
    (hforeseen : Foreseen root tree cur done) (hunit : IsUnitPath unit.path dirs leaf)
    (hpath : unit.path = spec.unitPath) (hwritten : ¬report.Unwritten) :
    ∃ checked found, Emits true root classes spec unit tree checked tree found ∧
      Foretold report checked ∧
      ∀ path, path ∈ done ∨ path ∈ found ↔ path ∈ done ∨ path ∈ changedPaths [report] := by
  -- A path that was written before is judged over what was written, but the check has it already.
  by_cases hdone : unit.path ∈ done
  · obtain ⟨before, hbefore⟩ := hforeseen.judged _ hdone
    obtain ⟨existing, hnow⟩ := hforeseen.taken _ hdone
    have hreal : ∃ changed, report = emittedOwner false spec ⟨unit, changed⟩ := by
      cases h with
      | kept => exact ⟨false, rfl⟩
      | written => exact ⟨true, rfl⟩
      | stale _ _ checked => simp at checked
      | refused found => simp [hnow] at found
      | unwritten => exact absurd ⟨_, _, congrArg some hpath.symm, rfl⟩ hwritten
    obtain ⟨changed, rfl⟩ := hreal
    have hfound (found : List String) (hsub : ∀ path ∈ found, path = unit.path) (path : String) :
        path ∈ done ∨ path ∈ found ↔
          path ∈ done ∨ path ∈ changedPaths [emittedOwner false spec ⟨unit, changed⟩] := by
      have hchanged : path ∈ changedPaths [emittedOwner false spec ⟨unit, changed⟩] →
          path = unit.path := by
        cases changed <;> simp [changedPaths, emittedOwner]
      constructor
      · rintro (hmem | hmem)
        · exact .inl hmem
        · exact .inl (hsub path hmem ▸ hdone)
      · rintro (hmem | hmem)
        · exact .inl hmem
        · exact .inl (hchanged hmem ▸ hdone)
    by_cases hsame : before = some unit.source.toList
    · subst hsame
      exact ⟨_, [], .kept hbefore, .inr ⟨spec, unit, changed, false, rfl, rfl⟩,
        hfound [] (by simp)⟩
    · exact ⟨_, [unit.path], .stale hbefore hsame rfl, .inr ⟨spec, unit, changed, true, rfl, rfl⟩,
        hfound [unit.path] (by simp)⟩
  · have heq := hforeseen.existingUnit_eq hunit hdone
    cases h with
    | kept found =>
      exact ⟨_, [], .kept (heq ▸ found), .inr ⟨spec, unit, false, false, rfl, rfl⟩,
        by simp [changedPaths, emittedOwner]⟩
    | written found differs =>
      exact ⟨_, [unit.path], .stale (heq ▸ found) differs rfl,
        .inr ⟨spec, unit, true, true, rfl, rfl⟩, by simp [changedPaths, emittedOwner]⟩
    | stale _ _ checked => simp at checked
    | refused found stopped =>
      exact ⟨_, [], .refused (heq ▸ found) stopped, .inl rfl,
        by simp [changedPaths, failedOwner, rejectedOwner]⟩
    | unwritten => exact absurd ⟨_, _, congrArg some hpath.symm, rfl⟩ hwritten

private theorem Emits.taken (h : Emits false root classes spec unit cur report next stale)
    (hready : Ready root cur) (hunit : IsUnitPath unit.path dirs leaf)
    (hrender : spec.render profile = .ok unit) (hchanged : report.changed = true) :
    (∃ existing, existingUnit cur (root.extend unit.path) unit.path = .ok existing) ∧
      ∃ existing, existingUnit next (root.extend unit.path) unit.path = .ok existing := by
  obtain ⟨hnext, -⟩ := h.reworked hready hrender hunit
  cases h with
  | kept => simp [emittedOwner] at hchanged
  | stale _ _ checked => simp at checked
  | refused => simp [failedOwner, rejectedOwner] at hchanged
  | unwritten => simp [failedOwner, rejectedOwner] at hchanged
  | @written existing _ found _ _ applied =>
    refine ⟨⟨existing, found⟩, ?_⟩
    obtain ⟨-, place, hlocate, hwrote⟩ := hready.nested.write applied
    obtain ⟨text, htext, hmark⟩ := Spec.readText_generated hrender
    have hfind := (FileTree.find?_eq_some_iff _ _ _).mpr ⟨place, hlocate, hwrote.written⟩
    rw [existingUnit_eq, hfind]
    simp [htext, hmark]

theorem Foreseen.step (h : Foreseen root tree cur done)
    (hemits : Emits false root classes spec unit cur report next stale)
    (hrender : spec.render profile = .ok unit) (hunit : IsUnitPath unit.path dirs leaf) :
    Foreseen root tree next (changedPaths [report] ++ done) := by
  obtain ⟨hnext, -, hone, hkept, hreworked⟩ := hemits.reworked h.now hrender hunit
  have htaken {path : String} (hpath : path ∈ changedPaths [report]) :
      path = unit.path ∧ report.changed = true := by
    refine ⟨hone path hpath, ?_⟩
    by_contra hchanged
    simp [changedPaths, hchanged] at hpath
  -- Of the path itself the emission tells; what it does to others shows nowhere.
  refine ⟨h.start, hnext, (h.reworked.mono fun place hplace => ?_).trans
    (hreworked.mono fun place hplace => ?_), fun path hpath => ?_, fun path hpath => ?_,
    fun path hpath => ?_⟩
  · obtain ⟨path, hpath, hplace⟩ := hplace
    exact ⟨path, List.mem_append_right _ hpath, hplace⟩
  · obtain ⟨path, hpath, hplace⟩ := hplace
    exact ⟨path, List.mem_append_left _ hpath, hplace⟩
  · rcases List.mem_append.mp hpath with hpath | hpath
    · exact (htaken hpath).1 ▸ ⟨dirs, leaf, hunit⟩
    · exact h.placed path hpath
  · by_cases hdone : path ∈ done
    · exact h.judged path hdone
    · obtain ⟨rfl, hchanged⟩ := htaken ((List.mem_append.mp hpath).resolve_right hdone)
      rw [← h.existingUnit_eq hunit hdone]
      exact (hemits.taken h.now hunit hrender hchanged).1
  · by_cases hchanged : path ∈ changedPaths [report]
    · obtain ⟨rfl, hreal⟩ := htaken hchanged
      exact (hemits.taken h.now hunit hrender hreal).2
    · have hdone := (List.mem_append.mp hpath).resolve_left hchanged
      obtain ⟨dirs', leaf', hunit'⟩ := h.placed path hdone
      rw [existingUnit_congr h.now hnext hunit' (hreworked.lookup_eq (hunit'.sourcePlace root) ?_)]
      · exact h.taken path hdone
      · rintro ⟨other, hother, hplace⟩
        obtain ⟨rfl, -⟩ := htaken hother
        rw [hunit'.eq_of_place hunit hplace] at hchanged
        exact hchanged hother

/-- A check of all owners against the tree it starts from foretells their emission. -/
theorem EmitsAll.foretold {specs : List Spec} {reports : List OwnerReport}
    (h : EmitsAll false root profile classes cur specs reports last seen stale)
    (hforeseen : Foreseen root tree cur done) (hplaced : ∀ spec ∈ specs, spec.Placed)
    (hwritten : ∀ report ∈ reports, ¬report.Unwritten) :
    ∃ checked found, EmitsAll true root profile classes tree specs checked tree seen found ∧
      List.Forall₂ Foretold reports checked ∧
      ∀ path, path ∈ done ∨ path ∈ found ↔ path ∈ done ∨ path ∈ changedPaths reports := by
  induction h generalizing done with
  | nil cur => exact ⟨[], [], .nil tree, .nil, by simp [changedPaths]⟩
  | @cons spec specs unit cur next last report reports seen stale more rendered first rest ih =>
    obtain ⟨dirs, leaf, hunit⟩ := hplaced spec List.mem_cons_self
    rw [List.forall_mem_cons] at hwritten
    have hpath := (Spec.render_ok rendered).1
    rw [← hpath] at hunit
    obtain ⟨checked, found, hcheck, hforetold, hfound⟩ :=
      first.foretold hforeseen hunit hpath hwritten.1
    obtain ⟨checks, founds, hchecks, hall, hfounds⟩ := ih (hforeseen.step first rendered hunit)
      (fun spec hspec => hplaced spec (List.mem_cons_of_mem _ hspec)) hwritten.2
    refine ⟨_, _, .cons rendered hcheck hchecks, .cons hforetold hall, fun path => ?_⟩
    have hmore := hfounds path
    rw [List.mem_append] at hmore
    rw [changedPaths_cons, List.mem_append, List.mem_append, ← or_assoc, hfound path, ← or_assoc,
      @or_comm (path ∈ done)]
    exact hmore

theorem EmitsAll.stale_eq {specs : List Spec} {reports : List OwnerReport}
    (h : EmitsAll true root profile classes tree specs reports last seen stale) :
    stale = changedPaths reports := by
  induction h with
  | nil => rfl
  | cons _ first _ ih =>
    rw [changedPaths_cons, ← ih]
    cases first with
    | kept => simp [changedPaths, emittedOwner]
    | stale => simp [changedPaths, emittedOwner]
    | written _ _ unchecked => simp at unchecked
    | unwritten _ _ unchecked => simp at unchecked
    | refused => simp [changedPaths, failedOwner, rejectedOwner]

theorem Prunes.stale_eq {enabled : Bool} {keep pruned : List String}
    (h : Prunes true root enabled seen keep tree pruned last stale) : stale = pruned := by
  cases h with
  | skipped => rfl
  | checked => rfl
  | deleted _ real => simp at real

theorem Prunes.foretold {enabled : Bool} {keep pruned : List String} {middle : FileTree}
    {touched : Location → Prop}
    (h : Prunes false root enabled seen keep middle pruned last stale)
    (hstart : Ready root tree) (hnow : Ready root middle)
    (hreworked : Reworked root touched tree middle)
    (htouched : ∀ place, touched place → ∃ path dirs leaf, IsUnitPath path dirs leaf ∧
      path ∈ seen ∧ place = (root.extend path).place) :
    Prunes true root enabled seen keep tree pruned tree pruned := by
  cases h with
  | skipped disabled => exact .skipped disabled
  | checked _ check => simp at check
  | deleted on _ found =>
    obtain ⟨generated, hgenerated, hsame⟩ :=
      generatedBelow_before hstart hnow hreworked htouched found keep
    rw [← hsame]
    exact .checked on rfl hgenerated

theorem Prunes.unchanged {enabled : Bool} {keep : List String}
    (h : Prunes false root enabled seen keep tree [] last stale) : last = tree := by
  generalize hpruned : [] = pruned at h
  cases h with
  | skipped => rfl
  | checked _ check => simp at check
  | deleted _ _ _ applied =>
    rw [List.map_eq_nil_iff.mp hpruned.symm] at applied
    exact (congrArg Prod.fst applied).symm

theorem reject_foretold {reports checked : List OwnerReport}
    (h : List.Forall₂ Foretold reports checked) :
    (∀ owner ∈ checked, owner.judgement.verdict ≠ .reject) ↔
      ∀ owner ∈ reports, owner.judgement.verdict ≠ .reject := by
  induction h with
  | nil => rfl
  | cons first rest ih =>
    rw [List.forall_mem_cons, List.forall_mem_cons, Ne, Ne, first.reject_iff, ih]

private theorem EmitsAll.unitPath_of_changed {checkOnly : Bool} {specs : List Spec}
    {reports : List OwnerReport}
    (h : EmitsAll checkOnly root profile classes tree specs reports last seen stale) :
    ∀ owner ∈ reports, owner.changed = true → owner.unitPath ≠ none := by
  induction h with
  | nil => simp
  | cons _ first _ ih =>
    rw [List.forall_mem_cons]
    refine ⟨?_, ih⟩
    cases first <;> simp [emittedOwner, failedOwner, rejectedOwner]

private theorem EmitsAll.changedPaths_eq_nil_iff {checkOnly : Bool} {specs : List Spec}
    {reports : List OwnerReport}
    (h : EmitsAll checkOnly root profile classes tree specs reports last seen stale) :
    changedPaths reports = [] ↔ ∀ owner ∈ reports, owner.changed = false := by
  simp only [changedPaths, List.filterMap_eq_nil_iff, List.mem_filter, and_imp]
  refine forall₂_congr fun owner howner => ?_
  rw [← Bool.not_eq_true]
  exact ⟨fun hnone hchanged => h.unitPath_of_changed owner howner hchanged (hnone hchanged),
    fun hsame hchanged => absurd hchanged hsame⟩

theorem retainedPaths_foretold {reports checked : List OwnerReport} (build : Build)
    (h : List.Forall₂ Foretold reports checked) :
    retainedPaths profile build checked = retainedPaths profile build reports := by
  unfold retainedPaths
  congr 1
  induction h with
  | nil => rfl
  | cons first rest ih =>
    rw [List.filterMap_cons, List.filterMap_cons, first.error, first.unitPath, ih]

end

theorem mem_sortedDistinct {texts : List String} {text : String} :
    text ∈ sortedDistinct texts ↔ text ∈ texts := by
  rw [sortedDistinct, List.mem_eraseDups, List.mem_mergeSort]

private theorem eraseDups_strict {texts : List String} (h : texts.Pairwise (· ≤ ·)) :
    texts.eraseDups.Pairwise (· < ·) := by
  induction hlength : texts.length using Nat.strong_induction_on generalizing texts with
  | _ length ih =>
    cases texts with
    | nil => simp
    | cons first rest =>
      rw [List.pairwise_cons] at h
      rw [List.eraseDups_cons, List.pairwise_cons]
      refine ⟨fun text htext => ?_, ih _ ?_ (h.2.filter _) rfl⟩
      · rw [List.mem_eraseDups, List.mem_filter] at htext
        exact lt_of_le_of_ne (h.1 text htext.1) fun heq => by simp [heq] at htext
      · rw [← hlength, List.length_cons]
        exact Nat.lt_succ_of_le (List.length_filter_le _ _)

theorem sortedDistinct_strict (texts : List String) :
    (sortedDistinct texts).Pairwise (· < ·) :=
  eraseDups_strict (sorted_mergeSort texts)

namespace Request
variable {request : Request} {tree : FileTree} {report : Report}

def check (request : Request) : Request :=
  { request with checkOnly := true, reportDirectory := none }

private theorem rejected_unchanged (profile : Profile) (rejected : List (DeclaredClass × Fault)) :
    ∀ owner ∈ rejected.map fun (declared, fault) => rejectedReport profile declared fault,
      owner.changed = false := by
  intro owner howner
  obtain ⟨_, -, rfl⟩ := List.mem_map.mp howner
  rfl

private theorem changedPaths_rejected (profile : Profile)
    (rejected : List (DeclaredClass × Fault)) (emitted : List OwnerReport) :
    changedPaths ((rejected.map fun (declared, fault) => rejectedReport profile declared fault) ++
      emitted) = changedPaths emitted := by
  unfold changedPaths
  rw [List.filter_append, List.filter_eq_nil_iff.mpr, List.nil_append]
  intro owner howner
  simp [rejected_unchanged profile rejected owner howner]

private theorem changedPaths_reported (course : request.Course tree) :
    changedPaths course.report.owners = changedPaths course.emitted :=
  changedPaths_rejected _ _ _

theorem reported_ok_iff {files : List SourceFile} {emitted : List OwnerReport}
    {stale pruned : List String} (h : report = request.reported tree files emitted stale pruned) :
    report.ok ↔ (∀ module ∈ report.modules, module.judgement.verdict ≠ .reject) ∧
      (∀ owner ∈ report.owners, owner.judgement.verdict ≠ .reject) ∧
      (report.checkOnly = true → report.staleUnits = []) := by
  have hcount : report.counts.reject = 0 ↔
      ∀ owner ∈ report.owners, owner.judgement.verdict ≠ .reject := by
    subst h
    simp only [reported, OwnerCounts.of, List.countP_eq_zero, decide_eq_true_eq]
  unfold Report.ok
  rw [Bool.and_eq_true, Bool.and_eq_true, decide_eq_true_eq, hcount, and_assoc]
  refine and_congr ?_ (and_congr_right fun _ => ?_)
  · simp
  · cases report.checkOnly <;> simp

theorem mem_staleUnits (hcheck : request.checkOnly = true)
    (hrun : (request.run tree).result = .ok report) {path : String} :
    path ∈ report.staleUnits ↔ path ∈ changedPaths report.owners ∨ path ∈ report.prunedUnits := by
  obtain ⟨course, rfl, -⟩ := run_ok hrun
  have hstale : course.stale = changedPaths course.emitted := by
    have hemits := course.emits
    rw [hcheck] at hemits
    exact hemits.stale_eq
  have houtdated : course.outdated = course.pruned := by
    have hprunes := course.prunes
    rw [hcheck] at hprunes
    exact hprunes.stale_eq
  rw [changedPaths_reported, ← hstale,
    show course.report.prunedUnits = course.outdated from houtdated.symm]
  exact mem_sortedDistinct.trans List.mem_append

/-- What a check of a tree must give to foretell a pass over it. -/
structure Foretells (request : Request) (tree : FileTree) (report checked : Report) : Prop where
  result : (request.check.run tree).result = .ok checked
  frame : (request.check.run tree).tree = tree
  sorted : checked.staleUnits.Pairwise (· < ·)
  stale : ∀ path, path ∈ checked.staleUnits ↔
    path ∈ changedPaths report.owners ∨ path ∈ report.prunedUnits
  ok : checked.ok ↔ (∀ module ∈ report.modules, module.judgement.verdict ≠ .reject) ∧
    (∀ owner ∈ report.owners, owner.judgement.verdict ≠ .reject ∧ owner.changed = false) ∧
    report.prunedUnits = []
  unchanged : checked.ok → request.reportDirectory = none → (request.run tree).tree = tree

private theorem changedPaths_reported_eq_nil_iff (course : request.Course tree) :
    changedPaths course.report.owners = [] ↔
      ∀ owner ∈ course.report.owners, owner.changed = false := by
  rw [changedPaths_reported, course.emits.changedPaths_eq_nil_iff]
  refine Iff.trans ?_ List.forall_mem_append.symm
  exact (and_iff_right (rejected_unchanged _ _)).symm

private theorem Course.last_eq {tree : Workspace} (course : request.Course tree)
    (hprofile : request.profile = .standard) (hreal : request.checkOnly = false)
    (hgrounded : tree.Grounded request.target)
    (hchanged : ∀ owner ∈ course.report.owners, owner.changed = false)
    (hpruned : course.report.prunedUnits = []) : course.last = tree := by
  obtain ⟨files, emitted, middle, seen, stale, pruned, last, outdated, hdiscover,
    hemits, hprunes⟩ :=
    course
  rw [hreal] at hemits hprunes
  obtain rfl : pruned = [] := hpruned
  obtain ⟨-, -, -, hkept, -⟩ := hemits.reworked ⟨tree.formed.toNested, hgrounded⟩
    (specs_placed hprofile hdiscover)
  have hmiddle : middle = tree := hkept fun owner howner =>
    hchanged owner (List.mem_append_right _ howner)
  exact hprunes.unchanged.trans hmiddle

/-- With a pass goes a check that tells of the same owners and finds out of date what it changes or
prunes. -/
private theorem Course.foretold {tree : Workspace} (course : request.Course tree)
    (hprofile : request.profile = .standard) (hreal : request.checkOnly = false)
    (hgrounded : tree.Grounded request.target)
    (hwritten : ∀ owner ∈ course.report.owners, ¬owner.Unwritten) :
    ∃ checked : request.check.Course tree, checked.last = tree ∧
      checked.report.modules = course.report.modules ∧
      List.Forall₂ Foretold course.report.owners checked.report.owners ∧
      ∀ path, path ∈ checked.report.staleUnits ↔
        path ∈ changedPaths course.report.owners ∨ path ∈ course.report.prunedUnits := by
  have hsame := changedPaths_reported course
  obtain ⟨files, emitted, middle, seen, stale, pruned, last, outdated, hdiscover,
    hemits, hprunes⟩ :=
    course
  have hstart : Ready request.target tree := ⟨tree.formed.toNested, hgrounded⟩
  have hplaced := specs_placed hprofile hdiscover
  rw [hreal] at hemits hprunes
  obtain ⟨hnow, rfl, hseen, -, hreworked⟩ := hemits.reworked hstart hplaced
  -- Nothing has been written when the first unit is judged.
  have hforeseen : Foreseen request.target tree tree [] :=
    ⟨hstart, hstart, .refl _ _ _, by simp, by simp, by simp⟩
  obtain ⟨checks, found, hcheck, hall, hfound⟩ := hemits.foretold hforeseen hplaced
    fun owner howner => hwritten owner (List.mem_append_right _ howner)
  have htouched : ∀ place, ChangedPlace request.target emitted place → ∃ path dirs leaf,
      IsUnitPath path dirs leaf ∧ path ∈ seen ∧ place = (request.target.extend path).place := by
    rintro place ⟨path, hpath, hplace⟩
    obtain ⟨dirs, leaf, hunit⟩ := hemits.seen_placed hplaced path (hseen path hpath)
    exact ⟨path, dirs, leaf, hunit, hseen path hpath, hplace⟩
  have hcheckPrunes := hprunes.foretold hstart hnow hreworked htouched
  rw [← retainedPaths_foretold _ hall] at hcheckPrunes
  let checked : request.check.Course tree :=
    { files, emitted := checks, middle := tree, seen, stale := found, pruned, last := tree
      outdated := pruned, discovered := hdiscover, emits := hcheck, prunes := hcheckPrunes }
  refine ⟨checked, rfl, rfl, ?_, fun path => ?_⟩
  · exact List.rel_append (List.forall₂_same.mpr fun _ _ => .inl rfl) hall
  · have hpath := hfound path
    simp only [List.not_mem_nil, false_or] at hpath
    rw [hsame, ← hpath]
    exact mem_sortedDistinct.trans List.mem_append

/-- A check foretells a pass below a grounded target in which no file fails to be written: it
leaves the tree alone, and finds out of date just what the pass changes or prunes. It is fine if
the pass rejects nothing and changes nothing. -/
theorem check_foretells (tree : Workspace) (hprofile : request.profile = .standard)
    (hreal : request.checkOnly = false)
    (hgrounded : tree.Grounded request.target) (hrun : (request.run tree).result = .ok report)
    (hwritten : ∀ owner ∈ report.owners, ¬owner.Unwritten) :
    ∃ checked, request.Foretells tree report checked := by
  obtain ⟨course, rfl, hend⟩ := run_ok hrun
  obtain ⟨checked, hlast, hmodules, hall, hstale⟩ :=
    course.foretold hprofile hreal hgrounded hwritten
  obtain ⟨hresult, htree⟩ := run_of checked rfl
  have hnone : checked.report.staleUnits = [] ↔
      changedPaths course.report.owners = [] ∧ course.report.prunedUnits = [] := by
    simp only [List.eq_nil_iff_forall_not_mem, hstale, not_or, forall_and]
  have hok : checked.report.ok ↔
      (∀ module ∈ course.report.modules, module.judgement.verdict ≠ .reject) ∧
        (∀ owner ∈ course.report.owners,
          owner.judgement.verdict ≠ .reject ∧ owner.changed = false) ∧
        course.report.prunedUnits = [] := by
    have hcheckOnly : checked.report.checkOnly = true := rfl
    rw [reported_ok_iff (rfl : checked.report = _), hmodules, reject_foretold hall]
    simp only [hcheckOnly, forall_const, hnone, changedPaths_reported_eq_nil_iff, imp_and,
      forall_and, and_assoc]
  refine ⟨checked.report, hresult, htree.trans hlast, sortedDistinct_strict _, hstale, hok, ?_⟩
  intro hfine hdirectory
  obtain ⟨-, howners, hpruned⟩ := hok.mp hfine
  rw [hdirectory] at hend
  exact hend.trans (course.last_eq hprofile hreal hgrounded
    (fun owner howner => (howners owner howner).2) hpruned)

private theorem not_unwritten_of_units {owners : List OwnerReport}
    {units : List (Option String × Option String × Bool)} (h : owners.map (·.unit) = units)
    (hunits : ∀ unit ∈ units, unit.2.1.all fun error => error.toList.head? ≠ some 'f') :
    ∀ owner ∈ owners, ¬owner.Unwritten := by
  intro owner howner
  refine OwnerReport.not_unwritten fun error herror => ?_
  have hunit := hunits owner.unit (h ▸ List.mem_map_of_mem howner)
  simpa [OwnerReport.unit, herror] using hunit

theorem check_foretells_sample : ∃ report checked,
    (Request.sample.run .sample).result = .ok report ∧
    (∀ owner ∈ report.owners, ¬owner.Unwritten) ∧
    Request.sample.Foretells .sample report checked := by
  obtain ⟨hunits, -⟩ := sample_run
  obtain ⟨report, hrun, howners, -⟩ := PassOutcome.result_of_units hunits
  have hwritten : ∀ owner ∈ report.owners, ¬owner.Unwritten :=
    not_unwritten_of_units howners (by decide)
  obtain ⟨checked, hchecked⟩ := check_foretells ⟨_, FileTree.sample_formed⟩ rfl rfl
    (.of_not_mem (by decide)) hrun hwritten
  exact ⟨report, checked, hrun, hwritten, hchecked⟩

/-- The check sees none of the files that stand above the missing directory. -/
theorem detour_check : (Request.detour.check.run .detour).units =
    some ([(some "a_binding.py", none, true), (some "b_binding.py", none, true)], []) := by
  decide +kernel

/-- Without a grounded target a check can find a unit out of date that the pass does not change. -/
theorem check_misleads : ∃ report checked, (Request.detour.run .detour).result = .ok report ∧
    (∀ owner ∈ report.owners, ¬owner.Unwritten) ∧
    (Request.detour.check.run .detour).result = .ok checked ∧
    ¬∀ path, path ∈ checked.staleUnits ↔
      path ∈ changedPaths report.owners ∨ path ∈ report.prunedUnits := by
  obtain ⟨hunits, -⟩ := detour_run
  obtain ⟨report, hrun, howners, hpruned⟩ := PassOutcome.result_of_units hunits
  obtain ⟨checked, hchecked, hforeseen, -⟩ := PassOutcome.result_of_units detour_check
  refine ⟨report, checked, hrun, not_unwritten_of_units howners (by decide), hchecked,
    fun hsame => ?_⟩
  have hstale := (hsame "b_binding.py").mp
    ((mem_staleUnits rfl hchecked).mpr (.inl (by simp [changedPaths_eq, hforeseen])))
  simp [changedPaths_eq, howners, hpruned] at hstale

end Request

end ElementBinding
