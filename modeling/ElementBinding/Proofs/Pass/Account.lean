import ElementBinding.Proofs.Pass.UnitPaths

/-!
# The account of a pass

A report accounts for every class that was scanned: a class without fields and faults is counted as
skipped, every other one has a report of its own. Whichever way an owner or a module comes into the
report, its verdict agrees with its reasons, its error and its digest, and the counts and the final
word are those of the listed verdicts.
-/
namespace ElementBinding
open ElementBinding.Naming

/-- The class has fields or a fault of its own, so it may need a binder. -/
def DeclaredClass.Live (declared : DeclaredClass) : Prop :=
  declared.fields ≠ [] ∨ declared.fault ≠ none

instance (declared : DeclaredClass) : Decidable declared.Live :=
  inferInstanceAs (Decidable (_ ∨ _))

/-- The verdict on an owner agrees with the rest of its report. -/
structure OwnerReport.Consistent (checkOnly : Bool) (owner : OwnerReport) : Prop where
  error_iff : owner.judgement.verdict = .reject ↔ owner.error.isSome
  digest_iff : owner.judgement.verdict = .reject ↔ owner.digest = none
  single : owner.judgement.verdict = .reject → owner.judgement.reasons.length = 1
  accept_iff : owner.judgement.verdict = .accept ↔ owner.judgement.reasons = []
  warn_iff : owner.judgement.verdict = .warn ↔ owner.error = none ∧ owner.judgement.reasons ≠ []
  stale_iff : .staleUnit ∈ owner.judgement.reasons ↔ checkOnly = true ∧ owner.changed = true

structure ModuleReport.Consistent (module : ModuleReport) : Prop where
  reject_iff : module.judgement.verdict = .reject ↔ module.faults ≠ []
  none_scanned : module.judgement.verdict = .reject → module.classesScanned = 0

section Verdicts
variable {checkOnly : Bool}

theorem Spec.judge_cases (spec : Spec) :
    spec.judge = ⟨.accept, []⟩ ∨ ∃ reasons, spec.judge = ⟨.warn, reasons⟩ ∧ reasons ≠ [] ∧
      reasons ⊆ [.duplicateViewId, .untypedField] := by
  unfold Spec.judge
  dsimp only
  cases sharesViewId spec.fields <;> cases spec.fields.any (·.type.isNone) <;> simp

theorem emittedOwner_reasons (checkOnly : Bool) (spec : Spec) (emission : Emission) :
    (emittedOwner checkOnly spec emission).judgement.reasons ⊆
      [.duplicateViewId, .untypedField, .staleUnit] := by
  have hjudge : spec.judge.reasons ⊆ [.duplicateViewId, .untypedField] := by
    obtain hjudge | ⟨reasons, hjudge, -, hsub⟩ := spec.judge_cases
    · simp [hjudge]
    · rwa [hjudge]
  unfold emittedOwner
  dsimp only
  split
  · exact List.append_subset.mpr ⟨List.Subset.trans hjudge (by simp), by simp⟩
  · exact List.Subset.trans hjudge (by simp)

theorem rejectedOwner_consistent (declared : DeclaredClass) {reason : Reason}
    (hreason : reason ≠ .staleUnit) (error : String) (spec : Option Spec) :
    (rejectedOwner declared reason error spec).Consistent checkOnly := by
  constructor <;> simp [rejectedOwner, Ne.symm hreason]

theorem emittedOwner_consistent (spec : Spec) (emission : Emission) :
    (emittedOwner checkOnly spec emission).Consistent checkOnly := by
  by_cases hstale : checkOnly = true ∧ emission.changed = true
  · have hjudgement : (emittedOwner checkOnly spec emission).judgement =
        ⟨.warn, spec.judge.reasons ++ [.staleUnit]⟩ := if_pos (by simpa using hstale)
    constructor <;> rw [hjudgement] <;> simp [emittedOwner, hstale]
  · have hjudgement : (emittedOwner checkOnly spec emission).judgement = spec.judge :=
      if_neg (by simpa using hstale)
    obtain hjudge | ⟨reasons, hjudge, hreasons, hsub⟩ := spec.judge_cases
    · refine ⟨?_, ?_, ?_, ?_, ?_, iff_of_false ?_ hstale⟩ <;> rw [hjudgement, hjudge] <;>
        simp [emittedOwner]
    · have hnot : Reason.staleUnit ∉ reasons := fun hmem => absurd (hsub hmem) (by decide)
      refine ⟨?_, ?_, ?_, ?_, ?_, iff_of_false ?_ hstale⟩ <;> rw [hjudgement, hjudge] <;>
        simp [emittedOwner, hreasons, hnot]

theorem Fault.reason_ne_staleUnit (fault : Fault) : fault.reason ≠ .staleUnit := by
  unfold Fault.reason
  split <;> simp

end Verdicts

/-- What the report says of a class. -/
inductive Tells (request : Request) (classes : List DeclaredClass) (declared : DeclaredClass) :
    OwnerReport → Prop
  | rejected (fault : Fault) :
      Tells request classes declared (rejectedReport request.profile declared fault)
  | failed (message : String) :
      Tells request classes declared (failedOwner classes (declared.spec request.profile) message)
  | emitted (emission : Emission) : Tells request classes declared
      (emittedOwner request.checkOnly (declared.spec request.profile) emission)

namespace Tells
variable {request : Request} {classes : List DeclaredClass} {declared : DeclaredClass}
  {owner : OwnerReport}

theorem consistent (h : Tells request classes declared owner) :
    owner.Consistent request.checkOnly := by
  cases h with
  | rejected fault => exact rejectedOwner_consistent _ fault.reason_ne_staleUnit _ _
  | failed message => exact rejectedOwner_consistent _ (by decide) _ _
  | emitted emission => exact emittedOwner_consistent _ _

theorem owner_eq (h : Tells request classes declared owner) :
    owner.owner = declared.owner.qualifiedName := by
  cases h with
  | rejected fault => rfl
  | failed message =>
    cases hfound : declaredFor classes (declared.spec request.profile) with
    | none =>
      simp only [failedOwner, hfound]
      rfl
    | some found =>
      have hname := List.find?_some hfound
      simp only [failedOwner, hfound]
      exact of_decide_eq_true hname
  | emitted emission => rfl

end Tells

theorem EmitsAll.tells {request : Request} {root : Path} {classes : List DeclaredClass}
    {tree last : FileTree} {accepted : List DeclaredClass} {reports : List OwnerReport}
    {seen stale : List String}
    (h : EmitsAll request.checkOnly root request.profile classes tree
      (accepted.map (·.spec request.profile)) reports last seen stale) :
    List.Forall₂ (Tells request classes) accepted reports := by
  induction accepted generalizing tree reports seen stale with
  | nil => cases h; exact .nil
  | cons declared rest ih =>
    rw [List.map_cons] at h
    cases h with
    | cons rendered first more =>
      refine .cons ?_ (ih more)
      cases first with
      | kept => exact .emitted _
      | stale => exact .emitted _
      | written => exact .emitted _
      | unwritten => exact .failed _
      | refused => exact .failed _

private theorem sorted_perm (fate : DeclaredClass → Fate) (classes : List DeclaredClass) :
    (classes.filter (fun declared => (fate declared).fault?.isSome) ++
      (classes.filter (fun declared => (fate declared).collision?.isSome) ++
        classes.filter fun declared => (fate declared).spec?.isSome)).Perm
      (classes.filter fun declared => fate declared ≠ .skipped) := by
  induction classes with
  | nil => exact .nil
  | cons declared rest ih =>
    cases hfate : fate declared with
    | faulty fault =>
      simpa [List.filter_cons, hfate, Fate.fault?, Fate.collision?, Fate.spec?] using
        ih.cons declared
    | colliding fault =>
      have hmiddle := List.perm_middle.trans (ih.cons declared)
      simpa [List.filter_cons, hfate, Fate.fault?, Fate.collision?, Fate.spec?] using hmiddle
    | accepted spec =>
      rw [← List.append_assoc] at ih
      have hmiddle := List.perm_middle.trans (ih.cons declared)
      simpa [List.filter_cons, hfate, Fate.fault?, Fate.collision?, Fate.spec?] using hmiddle
    | skipped =>
      simpa [List.filter_cons, hfate, Fate.fault?, Fate.collision?, Fate.spec?] using ih

theorem skipped_iff {classes : List DeclaredClass} {profile : Profile}
    {known : List String} {declared : DeclaredClass} :
    declared.fate classes profile known = .skipped ↔ ¬declared.Live := by
  rw [eq_comm, ← meets_iff]
  constructor
  · intro h
    cases h with
    | skipped sound bare => simp [DeclaredClass.Live, sound, bare]
  · intro h
    rw [DeclaredClass.Live, not_or, not_not, not_not] at h
    exact .skipped h.2 h.1

private theorem forall₂_filterMap {α β γ : Type} {R : α → γ → Prop} {f : α → Option β}
    {g : α × β → γ} (h : ∀ a b, R a (g (a, b))) (items : List α) :
    List.Forall₂ R (items.filter fun a => (f a).isSome)
      ((items.filterMap fun a => (f a).map (a, ·)).map g) := by
  induction items with
  | nil => exact .nil
  | cons a rest ih =>
    rw [List.forall₂_map_right_iff] at ih ⊢
    cases hf : f a with
    | none => simpa [hf] using ih
    | some b => simpa [hf] using ⟨h a b, ih⟩

private theorem filterMap_eq_map {α β : Type} {f : α → Option β} {g : α → β}
    (h : ∀ a b, f a = some b → b = g a) (items : List α) :
    items.filterMap f = (items.filter fun a => (f a).isSome).map g := by
  induction items with
  | nil => rfl
  | cons a rest ih =>
    cases hf : f a with
    | none => simpa [hf] using ih
    | some b => simpa [hf, ← h a b hf] using ih

theorem OwnerCounts.total_of (owners : List OwnerReport) (skipped : Nat) :
    (OwnerCounts.of owners skipped).total = (OwnerCounts.of owners skipped).accept +
      (OwnerCounts.of owners skipped).warn + (OwnerCounts.of owners skipped).reject := by
  induction owners with
  | nil => rfl
  | cons owner rest ih =>
    simp only [OwnerCounts.of, List.length_cons, List.countP_cons] at ih ⊢
    cases owner.judgement.verdict <;> simp <;> omega

/-- What a module reports of its scan. -/
structure ModuleScan.Accounts (scan : ModuleScan) (file : SourceFile) : Prop where
  moduleName : scan.report.moduleName = file.moduleName
  consistent : scan.report.Consistent
  classesScanned : scan.report.classesScanned = scan.classes.length

namespace Request
variable {request : Request} {tree : FileTree} {report : Report}

theorem scanFile_accounts (request : Request) (tree : FileTree) (file : SourceFile) :
    (request.scanFile tree file).Accounts file := by
  unfold scanFile
  dsimp only
  split
  · exact ⟨rfl, ⟨by simp, fun _ => rfl⟩, rfl⟩
  · rename_i octets _
    cases htree : (Source.ofOctets octets).tree with
    | none =>
      constructor
      case consistent => constructor <;> simp [Source.scan, Source.judge, htree]
      all_goals simp [Source.scan, htree]
    | some parsed =>
      constructor
      case consistent => constructor <;> simp [Source.scan, Source.judge, htree]
      all_goals simp [Source.scan, htree]

theorem sum_classesScanned (request : Request) (tree : FileTree) (files : List SourceFile) :
    (((request.scans tree files).map (·.report)).map (·.classesScanned)).sum =
      (request.classes tree files).length := by
  rw [classes, scans, List.length_flatMap, List.map_map, List.map_map, List.map_map]
  exact congrArg List.sum (List.map_congr_left fun file _ =>
    (scanFile_accounts request tree file).classesScanned)

/-- Every class that may need a binder is told of once, and no other. -/
theorem Course.tells (course : request.Course tree) :
    ∃ listed, listed.Perm ((request.classes tree course.files).filter (·.Live)) ∧
      List.Forall₂ (Tells request (request.classes tree course.files)) listed
        course.report.owners := by
  let classes := request.classes tree course.files
  let fate (declared : DeclaredClass) : Fate :=
    declared.fate classes request.profile (course.files.map (·.moduleName))
  have hlive : classes.filter (fate · ≠ .skipped) = classes.filter (·.Live) :=
    List.filter_congr fun declared _ => by simp [fate, skipped_iff]
  have hspecs : (request.built tree course.files).specs =
      (classes.filter fun declared => (fate declared).spec?.isSome).map
        (·.spec request.profile) :=
    build_specs_eq.trans (filterMap_eq_map (fun _ _ h => (accepted_of_spec? h).1) classes)
  have hemits := course.emits
  rw [hspecs] at hemits
  have hrejected {fault? : DeclaredClass → Option Fault} :
      List.Forall₂ (Tells request classes)
        (classes.filter fun declared => (fault? declared).isSome)
        ((classes.filterMap fun declared => (fault? declared).map (declared, ·)).map
          fun rejected => rejectedReport request.profile rejected.1 rejected.2) :=
    forall₂_filterMap (fun _ fault => .rejected fault) classes
  refine ⟨_, (sorted_perm fate classes).trans (.of_eq hlive), ?_⟩
  have howners : course.report.owners =
      ((request.built tree course.files).faulty ++ (request.built tree course.files).colliding).map
        (fun rejected => rejectedReport request.profile rejected.1 rejected.2) ++
      course.emitted := rfl
  rw [howners, List.map_append, List.append_assoc, built, build_faulty_eq, build_colliding_eq]
  exact List.rel_append hrejected (List.rel_append hrejected hemits.tells)

end Request

/-- A report accounts for the classes of a pass. -/
structure Report.Accounts (report : Report) (request : Request) (classes : List DeclaredClass) :
    Prop where
  told : ∃ listed, listed.Perm (classes.filter (·.Live)) ∧
    List.Forall₂ (fun declared owner => owner.owner = declared.owner.qualifiedName ∧
      Tells request classes declared owner) listed report.owners
  scanned : (report.modules.map (·.classesScanned)).sum =
    report.counts.total + report.counts.skipped
  total_eq : report.counts.total =
    report.counts.accept + report.counts.warn + report.counts.reject
  total_owners : report.counts.total = report.owners.length
  counts_eq : report.counts = .of report.owners (classes.filter (¬·.Live)).length
  owners : ∀ owner ∈ report.owners, owner.Consistent request.checkOnly
  modules : ∀ module ∈ report.modules, module.Consistent
  ok_iff : report.ok = true ↔
    (∀ module ∈ report.modules, module.judgement.verdict ≠ .reject) ∧
      (∀ owner ∈ report.owners, owner.judgement.verdict ≠ .reject) ∧
      ¬(request.checkOnly = true ∧ report.staleUnits ≠ [])

namespace Request
variable {request : Request} {tree : FileTree} {report : Report}

private theorem ok_iff (report : Report) (skipped : Nat)
    (hcounts : report.counts = .of report.owners skipped) :
    report.ok = true ↔ (∀ module ∈ report.modules, module.judgement.verdict ≠ .reject) ∧
      (∀ owner ∈ report.owners, owner.judgement.verdict ≠ .reject) ∧
      ¬(report.checkOnly = true ∧ report.staleUnits ≠ []) := by
  rw [Report.ok, hcounts]
  cases report.checkOnly <;> simp [OwnerCounts.of, List.countP_eq_zero, and_assoc]

/-- No class is lost: a pass that gives a report has scanned some modules, and its report accounts
for every class in them. -/
theorem run_accounts (hrun : (request.run tree).result = .ok report) :
    ∃ files, discover tree request.sourceRoot request.exclude = .ok files ∧
      List.Forall₂ (fun file module => module.moduleName = file.moduleName ∧
        module.classesScanned = (request.scanFile tree file).classes.length) files report.modules ∧
      report.Accounts request (request.classes tree files) := by
  obtain ⟨course, rfl, -⟩ := run_ok hrun
  obtain ⟨listed, hperm, htells⟩ := course.tells
  have hcounts : course.report.counts = .of course.report.owners
      ((request.classes tree course.files).filter (¬·.Live)).length := by
    change OwnerCounts.of course.report.owners (request.built tree course.files).skipped.length = _
    rw [built, build_skipped_eq]
    simp only [skipped_iff]
  have htotal : course.report.counts.total = course.report.owners.length := by rw [hcounts]; rfl
  refine ⟨course.files, course.discovered, ?_, ?_⟩
  · change List.Forall₂ _ course.files
      ((course.files.map (request.scanFile tree)).map (·.report))
    rw [List.map_map, List.forall₂_map_right_iff, List.forall₂_same]
    intro file _
    have haccounts := scanFile_accounts request tree file
    exact ⟨haccounts.moduleName, haccounts.classesScanned⟩
  exact {
    told := ⟨listed, hperm, htells.imp fun _ _ h => ⟨h.owner_eq, h⟩⟩
    -- Every class is live or skipped, and the live ones are those that are told of.
    scanned := by
      have hlength := (request.classes tree course.files).length_eq_length_filter_add (·.Live)
      rw [← hperm.length_eq, htells.length_eq] at hlength
      have hskipped : course.report.counts.skipped =
          ((request.classes tree course.files).filter (¬·.Live)).length := by rw [hcounts]; rfl
      rw [htotal, hskipped]
      refine (sum_classesScanned request tree course.files).trans (hlength.trans ?_)
      simp only [decide_not]
    total_eq := by
      rw [hcounts]
      exact OwnerCounts.total_of _ _
    total_owners := htotal
    counts_eq := hcounts
    owners := fun owner howner => by
      obtain ⟨declared, -, h⟩ := forall₂_mem_left htells.flip owner howner
      exact h.consistent
    modules := fun module hmodule => by
      obtain ⟨scan, hscan, rfl⟩ := List.mem_map.mp hmodule
      obtain ⟨file, -, rfl⟩ := List.mem_map.mp hscan
      exact (scanFile_accounts request tree file).consistent
    ok_iff := ok_iff course.report _ hcounts }

end Request

def FileTree.mixed : FileTree := ⟨[(["src"], .directory), (["src", "m.py"], .file (Text.encode
  "class A:\n    f = bind_view(1)\nclass B:\n    g = bind_view()\nclass C:\n    pass\n"))]⟩

theorem Request.mixed_beside : (beside.run .mixed).result.toOption.map (·.counts) =
    some ⟨2, 0, 1, 1, 1⟩ := by
  decide +kernel

theorem Request.run_accounts_mixed : ∃ report, (beside.run .mixed).result = .ok report ∧
    report.counts = ⟨2, 0, 1, 1, 1⟩ ∧
    ∃ files, discover .mixed beside.sourceRoot beside.exclude = .ok files ∧
      List.Forall₂ (fun file module => module.moduleName = file.moduleName ∧
        module.classesScanned = (beside.scanFile .mixed file).classes.length) files
          report.modules ∧
      report.Accounts beside (beside.classes .mixed files) := by
  obtain ⟨report, hrun, hcounts⟩ := PassOutcome.result_of_shown mixed_beside
  exact ⟨report, hrun, hcounts, run_accounts hrun⟩

end ElementBinding
