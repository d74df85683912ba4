import ElementBinding.Pass
import ElementBinding.Proofs.Action
import ElementBinding.Proofs.FileTree.Grounded

/-!
# Emitting the owners of a pass

One owner's unit is kept, found out of date, written or refused, by what stands where it goes. A
run over all owners is a chain of such steps through the trees they leave; events and the lists of
what was written play no part in it.
-/
namespace ElementBinding
open ElementBinding.Text

theorem existingUnit_eq (tree : FileTree) (target : Path) (unitPath : String) :
    existingUnit tree target unitPath =
      match tree.find? target with
      | none => .ok none
      | some .directory => .error (.file (.at .isDirectory target))
      | some (.file octets) =>
        match readText octets with
        | none => .error .undecodable
        | some text =>
          if isGenerated text then .ok (some text)
          else .error (.emit (.refused target unitPath)) := by
  unfold existingUnit FileTree.read FileTree.find?
  cases hlocate : tree.locate target with
  | error condition => simp
  | ok place =>
    rcases hplace : tree.lookup place with _ | _ | octets
    · simp [hplace]
    · simp [hplace]
    · simp only [hplace, Option.isNone_some]
      rfl

theorem existingUnit_of_generated {tree : FileTree} {target : Path} {octets : Octets}
    {text : List Char} (hfind : tree.find? target = some (.file octets))
    (htext : readText octets = some text) (hmark : isGenerated text) (unitPath : String) :
    existingUnit tree target unitPath = .ok (some text) := by
  rw [existingUnit_eq, hfind]
  simp [htext, hmark]

theorem existingUnit_of_handWritten {tree : FileTree} {target : Path} {octets : Octets}
    {text : List Char} (hfind : tree.find? target = some (.file octets))
    (htext : readText octets = some text) (hmark : isGenerated text = false) (unitPath : String) :
    existingUnit tree target unitPath = .error (.emit (.refused target unitPath)) := by
  rw [existingUnit_eq, hfind]
  simp [htext, hmark]

theorem file_of_existingUnit {tree : FileTree} {target : Path} {unitPath : String}
    {text : List Char} (h : existingUnit tree target unitPath = .ok (some text)) :
    ∃ octets, tree.find? target = some (.file octets) ∧ readText octets = some text := by
  rw [existingUnit_eq] at h
  rcases hfind : tree.find? target with _ | _ | octets
  · simp [hfind] at h
  · simp [hfind] at h
  · cases hread : readText octets with
    | none => simp [hfind, hread] at h
    | some found =>
      simp only [hfind, hread] at h
      split at h
      · exact ⟨octets, rfl, hread.trans (Except.ok.inj h)⟩
      · simp at h

private theorem judge_verdict (spec : Spec) : spec.judge.verdict ≠ .reject := by
  unfold Spec.judge
  dsimp only
  generalize (if sharesViewId spec.fields then [Reason.duplicateViewId] else []) ++
    (if spec.fields.any (·.type.isNone) then [.untypedField] else []) = reasons
  cases reasons <;> simp

theorem emittedOwner_verdict (checkOnly : Bool) (spec : Spec) (emission : Emission) :
    (emittedOwner checkOnly spec emission).judgement.verdict ≠ .reject := by
  unfold emittedOwner
  dsimp only
  split
  · simp
  · exact judge_verdict spec

/-- The report on an owner whose unit could not be emitted. -/
def failedOwner (classes : List DeclaredClass) (spec : Spec) (message : String) : OwnerReport :=
  rejectedOwner ((declaredFor classes spec).getD
    { owner := ⟨spec.ownerModule, spec.ownerName, false⟩, fields := spec.fields })
    .emitError message (some spec)

section

variable (checkOnly : Bool) (root : Path) (profile : Profile) (classes : List DeclaredClass)

/-- What can become of an owner's unit: the report on the owner, the tree that is left, and the
units found out of date. -/
inductive Emits (spec : Spec) (unit : BinderUnit) (tree : FileTree) :
    OwnerReport → FileTree → List String → Prop
  | kept (found : existingUnit tree (root.extend unit.path) unit.path =
        .ok (some unit.source.toList)) :
      Emits spec unit tree (emittedOwner checkOnly spec ⟨unit, false⟩) tree []
  | stale {existing : Option (List Char)}
      (found : existingUnit tree (root.extend unit.path) unit.path = .ok existing)
      (differs : existing ≠ some unit.source.toList) (checked : checkOnly = true) :
      Emits spec unit tree (emittedOwner checkOnly spec ⟨unit, true⟩) tree [unit.path]
  | written {existing : Option (List Char)} {next : FileTree}
      (found : existingUnit tree (root.extend unit.path) unit.path = .ok existing)
      (differs : existing ≠ some unit.source.toList) (unchecked : checkOnly = false)
      (applied : tree.applyAll (tree.writeSteps (root.extend unit.path) (encode unit.source)) =
        (next, none)) :
      Emits spec unit tree (emittedOwner checkOnly spec ⟨unit, true⟩) next []
  | unwritten {existing : Option (List Char)} {next : FileTree} {fault : FileFault}
      (found : existingUnit tree (root.extend unit.path) unit.path = .ok existing)
      (differs : existing ≠ some unit.source.toList) (unchecked : checkOnly = false)
      (applied : tree.applyAll (tree.writeSteps (root.extend unit.path) (encode unit.source)) =
        (next, some fault)) :
      Emits spec unit tree
        (failedOwner classes spec (EmitFault.notWritten unit.path fault).message) next []
  | refused {met : WriteFault} {fault : EmitFault}
      (found : existingUnit tree (root.extend unit.path) unit.path = .error met)
      (stopped : met.toStop unit = .fault fault) :
      Emits spec unit tree (failedOwner classes spec fault.message) tree []

/-- A chain of emissions: the reports, the tree that is left, the units handed over, and those found
out of date. -/
inductive EmitsAll : FileTree → List Spec → List OwnerReport → FileTree → List String →
    List String → Prop
  | nil (tree : FileTree) : EmitsAll tree [] [] tree [] []
  | cons {spec : Spec} {specs : List Spec} {unit : BinderUnit} {tree next last : FileTree}
      {report : OwnerReport} {reports : List OwnerReport} {seen stale more : List String}
      (rendered : spec.render profile = .ok unit)
      (first : Emits checkOnly root classes spec unit tree report next stale)
      (rest : EmitsAll next specs reports last seen more) :
      EmitsAll tree (spec :: specs) (report :: reports) last (unit.path :: seen) (stale ++ more)

end

theorem EmitsAll.emitted {checkOnly : Bool} {root : Path} {profile : Profile}
    {classes : List DeclaredClass} {tree last : FileTree} {specs : List Spec}
    {reports : List OwnerReport} {seen stale : List String}
    (h : EmitsAll checkOnly root profile classes tree specs reports last seen stale) :
    ∀ owner ∈ reports, owner.judgement.verdict ≠ .reject → ∃ spec ∈ specs, ∃ unit changed,
      spec.render profile = .ok unit ∧ owner = emittedOwner checkOnly spec ⟨unit, changed⟩ := by
  induction h with
  | nil => simp
  | @cons spec specs unit _ _ _ _ _ _ _ _ rendered first _ ih =>
    rw [List.forall_mem_cons]
    refine ⟨fun haccepted => ?_, fun owner howner haccepted => ?_⟩
    · refine ⟨spec, List.mem_cons_self, unit, ?_⟩
      cases first with
      | kept => exact ⟨false, rendered, rfl⟩
      | stale => exact ⟨true, rendered, rfl⟩
      | written => exact ⟨true, rendered, rfl⟩
      | unwritten => exact absurd rfl haccepted
      | refused => exact absurd rfl haccepted
    · obtain ⟨other, hother, hunit⟩ := ih owner howner haccepted
      exact ⟨other, List.mem_cons_of_mem _ hother, hunit⟩

/-- What emissions leave of a site, but for events. -/
structure SiteAfter (before after : Site) (tree : FileTree) (seen stale : List String) : Prop where
  tree : after.tree = tree
  root : after.sink.root = before.sink.root
  checkOnly : after.sink.checkOnly = before.sink.checkOnly
  seen : after.sink.seen = before.sink.seen ++ seen
  stale : after.sink.stale = before.sink.stale ++ stale

section

variable {request : Request} {classes : List DeclaredClass} {spec : Spec} {site after : Site}

/-- What handing a unit to the sink does, by what stands where it goes. -/
theorem write_from (unit : BinderUnit) (site : Site) :
    (DirectorySink.write unit).from site =
      (let handed : Site := { site with sink.seen := site.sink.seen ++ [unit.path] }
      let target := site.sink.root.extend unit.path
      match existingUnit site.tree target unit.path with
      | .error fault => (.error fault, handed)
      | .ok existing =>
        if existing = some unit.source.toList then
          (.ok false, { handed with sink.unchanged := site.sink.unchanged ++ [unit.path] })
        else if site.sink.checkOnly then
          (.ok true, ({ handed with sink.stale := site.sink.stale ++ [unit.path] } : Site).report
            (.stale target))
        else match site.tree.applyAll (site.tree.writeSteps target (encode unit.source)) with
          | (tree, some fault) => (.error (.file fault), { handed with tree })
          | (tree, none) =>
            (.ok true, ({ handed with tree, sink.written := site.sink.written ++ [unit.path] } :
              Site).report (.wrote target))) := by
  unfold DirectorySink.write
  simp only [Action.from_bind, Action.from_modify, Action.from_get, Action.from_lift,
    DirectorySink.target]
  cases existingUnit site.tree (site.sink.root.extend unit.path) unit.path with
  | error fault => rfl
  | ok existing =>
    dsimp only
    by_cases hkept : existing = some unit.source.toList
    · rw [if_pos hkept, if_pos hkept]
      rfl
    · rw [if_neg hkept, if_neg hkept]
      cases hcheck : site.sink.checkOnly with
      | true => rfl
      | false =>
        rcases happly : site.tree.applyAll (site.tree.writeSteps
          (site.sink.root.extend unit.path) (encode unit.source)) with ⟨tree, _ | fault⟩
        · rfl
        · rfl

theorem emitFile_from (spec : Spec) (profile : Profile) (site : Site) :
    (emitFile spec profile).from site =
      match spec.render profile with
      | .error fault => (.error (.render fault), site)
      | .ok unit =>
        match (DirectorySink.write unit).from site with
        | (.ok changed, after) => (.ok ⟨unit, changed⟩,
            after.report (.emitted unit.moduleName spec.fields.length changed))
        | (.error fault, after) => (.error (fault.toStop unit), after) := by
  unfold emitFile emit
  simp only [Action.from_bind]
  cases spec.render profile with
  | error fault => rfl
  | ok unit =>
    simp only [Action.from_bind, Action.from_pure, Action.from_adapt]
    rcases (DirectorySink.write unit).from site with ⟨_ | changed, after⟩
    · rfl
    · rfl

theorem emitOwner_from (request : Request) (classes : List DeclaredClass) (spec : Spec)
    (site : Site) :
    (emitOwner request classes spec).from site =
      match (emitFile spec request.profile).from site with
      | (.ok emission, after) => (.ok (emittedOwner request.checkOnly spec emission), after)
      | (.error (.fault fault), after) => (.ok (failedOwner classes spec fault.message),
          after.report (.emitFailed spec.ownerQualifiedName fault.message))
      | (.error (.render fault), after) => (.error (.render fault), after)
      | (.error .undecodable, after) => (.error .undecodable, after)
      | (.error (.other kind message), after) => (.error (.other kind message), after) := by
  unfold emitOwner
  rw [Action.from_bind_of_ok (Action.from_get site)]
  generalize hrun : (emitFile spec request.profile).from site = result
  unfold Action.from at hrun
  simp only [hrun]
  rcases result with ⟨(fault | fault | _ | kind) | emission, after⟩
  all_goals rfl

/-- An emission that is reported on is one of those that can come of a unit. -/
theorem emitOwner_ok {report : OwnerReport} (hcheck : site.sink.checkOnly = request.checkOnly)
    (h : (emitOwner request classes spec).from site = (.ok report, after)) :
    ∃ unit tree stale, spec.render request.profile = .ok unit ∧
      Emits request.checkOnly site.sink.root classes spec unit site.tree report tree stale ∧
      SiteAfter site after tree [unit.path] stale := by
  rw [emitOwner_from, emitFile_from] at h
  cases hrender : spec.render request.profile with
  | error fault => simp [hrender] at h
  | ok unit =>
    simp only [hrender, write_from] at h
    cases hfound : existingUnit site.tree (site.sink.root.extend unit.path) unit.path with
    | error met =>
      simp only [hfound] at h
      cases hstop : met.toStop unit with
      | fault fault =>
        simp only [hstop, Prod.mk.injEq, Except.ok.injEq] at h
        obtain ⟨rfl, rfl⟩ := h
        exact ⟨unit, _, _, rfl, .refused hfound hstop, ⟨rfl, rfl, rfl, rfl, by simp [Site.report]⟩⟩
      | render fault => simp [hstop] at h
      | undecodable => simp [hstop] at h
      | other kind message => simp [hstop] at h
    | ok existing =>
      simp only [hfound] at h
      by_cases hkept : existing = some unit.source.toList
      · subst hkept
        simp only [if_true, Prod.mk.injEq, Except.ok.injEq] at h
        obtain ⟨rfl, rfl⟩ := h
        exact ⟨unit, _, _, rfl, .kept hfound, ⟨rfl, rfl, rfl, rfl, by simp [Site.report]⟩⟩
      · simp only [hkept, if_false] at h
        cases hcheckOnly : request.checkOnly with
        | true =>
          simp only [hcheck, hcheckOnly, if_true, Prod.mk.injEq, Except.ok.injEq] at h
          obtain ⟨rfl, rfl⟩ := h
          exact ⟨unit, _, _, rfl, .stale hfound hkept rfl,
            ⟨rfl, rfl, (hcheck.trans hcheckOnly).symm, rfl, rfl⟩⟩
        | false =>
          simp only [hcheck, hcheckOnly, Bool.false_eq_true, if_false] at h
          rcases happly : site.tree.applyAll (site.tree.writeSteps
            (site.sink.root.extend unit.path) (encode unit.source)) with ⟨tree, _ | fault⟩
          · simp only [happly, Prod.mk.injEq, Except.ok.injEq] at h
            obtain ⟨rfl, rfl⟩ := h
            exact ⟨unit, _, _, rfl, .written hfound hkept rfl happly,
              ⟨rfl, rfl, (hcheck.trans hcheckOnly).symm, rfl, by simp [Site.report]⟩⟩
          · simp only [happly, WriteFault.toStop, Prod.mk.injEq, Except.ok.injEq] at h
            obtain ⟨rfl, rfl⟩ := h
            exact ⟨unit, _, _, rfl, .unwritten hfound hkept rfl happly,
              ⟨rfl, rfl, (hcheck.trans hcheckOnly).symm, rfl, by simp [Site.report]⟩⟩

/-- An emission that interrupts the pass has changed no file. -/
theorem emitOwner_error {interruption : Interruption}
    (h : (emitOwner request classes spec).from site = (.error interruption, after)) :
    after.tree = site.tree := by
  rw [emitOwner_from, emitFile_from] at h
  cases hrender : spec.render request.profile with
  | error fault =>
    simp only [hrender, Prod.mk.injEq] at h
    rw [← h.2]
  | ok unit =>
    simp only [hrender, write_from] at h
    cases hfound : existingUnit site.tree (site.sink.root.extend unit.path) unit.path with
    | error met =>
      simp only [hfound] at h
      cases hstop : met.toStop unit with
      | fault fault => simp [hstop] at h
      | render fault | undecodable | other kind message =>
        simp only [hstop, Prod.mk.injEq] at h
        rw [← h.2]
    | ok existing =>
      simp only [hfound] at h
      by_cases hkept : existing = some unit.source.toList
      · simp [hkept] at h
      · simp only [hkept, if_false] at h
        cases hcheck : site.sink.checkOnly with
        | true => simp [hcheck] at h
        | false =>
          simp only [hcheck, Bool.false_eq_true, if_false] at h
          rcases happly : site.tree.applyAll (site.tree.writeSteps
            (site.sink.root.extend unit.path) (encode unit.source)) with ⟨tree, _ | fault⟩
          · simp [happly] at h
          · simp [happly, WriteFault.toStop] at h

theorem emitOwner_of {unit : BinderUnit} {tree : FileTree} {stale : List String}
    {report : OwnerReport} (hcheck : site.sink.checkOnly = request.checkOnly)
    (hrender : spec.render request.profile = .ok unit)
    (h : Emits request.checkOnly site.sink.root classes spec unit site.tree report tree stale) :
    ∃ after, (emitOwner request classes spec).from site = (.ok report, after) ∧
      SiteAfter site after tree [unit.path] stale := by
  rw [emitOwner_from, emitFile_from]
  simp only [hrender, write_from]
  cases h with
  | kept found =>
    simp only [found, if_true]
    exact ⟨_, rfl, ⟨rfl, rfl, rfl, rfl, by simp [Site.report]⟩⟩
  | stale found differs checked =>
    simp only [found, differs, if_false, hcheck, checked, if_true]
    exact ⟨_, rfl, ⟨rfl, rfl, by simp [hcheck, checked, Site.report], rfl, rfl⟩⟩
  | written found differs unchecked applied =>
    simp only [found, differs, if_false, hcheck, unchecked, Bool.false_eq_true, applied]
    exact ⟨_, rfl, ⟨rfl, rfl, by simp [hcheck, unchecked, Site.report], rfl, by simp [Site.report]⟩⟩
  | unwritten found differs unchecked applied =>
    simp only [found, differs, if_false, hcheck, unchecked, Bool.false_eq_true, applied]
    exact ⟨_, rfl, ⟨rfl, rfl, by simp [hcheck, unchecked, Site.report], rfl, by simp [Site.report]⟩⟩
  | refused found stopped =>
    simp only [found, stopped]
    exact ⟨_, rfl, ⟨rfl, rfl, rfl, rfl, by simp [Site.report]⟩⟩

theorem SiteAfter.trans {first second third : Site} {tree tree' : FileTree}
    {seen seen' stale stale' : List String} (h : SiteAfter first second tree seen stale)
    (h' : SiteAfter second third tree' seen' stale') :
    SiteAfter first third tree' (seen ++ seen') (stale ++ stale') where
  tree := h'.tree
  root := h'.root.trans h.root
  checkOnly := h'.checkOnly.trans h.checkOnly
  seen := by rw [h'.seen, h.seen, List.append_assoc]
  stale := by rw [h'.stale, h.stale, List.append_assoc]

theorem SiteAfter.quiet {first second third : Site} {tree : FileTree} {seen stale : List String}
    (h : SiteAfter first second tree seen stale) (h' : SiteAfter second third second.tree [] []) :
    SiteAfter first third tree seen stale where
  tree := h'.tree.trans h.tree
  root := h'.root.trans h.root
  checkOnly := h'.checkOnly.trans h.checkOnly
  seen := by rw [h'.seen, h.seen, List.append_nil]
  stale := by rw [h'.stale, h.stale, List.append_nil]

/-- A run over all owners is a chain of emissions. -/
theorem emitAll_ok {specs : List Spec} {reports : List OwnerReport}
    (hcheck : site.sink.checkOnly = request.checkOnly)
    (h : (specs.mapM (emitOwner request classes)).from site = (.ok reports, after)) :
    ∃ tree seen stale, EmitsAll request.checkOnly site.sink.root request.profile classes site.tree
      specs reports tree seen stale ∧ SiteAfter site after tree seen stale := by
  rw [Action.mapM_from_iff] at h
  induction h with
  | nil state => exact ⟨_, [], [], .nil _, ⟨rfl, rfl, rfl, by simp, by simp⟩⟩
  | cons first more ih =>
    obtain ⟨unit, next, stale, hrender, hemits, hsite⟩ := emitOwner_ok hcheck first
    obtain ⟨tree, seen, more, hall, hrest⟩ := ih (hsite.checkOnly.trans hcheck)
    rw [hsite.root, hsite.tree] at hall
    exact ⟨tree, _, _, .cons hrender hemits hall, hsite.trans hrest⟩

/-- A run over all owners that is interrupted leaves what a chain of emissions left. -/
theorem emitAll_error {specs : List Spec} {interruption : Interruption}
    (hcheck : site.sink.checkOnly = request.checkOnly)
    (h : (specs.mapM (emitOwner request classes)).from site = (.error interruption, after)) :
    ∃ front reports seen stale, EmitsAll request.checkOnly site.sink.root request.profile classes
      site.tree front reports after.tree seen stale := by
  obtain ⟨front, spec, rest, reports, middle, -, hfront, hspec⟩ := Action.mapM_from_error h
  obtain ⟨tree, seen, stale, hemits, hsite⟩ := emitAll_ok hcheck (Action.mapM_from_iff.mpr hfront)
  rw [← hsite.tree, ← emitOwner_error hspec] at hemits
  exact ⟨front, reports, seen, stale, hemits⟩

theorem emitAll_of {root : Path} {tree last : FileTree} {specs : List Spec}
    {reports : List OwnerReport} {seen stale : List String}
    (h : EmitsAll request.checkOnly root request.profile classes tree specs reports last seen stale)
    (hcheck : site.sink.checkOnly = request.checkOnly) (hroot : site.sink.root = root)
    (htree : site.tree = tree) :
    ∃ after, (specs.mapM (emitOwner request classes)).from site = (.ok reports, after) ∧
      SiteAfter site after last seen stale := by
  simp only [Action.mapM_from_iff]
  induction h generalizing site with
  | nil tree => exact ⟨site, .nil site, ⟨htree, rfl, rfl, by simp, by simp⟩⟩
  | cons rendered first rest ih =>
    subst hroot htree
    obtain ⟨middle, hfirst, hsite⟩ := emitOwner_of hcheck rendered first
    obtain ⟨after, hrest, hafter⟩ := ih (hsite.checkOnly.trans hcheck) hsite.root hsite.tree
    exact ⟨after, .cons hfirst hrest, hsite.trans hafter⟩

end

end ElementBinding
