import ElementBinding.Proofs.FileTree.Below
import ElementBinding.Proofs.FileTree.Writing
import ElementBinding.Proofs.Pass.Specs

/-!
# Units below a grounded target

Below a grounded target an emission sees what stands at the place of its unit, and fails to write
only if a file is in the way of its directories. Directories are made on the way to units, where no
unit and no other source file can stand, so the emissions of different units do not meet.
-/
namespace ElementBinding
open ElementBinding.Text

/-- A place on the way to the target or to units below it. -/
def OnTheWay (root : Path) (place : Location) : Prop :=
  ∃ dirs : List String, (∀ dir ∈ dirs, '.' ∉ dir.toList) ∧ place <+: root.place ++ dirs

/-- A place below the target with the name of a source file. -/
def SourcePlace (root : Path) (place : Location) : Prop :=
  ∃ dirs leaf, place = root.place ++ (dirs ++ [leaf]) ∧ ".py".toList <:+ leaf.toList

/-- Nothing but a generated file stands at a place. -/
def Claimable (tree : FileTree) (place : Location) : Prop :=
  ∀ entry, tree.lookup place = some entry →
    ∃ content, entry = .file content ∧ isGenerated (decodeTolerant content)

/-- All that is new are directories on the way to units, but for some generated source files. -/
def Reworked (root : Path) (touched : Location → Prop) (before after : FileTree) : Prop :=
  ∀ place, after.lookup place = before.lookup place ∨
    (before.lookup place = none ∧ after.lookup place = some .directory ∧ OnTheWay root place) ∨
    (touched place ∧ SourcePlace root place ∧ Claimable before place ∧ Claimable after place)

section

variable {root : Path} {place : Location} {touched touched' : Location → Prop}
  {before after : FileTree}

theorem SourcePlace.not_onTheWay (h : SourcePlace root place) : ¬OnTheWay root place := by
  obtain ⟨dirs, leaf, rfl, hending⟩ := h
  rintro ⟨others, hothers, hpre⟩
  have hleaf : leaf ∈ others := by
    rw [List.prefix_append_right_inj] at hpre
    exact hpre.subset (by simp)
  exact hothers leaf hleaf (hending.subset (by decide))

theorem Claimable.congr (h : Claimable before place)
    (hsame : after.lookup place = before.lookup place) : Claimable after place :=
  fun entry hentry => h entry (hsame ▸ hentry)

theorem Claimable.not_directory (h : Claimable before place) :
    before.lookup place ≠ some .directory := by
  intro hdir
  obtain ⟨content, hfile, -⟩ := h _ hdir
  simp at hfile

theorem IsUnitPath.place_eq {path leaf : String} {dirs : List String}
    (h : IsUnitPath path dirs leaf)
    (root : Path) : (root.extend path).place = root.place ++ (dirs ++ [leaf]) := by
  rw [h.extend, FileTree.place_append h.notDots]

theorem IsUnitPath.sourcePlace {path leaf : String} {dirs : List String}
    (h : IsUnitPath path dirs leaf) (root : Path) : SourcePlace root (root.extend path).place :=
  ⟨dirs, leaf, h.place_eq root, h.leaf.2⟩

namespace Reworked

theorem refl (root : Path) (touched : Location → Prop) (tree : FileTree) :
    Reworked root touched tree tree := fun _ => .inl rfl

theorem mono (h : Reworked root touched before after)
    (himp : ∀ place, touched place → touched' place) :
    Reworked root touched' before after :=
  fun place => (h place).imp_right fun hnew => hnew.imp_right fun hold =>
    ⟨himp place hold.1, hold.2⟩

theorem trans {middle : FileTree} (h : Reworked root touched before middle)
    (h' : Reworked root touched middle after) : Reworked root touched before after := by
  intro place
  rcases h place with heq | ⟨hnone, hdir, hway⟩ | ⟨htouched, hsource, hbefore, hmiddle⟩
  · rcases h' place with heq' | ⟨hnone', hnew⟩ | ⟨htouched, hsource, hmiddle, hafter⟩
    · exact .inl (heq'.trans heq)
    · exact .inr (.inl ⟨heq ▸ hnone', hnew⟩)
    · exact .inr (.inr ⟨htouched, hsource, hmiddle.congr heq.symm, hafter⟩)
  · rcases h' place with heq' | ⟨hnone', _⟩ | ⟨_, _, hmiddle, _⟩
    · exact .inr (.inl ⟨hnone, heq'.trans hdir, hway⟩)
    · simp [hdir] at hnone'
    · exact absurd hdir hmiddle.not_directory
  · rcases h' place with heq' | ⟨_, _, hway⟩ | ⟨_, _, _, hafter⟩
    · exact .inr (.inr ⟨htouched, hsource, hbefore, hmiddle.congr heq'⟩)
    · exact absurd hway hsource.not_onTheWay
    · exact .inr (.inr ⟨htouched, hsource, hbefore, hafter⟩)

theorem keeps (h : Reworked root touched before after) : FileTree.Keeps before after := by
  intro place hplace
  rcases h place with heq | ⟨hnone, _⟩ | ⟨_, _, hbefore, _⟩
  · exact heq.trans hplace
  · simp [hplace] at hnone
  · exact absurd hplace hbefore.not_directory

theorem lookup_eq (h : Reworked root touched before after) (hsource : SourcePlace root place)
    (huntouched : ¬touched place) : after.lookup place = before.lookup place := by
  rcases h place with heq | ⟨_, _, hway⟩ | ⟨htouched, _⟩
  · exact heq
  · exact absurd hway hsource.not_onTheWay
  · exact absurd htouched huntouched

theorem file_iff (h : Reworked root touched before after) (hway : OnTheWay root place)
    (content : Octets) :
    after.lookup place = some (.file content) ↔ before.lookup place = some (.file content) := by
  rcases h place with heq | ⟨hnone, hdir, _⟩ | ⟨_, hsource, _⟩
  · rw [heq]
  · simp [hnone, hdir]
  · exact absurd hway hsource.not_onTheWay

theorem obstructed_iff (h : Reworked root touched before after) {dirs : List String}
    (hdirs : ∀ dir ∈ dirs, '.' ∉ dir.toList) :
    after.Obstructed ⟨root.root, root.parts ++ dirs⟩ ↔
      before.Obstructed ⟨root.root, root.parts ++ dirs⟩ := by
  have hdots : ".." ∉ dirs := fun hmem => hdirs _ hmem (by decide)
  have hplace : (⟨root.root, root.parts ++ dirs⟩ : Path).place = root.place ++ dirs :=
    FileTree.place_append hdots
  unfold FileTree.Obstructed
  rw [hplace]
  refine exists_congr fun place => exists_congr fun content => and_congr_right fun hpre => ?_
  exact h.file_iff ⟨dirs, hdirs, hpre⟩ content

end Reworked

/-- A grounded target as emissions see it. -/
structure Ready (root : Path) (tree : FileTree) : Prop where
  nested : tree.Nested
  grounded : tree.Grounded root

theorem Ready.keeps (h : Ready root before) (hnested : after.Nested)
    (hkeeps : FileTree.Keeps before after) : Ready root after :=
      ⟨hnested, hkeeps.grounded h.grounded⟩

theorem Ready.find? {tree : FileTree} {path leaf : String} {dirs : List String}
    (h : Ready root tree) (hunit : IsUnitPath path dirs leaf) :
    tree.find? (root.extend path) =
      if root.root = "" then tree.lookup (root.extend path).place else none := by
  by_cases hroot : root.root = ""
  · rw [if_pos hroot, hunit.extend]
    exact (h.grounded.extend hunit.notDots).find? h.nested hroot
  · rw [if_neg hroot, FileTree.find?, hunit.extend, FileTree.locate, if_neg hroot]

theorem existingUnit_congr {path leaf : String} {dirs : List String} (h : Ready root before)
    (h' : Ready root after) (hunit : IsUnitPath path dirs leaf)
    (hsame : after.lookup (root.extend path).place = before.lookup (root.extend path).place) :
    existingUnit after (root.extend path) path = existingUnit before (root.extend path) path := by
  rw [existingUnit_eq, existingUnit_eq, h.find? hunit, h'.find? hunit, hsame]

/-- A file is in the way of a unit's directories, or the target is out of reach. -/
def Blocked (root : Path) (dirs : List String) (tree : FileTree) : Prop :=
  root.root ≠ "" ∨ tree.Obstructed ⟨root.root, root.parts ++ dirs⟩

theorem Reworked.blocked_iff {dirs : List String} (h : Reworked root touched before after)
    (hdirs : ∀ dir ∈ dirs, '.' ∉ dir.toList) :
    Blocked root dirs after ↔ Blocked root dirs before := by
  unfold Blocked
  rw [h.obstructed_iff hdirs]

variable {tree : FileTree} {path leaf : String} {dirs : List String}

private theorem isSome_lookup_iff (hnested : tree.Nested) {above : Location} {content : Octets}
    (hpre : above <+: place) (hfile : tree.lookup above = some (.file content)) :
    (tree.lookup place).isSome ↔ above = place := by
  constructor
  · intro hsome
    by_contra hne
    have hdir := hnested.directory_of_prefix hpre hne (Option.isSome_iff_ne_none.mp hsome)
    simp [hfile] at hdir
  · rintro rfl
    rw [hfile, Option.isSome_some]

/-- What blocks a write blocks it as long as the tree is reworked only, and with the same fault. -/
theorem Ready.write_blocked (h : Ready root before) (h' : Ready root after)
    (hunit : IsUnitPath path dirs leaf) (hreworked : Reworked root touched before after)
    (hblocked : Blocked root dirs before) (octets : Octets) :
    ∃ fault,
      before.applyAll (before.writeSteps (root.extend path) octets) = (before, some fault) ∧
      after.applyAll (after.writeSteps (root.extend path) octets) = (after, some fault) := by
  by_cases hroot : root.root = ""
  · have hobstructed := hblocked.resolve_left (not_not_intro hroot)
    obtain ⟨root, parts⟩ := root
    simp only at hroot
    subst hroot
    have hdirs := hunit.dotless
    have hdots : ".." ∉ dirs := fun hmem => hdirs _ hmem (by decide)
    have hobstructed' := (hreworked.obstructed_iff hdirs).mpr hobstructed
    obtain ⟨above, content, hpre, hfile⟩ := hobstructed
    have hway : OnTheWay ⟨"", parts⟩ above := ⟨dirs, hdirs, FileTree.place_append hdots ▸ hpre⟩
    have hsome : (after.lookup (⟨"", parts ++ dirs⟩ : Path).place).isSome =
        (before.lookup (⟨"", parts ++ dirs⟩ : Path).place).isSome := by
      rw [Bool.eq_iff_iff, isSome_lookup_iff h.nested hpre hfile,
        isSome_lookup_iff h'.nested hpre ((hreworked.file_iff hway content).mpr hfile)]
    rw [hunit.extend, ← List.append_assoc]
    refine ⟨_, h.nested.write_of_obstructed (h.grounded.extend hdots)
      ⟨above, content, hpre, hfile⟩ octets, ?_⟩
    rw [h'.nested.write_of_obstructed (h'.grounded.extend hdots) hobstructed' octets, hsome]
  · have habsolute : (root.extend path).root ≠ "" := by
      rw [hunit.extend]
      exact hroot
    obtain ⟨fault, hfault⟩ := FileTree.write_of_absolute habsolute
    exact ⟨fault, hfault before octets, hfault after octets⟩

theorem Ready.claimable (h : Ready root tree) (hunit : IsUnitPath path dirs leaf)
    {existing : Option (List Char)} (hroot : root.root = "")
    (hfound : existingUnit tree (root.extend path) path = .ok existing) :
    Claimable tree (root.extend path).place := by
  intro entry hentry
  rw [existingUnit_eq, h.find? hunit, if_pos hroot, hentry] at hfound
  rcases entry with _ | octets
  · simp at hfound
  · refine ⟨octets, rfl, ?_⟩
    dsimp only at hfound
    cases htext : readText octets with
    | none => simp [htext] at hfound
    | some text =>
      rw [← isGenerated_of_readText htext]
      by_contra hmark
      simp [htext, hmark] at hfound

/-- A write of a unit that nothing blocks succeeds, and makes directories on its way only. -/
theorem Ready.write_free (h : Ready root tree) (hunit : IsUnitPath path dirs leaf)
    (hfree : ¬Blocked root dirs tree) {existing : Option (List Char)}
    (hfound : existingUnit tree (root.extend path) path = .ok existing) {octets : Octets}
    (hoctets : isGenerated (decodeTolerant octets)) :
    ∃ next, tree.applyAll (tree.writeSteps (root.extend path) octets) = (next, none) ∧
      Ready root next ∧ next.lookup (root.extend path).place = some (.file octets) ∧
      Reworked root (· = (root.extend path).place) tree next := by
  obtain ⟨hroot, hfree⟩ := not_or.mp hfree
  have hroot : root.root = "" := not_not.mp hroot
  have hplace := h.claimable hunit hroot hfound
  have hsource := hunit.sourcePlace root
  have hplaces := hunit.place_eq root
  obtain ⟨root, parts⟩ := root
  simp only at hroot
  subst hroot
  have hdirs := hunit.dotless
  have hdots : ".." ∉ dirs := fun hmem => hdirs _ hmem (by decide)
  have hleaf : leaf ≠ ".." := fun heq => hunit.notDots (by simp [heq])
  rw [hunit.extend] at hplace hsource hplaces ⊢
  rw [← List.append_assoc] at hplace hsource hplaces ⊢
  obtain ⟨next, happly, hnested, hwrote, hnew⟩ := h.nested.write_of_free (h.grounded.extend hdots)
    hleaf hfree hplace.not_directory octets
  refine ⟨next, happly, h.keeps hnested hwrote.keeps, hwrote.written, fun other => ?_⟩
  by_cases hsame : other = (⟨"", parts ++ dirs ++ [leaf]⟩ : Path).place
  · subst hsame
    refine .inr (.inr ⟨rfl, hsource, hplace, fun entry hentry => ⟨octets, ?_, hoctets⟩⟩)
    exact Option.some.inj (hentry.symm.trans hwrote.written)
  · rcases hwrote.others other hsame with heq | ⟨hnone, hdir⟩
    · exact .inl heq
    · refine .inr (.inl ⟨hnone, hdir, dirs, hdirs, ?_⟩)
      have hpre := hnew other hnone hdir
      rw [hplaces] at hpre hsame
      rw [← List.append_assoc, List.prefix_concat_iff] at hpre
      exact hpre.resolve_left (by rwa [← List.append_assoc] at hsame)

def changedPaths (owners : List OwnerReport) : List String :=
  (owners.filter (·.changed)).filterMap (·.unitPath)

theorem changedPaths_cons (owner : OwnerReport) (owners : List OwnerReport) :
    changedPaths (owner :: owners) = changedPaths [owner] ++ changedPaths owners := by
  unfold changedPaths
  rw [← List.filterMap_append, ← List.filter_append, List.singleton_append]

/-- The place of a unit reported as changed. -/
def ChangedPlace (root : Path) (owners : List OwnerReport) (place : Location) : Prop :=
  ∃ path ∈ changedPaths owners, place = (root.extend path).place

variable {next last : FileTree} {classes : List DeclaredClass} {spec : Spec} {unit : BinderUnit}
  {report : OwnerReport} {stale : List String} {profile : Profile}

/-- An emission below a grounded target changes the file of its unit if it says so. -/
theorem Emits.reworked (h : Emits false root classes spec unit tree report next stale)
    (hready : Ready root tree) (hrender : spec.render profile = .ok unit)
    (hunit : IsUnitPath unit.path dirs leaf) :
    Ready root next ∧ stale = [] ∧ (∀ path ∈ changedPaths [report], path = unit.path) ∧
      (report.changed = false → next = tree) ∧
      Reworked root (ChangedPlace root [report]) tree next := by
  have hmark := Spec.encode_isGenerated hrender
  cases h with
  | kept => exact ⟨hready, rfl, by simp [changedPaths, emittedOwner], fun _ => rfl, .refl _ _ _⟩
  | stale _ _ checked => simp at checked
  | refused =>
    exact ⟨hready, rfl, by simp [changedPaths, failedOwner, rejectedOwner], fun _ => rfl,
      .refl _ _ _⟩
  | unwritten found _ _ applied =>
    have hchanged : ∀ path ∈ changedPaths [failedOwner classes spec
        (EmitFault.notWritten unit.path ‹_›).message], path = unit.path := by
      simp [changedPaths, failedOwner, rejectedOwner]
    by_cases hblocked : Blocked root dirs tree
    · obtain ⟨met, hmet, -⟩ := hready.write_blocked hready hunit (.refl root (fun _ => False) tree)
        hblocked (encode unit.source)
      obtain ⟨rfl, -⟩ := Prod.mk.inj (hmet.symm.trans applied)
      exact ⟨hready, rfl, hchanged, fun _ => rfl, .refl _ _ _⟩
    · obtain ⟨_, happly, -⟩ :=
        hready.write_free hunit hblocked found hmark
      simp [happly] at applied
  | written found _ _ applied =>
    have hchanged : changedPaths [emittedOwner false spec ⟨unit, true⟩] = [unit.path] := by
      simp [changedPaths, emittedOwner]
    by_cases hblocked : Blocked root dirs tree
    · obtain ⟨met, hmet, -⟩ := hready.write_blocked hready hunit (.refl root (fun _ => False) tree)
        hblocked (encode unit.source)
      simp [hmet] at applied
    · obtain ⟨_, happly, hnext, -, hreworked⟩ :=
        hready.write_free hunit hblocked found hmark
      obtain ⟨rfl, -⟩ := Prod.mk.inj (happly.symm.trans applied)
      refine ⟨hnext, rfl, by simp [hchanged], by simp [emittedOwner],
        hreworked.mono fun place hplace => ?_⟩
      exact ⟨unit.path, by simp [hchanged], hplace⟩

theorem EmitsAll.reworked {specs : List Spec} {reports : List OwnerReport}
    {seen : List String}
    (h : EmitsAll false root profile classes tree specs reports last seen stale)
    (hready : Ready root tree) (hplaced : ∀ spec ∈ specs, spec.Placed) :
    Ready root last ∧ stale = [] ∧ (∀ path ∈ changedPaths reports, path ∈ seen) ∧
      ((∀ report ∈ reports, report.changed = false) → last = tree) ∧
      Reworked root (ChangedPlace root reports) tree last := by
  induction h with
  | nil tree => exact ⟨hready, rfl, by simp [changedPaths], fun _ => rfl, .refl _ _ _⟩
  | @cons spec specs unit tree next last report reports seen stale more rendered first rest ih =>
    obtain ⟨dirs, leaf, hunit⟩ := hplaced spec List.mem_cons_self
    rw [← (Spec.render_ok rendered).1] at hunit
    obtain ⟨hnext, rfl, hone, hsame, hfirst⟩ := first.reworked hready rendered hunit
    obtain ⟨hlast, rfl, hmore, hsame', hrest⟩ :=
      ih hnext fun spec hspec => hplaced spec (List.mem_cons_of_mem _ hspec)
    refine ⟨hlast, rfl, ?_, fun hall => ?_, ?_⟩
    · rw [changedPaths_cons]
      intro path hpath
      rcases List.mem_append.mp hpath with hpath | hpath
      · rw [hone path hpath]
        exact List.mem_cons_self
      · exact List.mem_cons_of_mem _ (hmore path hpath)
    · rw [List.forall_mem_cons] at hall
      rw [hsame' hall.2, hsame hall.1]
    · refine (hfirst.mono fun place hplace => ?_).trans (hrest.mono fun place hplace => ?_)
      · obtain ⟨path, hpath, hplace⟩ := hplace
        exact ⟨path, by rw [changedPaths_cons]; exact List.mem_append_left _ hpath, hplace⟩
      · obtain ⟨path, hpath, hplace⟩ := hplace
        exact ⟨path, by rw [changedPaths_cons]; exact List.mem_append_right _ hpath, hplace⟩

theorem EmitsAll.seen_placed {checkOnly : Bool} {specs : List Spec} {reports : List OwnerReport}
    {seen : List String}
    (h : EmitsAll checkOnly root profile classes tree specs reports last seen stale)
    (hplaced : ∀ spec ∈ specs, spec.Placed) :
    ∀ path ∈ seen, ∃ dirs leaf, IsUnitPath path dirs leaf := by
  induction h with
  | nil => simp
  | cons rendered _ _ ih =>
    rw [List.forall_mem_cons] at hplaced ⊢
    exact ⟨(Spec.render_ok rendered).1 ▸ hplaced.1, ih hplaced.2⟩

end

end ElementBinding
