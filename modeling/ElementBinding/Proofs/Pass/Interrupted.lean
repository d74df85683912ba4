import ElementBinding.Proofs.FileTree.Apart
import ElementBinding.Proofs.Pass.Mirror
import ElementBinding.Proofs.Pass.UnitPaths

/-!
# Writes that fail on the way

A write makes directories, opens the file of its unit, which empties it, and adds the text. What a
failure leaves depends on where it strikes. Up to the opening the file stays as it was and the unit
can be handed over again. From then on the file holds the octets that were written so far, and these
are taken for a file of one's own unless the mark of generated files is among them.
-/
namespace ElementBinding
open ElementBinding.Text

namespace FileTree
variable {tree next : FileTree} {target : Path} {octets : Octets} {written? : Option Octets}

/-- The trees that a write can leave when one of its steps fails, by what the file then holds if it
was opened. -/
inductive WriteStops (tree : FileTree) (target : Path) (octets : Octets) :
    (written? : Option Octets) → FileTree → Prop
  /-- The next directory cannot be made, or the file cannot be opened. -/
  | unopened {steps : List Step} {next : FileTree}
      (made : steps <+: tree.makeDirectories target.parent)
      (taken : tree.applyAll steps = (next, none)) : WriteStops tree target octets none next
  /-- The file is open, and no more can be added to it. -/
  | opened {written : Octets} {next : FileTree} (part : written <+: octets)
      (taken : tree.applyAll (tree.writeSteps target written) = (next, none)) :
      WriteStops tree target octets (some written) next

private theorem apply_keeps {step : Step} (hstep : ∀ path, step ≠ .delete path)
    (h : tree.apply step = .ok next) : Keeps tree next := by
  obtain rfl | ⟨place, entry, -, hfree, -, rfl⟩ := apply_cases hstep h
  · exact .refl _
  · apply keeps_put _ hfree
    rintro rfl
    exact hfree rfl

private theorem applyAll_keeps {steps : List Step}
    (h : ∀ step ∈ steps, ∀ path, step ≠ .delete path) : Keeps tree (tree.applyAll steps).1 :=
  applyAll_related (fun step hstep _ _ => apply_keeps (h step hstep)) tree

private theorem ne_delete_of_mem_writeSteps {step : Step} (h : step ∈ tree.writeSteps target octets)
    (path : Path) : step ≠ .delete path := by
  obtain ⟨paths, hpaths⟩ := makeDirectories_eq_map tree target.parent
  rw [writeSteps, hpaths] at h
  rcases List.mem_append.mp h with h | h
  · obtain ⟨other, -, rfl⟩ := List.mem_map.mp h
    simp
  · rintro rfl
    simp at h

private theorem keeps_of_front {steps : List Step}
    (made : steps <+: tree.makeDirectories target.parent)
    (taken : tree.applyAll steps = (next, none)) (octets : Octets) :
    Keeps next (tree.applyAll (tree.writeSteps target octets)).1 := by
  obtain ⟨rest, hrest⟩ := made
  have hsplit : tree.writeSteps target octets =
      steps ++ (rest ++ [.openFile target, .append target octets]) := by
    rw [writeSteps, ← hrest, List.append_assoc]
  rw [hsplit, applyAll_append, taken]
  apply applyAll_keeps
  intro step hstep
  have hmem : step ∈ tree.writeSteps target octets := by
    rw [hsplit]
    exact List.mem_append_right _ hstep
  exact ne_delete_of_mem_writeSteps hmem

/-- A write that fails in the tree itself stops before the file is opened. -/
theorem Nested.writeStops (h : tree.Nested) {fault : FileFault}
    (happly : tree.applyAll (tree.writeSteps target octets) = (next, some fault)) :
    WriteStops tree target octets none next := by
  obtain ⟨paths, hpaths⟩ := makeDirectories_eq_map tree target.parent
  rw [writeSteps, applyAll_append] at happly
  rcases hmade : tree.applyAll (tree.makeDirectories target.parent) with ⟨middle, _ | met⟩
  · obtain ⟨hmiddle, -⟩ := h.makeDirectories (hpaths ▸ hmade)
    simp only [hmade] at happly
    suffices hsame : middle = next from .unopened List.prefix_rfl (hsame ▸ hmade)
    cases hlocate : middle.locate target with
    | error condition =>
      simp only [applyAll, apply, hlocate, Prod.mk.injEq] at happly
      exact happly.1
    | ok place =>
      by_cases hdir : middle.lookup place = some .directory
      · simp only [applyAll, apply, hlocate, hdir, Prod.mk.injEq] at happly
        exact happly.1
      · obtain ⟨last, hlast, -⟩ := hmiddle.writeFile hlocate hdir octets
        simp [hlast] at happly
  · simp only [hmade, Prod.mk.injEq] at happly
    obtain ⟨front, hfront, htaken⟩ := applyAll_front (happly.1 ▸ hmade)
    exact .unopened hfront htaken

/-- A unit that is handed over in the tree is taken, and its file holds it then. -/
def Takes (tree : FileTree) (root : Path) (unit : BinderUnit) : Prop :=
  ∀ site : Site, site.tree = tree → site.sink.root = root → site.sink.checkOnly = false →
    ∃ changed after, (DirectorySink.write unit).from site = (.ok changed, after) ∧
      after.tree.HoldsUnit root unit

end FileTree

section
variable {root : Path} {unit : BinderUnit} {tree next : FileTree} {dirs : List String}
  {leaf : String} {written? : Option Octets}

theorem FileTree.Takes.exists_existing (h : tree.Takes root unit) :
    ∃ existing, existingUnit tree (root.extend unit.path) unit.path = .ok existing := by
  obtain ⟨changed, after, hwrite, -⟩ := h { tree, sink := { root } } rfl rfl rfl
  rw [write_from] at hwrite
  cases hfound : existingUnit tree (root.extend unit.path) unit.path with
  | error fault => simp [hfound] at hwrite
  | ok existing => exact ⟨existing, rfl⟩

theorem FileTree.not_takes
    (h : (existingUnit tree (root.extend unit.path) unit.path).isOk = false) :
    ¬tree.Takes root unit := by
  intro htakes
  obtain ⟨existing, hfound⟩ := htakes.exists_existing
  simp [hfound, Except.isOk, Except.toBool] at h

/-- Unless something blocks its path, a unit is taken if what stands there may be replaced. -/
theorem Ready.takes_iff (hready : Ready root tree) (hunit : IsUnitPath unit.path dirs leaf)
    (hmark : isGenerated (decodeTolerant (encode unit.source))) (hfree : ¬Blocked root dirs tree) :
    tree.Takes root unit ↔
      ∃ existing, existingUnit tree (root.extend unit.path) unit.path = .ok existing := by
  refine ⟨FileTree.Takes.exists_existing, ?_⟩
  rintro ⟨existing, hfound⟩ site rfl rfl hcheck
  have hwrite := write_from unit site
  simp only [hfound] at hwrite
  by_cases hkept : existing = some unit.source.toList
  · subst hkept
    rw [if_pos rfl] at hwrite
    exact ⟨false, _, hwrite, holdsUnit_of_existing hfound⟩
  · obtain ⟨last, happly, -, hwritten, -⟩ := hready.write_free hunit hfree hfound hmark
    rw [if_neg hkept, if_neg (by simp [hcheck]), happly] at hwrite
    refine ⟨true, _, hwrite, encode unit.source, ?_, .inl rfl⟩
    exact FileTree.content?_eq_some_iff.mpr hwritten

theorem Ready.unopened (hready : Ready root tree) (hunit : IsUnitPath unit.path dirs leaf)
    (hmark : isGenerated (decodeTolerant (encode unit.source))) {existing : Option (List Char)}
    (hfound : existingUnit tree (root.extend unit.path) unit.path = .ok existing)
    (hstops : FileTree.WriteStops tree (root.extend unit.path) (encode unit.source) none next) :
    Ready root next ∧
      next.lookup (root.extend unit.path).place = tree.lookup (root.extend unit.path).place := by
  obtain ⟨steps, made, taken⟩ : ∃ steps,
      steps <+: tree.makeDirectories (root.extend unit.path).parent ∧
      tree.applyAll steps = (next, none) := by
    cases hstops with
    | unopened made taken => exact ⟨_, made, taken⟩
  obtain ⟨paths, hpaths⟩ := FileTree.makeDirectories_eq_map tree (root.extend unit.path).parent
  have hsteps : steps = (paths.take steps.length).map .makeDirectory := by
    rw [List.map_take, ← hpaths]
    exact List.prefix_iff_eq_take.mp made
  obtain ⟨hnested, hgrown⟩ := hready.nested.makeDirectories (hsteps ▸ taken)
  refine ⟨hready.keeps hnested hgrown.keeps, ?_⟩
  rcases hgrown (root.extend unit.path).place with heq | ⟨hnone, hdir⟩
  · exact heq
  · -- A directory at the file's place would still stand there when the write has come to its end.
    have hend := FileTree.keeps_of_front made taken (encode unit.source) _ hdir
    by_cases hblocked : Blocked root dirs tree
    · obtain ⟨fault, happly, -⟩ := hready.write_blocked hready hunit
        (.refl root (fun _ => False) tree) hblocked (encode unit.source)
      simp [happly, hnone] at hend
    · obtain ⟨last, happly, -, hwritten, -⟩ := hready.write_free hunit hblocked hfound hmark
      simp [happly, hwritten] at hend

theorem Ready.opened (hready : Ready root tree) {written : Octets}
    (hstops : FileTree.WriteStops tree (root.extend unit.path) (encode unit.source) (some written)
      next) :
    Ready root next ∧ next.find? (root.extend unit.path) = some (.file written) := by
  cases hstops with
  | opened part taken =>
    obtain ⟨hnested, place, hlocate, hwrote⟩ := hready.nested.write taken
    refine ⟨hready.keeps hnested hwrote.keeps, ?_⟩
    exact (FileTree.find?_eq_some_iff _ _ _).mpr ⟨place, hlocate, hwrote.written⟩

/-- A failed write leaves the file of its unit as it was, and the unit can be handed over again, if
it stops before the file is open. Afterwards the file holds what was written, and the unit can be
handed over again only if that is text with the mark of generated files. -/
theorem write_stopped {spec : Spec} {profile : Profile} (hrender : spec.render profile = .ok unit)
    (hready : Ready root tree) (hunit : IsUnitPath unit.path dirs leaf)
    {existing : Option (List Char)}
    (hfound : existingUnit tree (root.extend unit.path) unit.path = .ok existing)
    (hstops : FileTree.WriteStops tree (root.extend unit.path) (encode unit.source) written? next) :
    (written? = none → next.find? (root.extend unit.path) = tree.find? (root.extend unit.path)) ∧
    (∀ written, written? = some written →
      written <+: encode unit.source ∧ next.find? (root.extend unit.path) = some (.file written)) ∧
    (¬Blocked root dirs next → (next.Takes root unit ↔
      ∀ written, written? = some written → ∃ text, readText written = some text ∧
        isGenerated text)) := by
  have hmark := Spec.encode_isGenerated hrender
  cases written? with
  | none =>
    obtain ⟨hnext, hsame⟩ := hready.unopened hunit hmark hfound hstops
    refine ⟨fun _ => ?_, by simp, fun hfree => ?_⟩
    · rw [hnext.find? hunit, hready.find? hunit, hsame]
    · rw [hnext.takes_iff hunit hmark hfree, existingUnit_congr hready hnext hunit hsame, hfound]
      simp
  | some written =>
    obtain ⟨hnext, hfile⟩ := hready.opened hstops
    refine ⟨by simp, ?_, fun hfree => ?_⟩
    · intro other hother
      obtain rfl := Option.some.inj hother
      cases hstops with
      | opened part taken => exact ⟨part, hfile⟩
    · rw [hnext.takes_iff hunit hmark hfree, existingUnit_eq, hfile]
      cases htext : readText written with
      | none => simp [htext]
      | some text => cases hgenerated : isGenerated text <;> simp [htext, hgenerated]

end

private theorem FileTree.empty_nested : ({} : FileTree).Nested :=
  (WellFormed.of_entries (by decide) (by decide)).toNested

/-- The file cannot be opened once the directory for it was made. -/
theorem write_stopped_sample : ∃ unit, Spec.sample.render .standard = .ok unit ∧
    FileTree.WriteStops {} ((⟨"", ["out"]⟩ : Path).extend unit.path) (encode unit.source) none
      .hollow ∧
    FileTree.hollow.find? ((⟨"", ["out"]⟩ : Path).extend unit.path) =
      ({} : FileTree).find? ((⟨"", ["out"]⟩ : Path).extend unit.path) ∧
    FileTree.hollow.Takes ⟨"", ["out"]⟩ unit := by
  obtain ⟨unit, hrender, hpath⟩ := Spec.sample_render
  have hready : Ready ⟨"", ["out"]⟩ {} := ⟨FileTree.empty_nested, .of_not_mem (by decide)⟩
  have hunit : IsUnitPath unit.path [] "a_binding.py" :=
    ⟨hpath, by simp, by decide, by decide⟩
  have hfound : existingUnit {} ((⟨"", ["out"]⟩ : Path).extend unit.path) unit.path = .ok none := by
    rw [hpath]
    rfl
  have hstops : FileTree.WriteStops {} ((⟨"", ["out"]⟩ : Path).extend unit.path)
      (encode unit.source) none .hollow := by
    rw [hpath]
    exact .unopened List.prefix_rfl rfl
  have hfree : ¬Blocked ⟨"", ["out"]⟩ [] .hollow := by
    rintro (hroot | ⟨place, content, -, hfile⟩)
    · exact hroot rfl
    · by_cases hplace : place = ["out"]
      · subst hplace
        exact absurd hfile (by simp [FileTree.lookup, FileTree.hollow])
      · simp [FileTree.lookup, FileTree.hollow, Ne.symm hplace] at hfile
  obtain ⟨hsame, -, htakes⟩ := write_stopped hrender hready hunit hfound hstops
  exact ⟨unit, hrender, hstops, hsame rfl, (htakes hfree).mpr (by simp)⟩

def FileTree.looped : FileTree := ⟨[(["a_binding.py"], .directory)]⟩

private theorem looped_written {unit : BinderUnit} (hpath : unit.path = "a_binding.py") :
    ∃ fault after, (DirectorySink.write unit).from
        { tree := {}, sink := { root := ⟨"", ["a_binding.py", ".."]⟩ } } =
      (.error (.file fault), after) ∧ after.tree = .looped := by
  have hwrite := write_from unit { tree := {}, sink := { root := ⟨"", ["a_binding.py", ".."]⟩ } }
  rw [hpath] at hwrite
  exact ⟨_, _, hwrite, rfl⟩

/-- A failed write can put a directory where its file goes, if the target is reached through that
place, and an empty file that is taken for one's own, if it fails with the file open. -/
theorem write_stopped_lost : ∃ unit, Spec.sample.render .standard = .ok unit ∧
    (∃ fault after, (DirectorySink.write unit).from
          { tree := {}, sink := { root := ⟨"", ["a_binding.py", ".."]⟩ } } =
        (.error (.file fault), after) ∧
      FileTree.WriteStops {} ((⟨"", ["a_binding.py", ".."]⟩ : Path).extend unit.path)
        (encode unit.source) none after.tree ∧
      ({} : FileTree).find? ((⟨"", ["a_binding.py", ".."]⟩ : Path).extend unit.path) = none ∧
      after.tree.find? ((⟨"", ["a_binding.py", ".."]⟩ : Path).extend unit.path) = some .directory ∧
      ¬after.tree.Takes ⟨"", ["a_binding.py", ".."]⟩ unit) ∧
    ∃ next, FileTree.WriteStops .sample ((⟨"", ["out"]⟩ : Path).extend unit.path)
        (encode unit.source) (some []) next ∧
      FileTree.sample.find? ((⟨"", ["out"]⟩ : Path).extend unit.path) =
        some (.file (encode generatedHeader)) ∧
      next.find? ((⟨"", ["out"]⟩ : Path).extend unit.path) = some (.file []) ∧
      ¬next.Takes ⟨"", ["out"]⟩ unit := by
  obtain ⟨unit, hrender, hpath⟩ := Spec.sample_render
  obtain ⟨fault, after, hwrite, htree⟩ := looped_written hpath
  refine ⟨unit, hrender, ⟨fault, after, hwrite, ?_, ?_, ?_, ?_⟩, .sampleWith [], ?_, ?_, ?_, ?_⟩
  · rw [hpath, htree]
    exact FileTree.empty_nested.writeStops rfl
  · rw [hpath]
    rfl
  · rw [hpath, htree]
    rfl
  · apply FileTree.not_takes
    rw [hpath, htree]
    decide
  · rw [hpath]
    exact .opened List.nil_prefix rfl
  · rw [hpath]
    rfl
  · rw [hpath]
    rfl
  · apply FileTree.not_takes
    rw [hpath]
    decide

end ElementBinding
