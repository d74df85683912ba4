import ElementBinding.Proofs.Pass.Check
import ElementBinding.Proofs.Pass.UnitPaths

/-!
# Digests of units on disk

A pass reports the digest of the source of a unit. The file of a unit that was written holds that
source, octet for octet. The file of a unit that was left alone only reads like it: a reader of
lines does not tell how they end, so the file may hold carriage returns that the source has not.
-/
namespace ElementBinding
open ElementBinding.Text

/-- What reads like a text without carriage returns is its UTF-8 form. -/
theorem encode_of_readText {octets : Octets} {text : String}
    (h : readText octets = some text.toList) (hreturn : 13 ∉ octets) : encode text = octets := by
  obtain ⟨found, hfound, hunified⟩ := Option.map_eq_some_iff.mp h
  have hencoded := encode_of_decodeStrict hfound
  have hplain : '\r' ∉ found := fun hmem =>
    hreturn (hencoded ▸ List.mem_flatMap.mpr ⟨'\r', hmem, by decide⟩)
  rw [unifyLineEnds_eq_self hplain] at hunified
  rw [encode, ← hunified, hencoded]

/-- The file of a unit after emissions: what was written, or what stood there before them. -/
structure FileTree.Holds (before after : FileTree) (root : Path) (unit : BinderUnit)
    (changed : Bool) (content : Octets) : Prop where
  located : after.locate (root.extend unit.path) = .ok (root.extend unit.path).place
  stands : after.content? (root.extend unit.path).place = some content
  written : changed = true → content = encode unit.source
  left : changed = false → readText content = some unit.source.toList ∧
    before.content? (root.extend unit.path).place = some content

namespace FileTree.Holds

variable {before after : FileTree} {root : Path} {unit : BinderUnit} {changed : Bool}
  {content : Octets}

theorem later {last : FileTree} (h : before.Holds after root unit changed content)
    (hkeeps : FileTree.Keeps after last) (hsame : last.content? (root.extend unit.path).place =
      after.content? (root.extend unit.path).place) :
    before.Holds last root unit changed content :=
  ⟨hkeeps.locate h.located, hsame.trans h.stands, h.written, h.left⟩

theorem earlier {first : FileTree} (h : before.Holds after root unit changed content)
    (hsame : before.content? (root.extend unit.path).place =
      first.content? (root.extend unit.path).place) :
    first.Holds after root unit changed content :=
  ⟨h.located, h.stands, h.written, fun hleft => ⟨(h.left hleft).1, hsame ▸ (h.left hleft).2⟩⟩

theorem read_eq (h : before.Holds after root unit changed content) :
    after.read (root.extend unit.path) = .ok content :=
  FileTree.read_eq_ok_iff.mpr ⟨h.located, h.stands⟩

/-- The file holds the source of the unit unless it was left alone with a carriage return in it. -/
theorem content_eq (h : before.Holds after root unit changed content)
    (hreturn : changed = true ∨ ∀ old, before.content? (root.extend unit.path).place = some old →
      13 ∉ old) : content = encode unit.source := by
  cases changed with
  | true => exact h.written rfl
  | false =>
    obtain ⟨hreads, hold⟩ := h.left rfl
    exact (encode_of_readText hreads (hreturn.resolve_left (by simp) content hold)).symm

end FileTree.Holds

section

variable {root : Path} {profile : Profile} {classes : List DeclaredClass}
  {spec : Spec} {unit : BinderUnit} {tree next last : FileTree} {report : OwnerReport}
  {specs : List Spec} {reports : List OwnerReport} {seen stale : List String}

private theorem holds_of_existing
    (h : existingUnit tree (root.extend unit.path) unit.path = .ok (some unit.source.toList)) :
    ∃ content, tree.Holds tree root unit false content := by
  obtain ⟨content, hfind, hreads⟩ := file_of_existingUnit h
  obtain ⟨place, hlocate, hplace⟩ := (FileTree.find?_eq_some_iff _ _ _).mp hfind
  obtain rfl := (FileTree.place_of_locate hlocate).1
  have hcontent := FileTree.content?_eq_some_iff.mpr hplace
  exact ⟨content, hlocate, hcontent, by simp, fun _ => ⟨hreads, hcontent⟩⟩

theorem Emits.holds (h : Emits false root classes spec unit tree report next stale)
    (hnested : tree.Nested) (hdigest : report.digest.isSome) :
    ∃ changed content, report = emittedOwner false spec ⟨unit, changed⟩ ∧
      tree.Holds next root unit changed content := by
  cases h with
  | kept found =>
    obtain ⟨content, hholds⟩ := holds_of_existing found
    exact ⟨false, content, rfl, hholds⟩
  | stale _ _ checked => simp at checked
  | written _ _ _ applied =>
    obtain ⟨-, place, hlocate, hwrote⟩ := hnested.write applied
    obtain rfl := (FileTree.place_of_locate hlocate).1
    exact ⟨true, encode unit.source, rfl, hlocate, by rw [hwrote.content?, if_pos rfl],
      fun _ => rfl, by simp⟩
  | unwritten => simp [failedOwner, rejectedOwner] at hdigest
  | refused => simp [failedOwner, rejectedOwner] at hdigest

def digestedPaths (reports : List OwnerReport) : List (Option String) :=
  (reports.filter (·.digest.isSome)).map (·.unitPath)

private theorem digestedPaths_cons (report : OwnerReport) (reports : List OwnerReport) :
    digestedPaths (report :: reports) = digestedPaths [report] ++ digestedPaths reports := by
  rw [digestedPaths, ← List.singleton_append, List.filter_append, List.map_append]
  rfl

private theorem mem_digestedPaths {path : Option String} (h : report ∈ reports)
    (hdigest : report.digest.isSome) (hpath : report.unitPath = path) :
    path ∈ digestedPaths reports :=
  List.mem_map.mpr ⟨report, List.mem_filter.mpr ⟨h, hdigest⟩, hpath⟩

private theorem WrittenAt.path_mem {before after : FileTree}
    (h : WrittenAt root profile specs reports before after (root.extend unit.path).place)
    (hplaced : ∀ other ∈ specs, other.Placed) (hspec : spec.Placed)
    (hrender : spec.render profile = .ok unit) : some unit.path ∈ digestedPaths reports := by
  obtain ⟨other, hother, unit', hrender', hreport, hlocate, -⟩ := h.emitted
  obtain ⟨dirs, leaf, hpath⟩ := hspec
  obtain ⟨dirs', leaf', hpath'⟩ := hplaced other hother
  rw [← (Spec.render_ok hrender).1] at hpath
  rw [← (Spec.render_ok hrender').1] at hpath'
  rw [hpath.eq_of_place hpath' (FileTree.place_of_locate hlocate).1]
  exact mem_digestedPaths hreport rfl rfl

/-- Emissions leave the unit of an owner with a digest in the tree if these owners have unit paths
of their own. -/
theorem EmitsAll.holds
    (h : EmitsAll false root profile classes tree specs reports last seen stale)
    (hnested : tree.Nested) (hplaced : ∀ spec ∈ specs, spec.Placed)
    (hdistinct : (digestedPaths reports).Nodup) :
    ∀ report ∈ reports, report.digest.isSome → ∃ spec ∈ specs, ∃ unit changed content,
      spec.render profile = .ok unit ∧ report = emittedOwner false spec ⟨unit, changed⟩ ∧
        tree.Holds last root unit changed content := by
  generalize hcheck : false = checkOnly at h
  induction h with
  | nil => simp
  | @cons spec specs unit tree next last report reports seen stale more rendered first rest ih =>
    subst hcheck
    obtain ⟨hnext, -, hfirst⟩ := first.frame rendered hnested
    obtain ⟨-, hkeeps, hrest⟩ := rest.frame hnext
    rw [digestedPaths_cons] at hdistinct
    obtain ⟨-, hdistinct, hapart⟩ := List.nodup_append.mp hdistinct
    have hothers : ∀ other ∈ specs, other.Placed :=
      fun other hother => hplaced other (List.mem_cons_of_mem _ hother)
    intro found hfound hdigest
    rcases List.mem_cons.mp hfound with rfl | hfound
    · obtain ⟨changed, content, rfl, hholds⟩ := first.holds hnested hdigest
      refine ⟨spec, List.mem_cons_self, unit, changed, content, rendered, rfl, ?_⟩
      -- No later emission writes to the place of this unit.
      rcases hrest (root.extend unit.path).place with hsame | ⟨-, hwritten⟩
      · exact hholds.later hkeeps hsame
      · have hlater := hwritten.path_mem hothers (hplaced spec List.mem_cons_self) rendered
        exact absurd rfl (hapart _ (mem_digestedPaths List.mem_cons_self rfl rfl) _ hlater)
    · obtain ⟨other, hother, unit', changed, content, hrender, rfl, hholds⟩ :=
        ih hnext hothers hdistinct found hfound hdigest
      refine ⟨other, List.mem_cons_of_mem _ hother, unit', changed, content, hrender, rfl, ?_⟩
      -- The first emission did not write there either.
      rcases hfirst (root.extend unit'.path).place with hsame | ⟨-, hwritten⟩
      · exact hholds.earlier hsame
      · have hearlier := hwritten.path_mem
          (by simpa using hplaced spec List.mem_cons_self) (hothers other hother) hrender
        exact absurd rfl (hapart _ hearlier _ (mem_digestedPaths hfound rfl rfl))

end

namespace Request
variable {request : Request} {tree : FileTree} {report : Report}

private theorem keeps_of_reported {last after : FileTree} (hlast : last.Nested)
    (h : match request.reportDirectory with
      | none => after = last
      | some directory => ∃ file, writeReport last report directory = (after, .ok file)) :
    FileTree.Keeps last after := by
  split at h
  · rw [h]
    exact .refl _
  · obtain ⟨file, hwrite⟩ := h
    exact (writeReport_frame hwrite hlast).1

/-- After a pass that is no check, the file of every owner reported with a digest has that digest,
if owners with a digest have unit paths of their own: always if the owner is reported as changed,
and otherwise if no carriage return stood in the file. -/
theorem run_digests (tree : Workspace) (hsuffix : '/' ∉ request.profile.moduleSuffix.toList)
    (hreal : request.checkOnly = false)
    (hrun : (request.run tree).result = .ok report)
    (hdistinct : (digestedPaths report.owners).Nodup) :
    ∀ owner ∈ report.owners, ∀ digest, owner.digest = some digest → ∃ path content,
      owner.unitPath = some path ∧
      (request.run tree).tree.read (request.target.extend path) = .ok content ∧
      ((owner.changed = true ∨ ∀ old,
          tree.content? (request.target.extend path).place = some old → 13 ∉ old) →
        Digest.sha256 content = digest) := by
  obtain ⟨course, rfl, hreport⟩ := run_ok hrun
  have hplaced := specs_placed_of_suffix hsuffix course.discovered
  have hemits := course.emits
  rw [hreal] at hemits
  obtain ⟨hmiddle, -, -⟩ := hemits.frame tree.formed.toNested
  obtain ⟨hlast, hpruned, -⟩ := course.prunes.frame hmiddle
  have hdistinct' : (digestedPaths course.emitted).Nodup :=
    hdistinct.sublist (((List.sublist_append_right _ _).filter _).map _)
  intro owner howner digest hdigest
  have hemitted : owner ∈ course.emitted := by
    refine (List.mem_append.mp howner).resolve_left fun hrejected => ?_
    obtain ⟨_, -, rfl⟩ := List.mem_map.mp hrejected
    simp [rejectedReport, rejectedOwner] at hdigest
  obtain ⟨spec, hspec, unit, changed, content, hrender, rfl, hholds⟩ :=
    hemits.holds tree.formed.toNested hplaced hdistinct' owner hemitted (by rw [hdigest]; rfl)
  obtain ⟨dirs, leaf, hunit⟩ := hplaced spec hspec
  rw [← (Spec.render_ok hrender).1] at hunit
  have hseen := course.emits.mem_seen hspec hrender
  have hend := (hholds.later hpruned (course.prunes.content?_eq hmiddle hunit (.inl hseen))).later
    (keeps_of_reported hlast hreport) (content?_of_reported hunit hlast request.target hreport)
  refine ⟨unit.path, content, rfl, hend.read_eq, fun hreturn => ?_⟩
  rw [hend.content_eq hreturn]
  exact Option.some.inj hdigest

end Request

/-- The pass writes the unit that is out of date, and reports its digest. -/
theorem Request.run_digests_sample : ∃ report, (sample.run .sample).result = .ok report ∧
    (digestedPaths report.owners).Nodup ∧
    ∀ owner ∈ report.owners, ∀ digest, owner.digest = some digest → ∃ path content,
      owner.unitPath = some path ∧
      (sample.run .sample).tree.read (sample.target.extend path) = .ok content ∧
      Digest.sha256 content = digest := by
  obtain ⟨report, hrun, howners, -⟩ := PassOutcome.result_of_units sample_run.1
  obtain ⟨owner, hone, howner⟩ := List.map_eq_singleton_iff.mp howners
  have hdistinct : (digestedPaths report.owners).Nodup := by
    rw [hone]
    exact (List.nodup_singleton owner.unitPath).sublist (List.filter_sublist.map _)
  refine ⟨report, hrun, hdistinct, fun found hfound digest hdigest => ?_⟩
  obtain ⟨path, content, hpath, hread, hsame⟩ :=
    run_digests ⟨_, FileTree.sample_formed⟩ (by decide) rfl hrun hdistinct found hfound
      digest hdigest
  rw [hone, List.mem_singleton] at hfound
  have hchanged : found.changed = true := by
    rw [hfound]
    exact congrArg (·.2.2) howner
  exact ⟨path, content, hpath, hread, hsame (.inl hchanged)⟩

/-- The unit of a class with one field, each line ended by a carriage return and a line feed. -/
def FileTree.crossedUnit : Octets := [
  "# Generated by viewbind v0. Do not edit.", "# owner: m.A",
  "from viewbind.runtime.registry import register_binder", "", "from m import A", "", "",
  "class ABinding:", "    def __init__(self, target: A) -> None:",
  "        target.f = target.find_by_identifier(1)", "", "", "register_binder(A, ABinding, (",
  "    (\"f\", 1),", "))"].flatMap fun line => encode line ++ [13, 10]

/-- A module with a class to bind, and its unit as another editor has left it. -/
def FileTree.crossed : FileTree := ⟨[(["src"], .directory),
  (["src", "m.py"], .file (encode "class A:\n    f = bind_view(1)\n")),
  (["out"], .directory),
  (["out", "a_binding.py"], .file crossedUnit)]⟩

private theorem crossed_found :
    (Request.sample.built .crossed Request.sampleFiles).specs = [Spec.sample] ∧
    existingUnit .crossed (Request.sample.target.extend "a_binding.py") "a_binding.py" =
      .ok (some (Spec.sample.lines.flatMap fun line => line.toList ++ ['\n'])) ∧
    generatedBelow .crossed Request.sample.target = .ok [⟨"", ["a_binding.py"]⟩] ∧
    (Request.sample.prune && Request.sample.clean .crossed Request.sampleFiles) = true ∧
    Digest.sha256 FileTree.crossedUnit =
      "cfa643f641e925583410ba0f9dbb8704256d21ef7d4958a435b0b32d59cda3b7" ∧
    Digest.sha256 ((Spec.sample.lines.flatMap fun line =>
        line.toList ++ ['\n']).flatMap String.utf8EncodeChar) =
      "468a838de7296349128d67f64ff21dd6ee43c887d2b32c162070a8d530e0f7fe" := by
  decide +kernel

/-- The pass leaves the tree as it is, and reports the unit that it renders. -/
private theorem crossed_course {unit : BinderUnit}
    (hrender : Spec.sample.render .standard = .ok unit) (hpath : unit.path = "a_binding.py") :
    ∃ course : Request.sample.Course .crossed, course.last = .crossed ∧
      course.emitted = [emittedOwner false Spec.sample ⟨unit, false⟩] := by
  obtain ⟨hspecs, hfound, hgenerated, hclean, -⟩ := crossed_found
  rw [← Spec.toList_source hrender, ← hpath] at hfound
  have hemits : EmitsAll false Request.sample.target .standard
      (Request.sample.classes .crossed Request.sampleFiles) .crossed
      (Request.sample.built .crossed Request.sampleFiles).specs
      [emittedOwner false Spec.sample ⟨unit, false⟩] .crossed [unit.path] [] := by
    rw [hspecs]
    exact .cons hrender (.kept hfound) (.nil _)
  have hprunes (keep : List String) : Prunes false Request.sample.target
      (Request.sample.prune && Request.sample.clean .crossed Request.sampleFiles) [unit.path] keep
      .crossed [] .crossed [] := by
    rw [hpath]
    exact .deleted hclean rfl hgenerated rfl
  exact ⟨⟨Request.sampleFiles, _, _, _, _, _, _, _,
    Request.discover_sampleWith FileTree.crossedUnit, hemits, hprunes _⟩, rfl, rfl⟩

/-- A unit that is left alone with carriage returns in it has another digest than is reported. -/
theorem Request.digest_crossed : ∃ report, (sample.run .crossed).result = .ok report ∧
    ∃ owner ∈ report.owners, ∃ path digest content, owner.unitPath = some path ∧
      owner.digest = some digest ∧
      (sample.run .crossed).tree.read (sample.target.extend path) = .ok content ∧
      Digest.sha256 content ≠ digest := by
  obtain ⟨-, -, -, -, hcrossed, hsample⟩ := crossed_found
  obtain ⟨unit, hrender, hpath⟩ := Spec.sample_render
  obtain ⟨course, hlast, hemitted⟩ := crossed_course hrender hpath
  obtain ⟨hrun, htree⟩ := run_of course rfl
  have hmem : emittedOwner false Spec.sample ⟨unit, false⟩ ∈ course.report.owners :=
    List.mem_append_right _ (by rw [hemitted]; exact List.mem_singleton_self _)
  have hread : (sample.run .crossed).tree.read (sample.target.extend unit.path) =
      .ok FileTree.crossedUnit := by
    rw [htree, hlast, hpath]
    rfl
  have hdigest : unit.digest =
      "468a838de7296349128d67f64ff21dd6ee43c887d2b32c162070a8d530e0f7fe" := by
    rw [← hsample, ← Spec.toList_source hrender]
    rfl
  refine ⟨_, hrun, _, hmem, unit.path, unit.digest, _, rfl, rfl, hread, ?_⟩
  rw [hcrossed, hdigest]
  decide

end ElementBinding
