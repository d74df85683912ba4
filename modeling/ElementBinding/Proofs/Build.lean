import ElementBinding.Spec
import Mathlib

/-!
# The fate of every class of a build

A class with a fault of its own is rejected for it, a class without fields is skipped, and every
other class claims the name of its binder module. A name that is claimed twice goes to nobody, and
so does the name of a module that was not generated. So the fate of a class hangs on the list of
all classes through the number of claims only, never through their order.
-/
namespace ElementBinding

namespace DeclaredClass

/-- The class has no fault, and has fields, and its binder would be the given module. -/
def Claims (profile : Profile) (binderModule : String) (declared : DeclaredClass) : Prop :=
  declared.fault = none ∧ declared.fields ≠ [] ∧
    declared.owner.binderModule profile = binderModule

instance (profile : Profile) (binderModule : String) (declared : DeclaredClass) :
    Decidable (declared.Claims profile binderModule) :=
  inferInstanceAs (Decidable (_ ∧ _ ∧ _))

/-- What a class whose name is taken is rejected for, at its place. -/
def collision (declared : DeclaredClass) (cause : Cause) : Fault :=
  ⟨cause, declared.owner.moduleName, some declared.line⟩

end DeclaredClass

/-- Two entries of the list claim the module. A class that is listed twice counts as two. -/
def Contested (classes : List DeclaredClass) (profile : Profile) (binderModule : String) : Prop :=
  ∃ first second, [first, second].Sublist classes ∧ first.Claims profile binderModule ∧
    second.Claims profile binderModule

/-- What becomes of a class. -/
inductive Fate where
  | accepted (spec : Spec)
  | skipped
  | faulty (fault : Fault)
  | colliding (fault : Fault)
deriving DecidableEq

namespace Fate

def spec? : Fate → Option Spec
  | accepted spec => some spec
  | _ => none

def fault? : Fate → Option Fault
  | faulty fault => some fault
  | _ => none

def collision? : Fate → Option Fault
  | colliding fault => some fault
  | _ => none

end Fate

section

variable (classes : List DeclaredClass) (profile : Profile) (known : List String)

/-- The policy: what becomes of a class among all classes of a pass and the modules that were not
generated. A shared name is blamed on all its claimants, in order of their names, and only a name
that nobody else claims on a module that was not generated. -/
inductive Meets (declared : DeclaredClass) : Fate → Prop
  | faulty {fault : Fault} (unsound : declared.fault = some fault) : Meets declared (.faulty fault)
  | skipped (sound : declared.fault = none) (bare : declared.fields = []) : Meets declared .skipped
  | shared {binderModule : String} {owners : List String}
      (claims : declared.Claims profile binderModule)
      (contested : Contested classes profile binderModule)
      (all : owners.Perm ((classes.filter (·.Claims profile binderModule)).map
        (·.owner.qualifiedName)))
      (sorted : owners.Pairwise (· ≤ ·)) :
      Meets declared (.colliding (declared.collision (.shared binderModule owners)))
  | handWritten {binderModule : String} (claims : declared.Claims profile binderModule)
      (alone : ¬Contested classes profile binderModule) (taken : binderModule ∈ known) :
      Meets declared (.colliding (declared.collision (.handWritten binderModule)))
  | accepted {binderModule : String} (claims : declared.Claims profile binderModule)
      (alone : ¬Contested classes profile binderModule) (free : binderModule ∉ known) :
      Meets declared (.accepted (declared.spec profile))

def DeclaredClass.fate (declared : DeclaredClass) : Fate :=
  match declared.fault with
  | some fault => .faulty fault
  | none =>
    if declared.fields = [] then .skipped
    else match collision? (classes.filterMap (candidate? profile)) known declared
        (declared.spec profile) with
      | some fault => .colliding fault
      | none => .accepted (declared.spec profile)

end

section

variable {classes other : List DeclaredClass} {profile : Profile} {known : List String}
  {declared : DeclaredClass} {binderModule : String} {found : Fate}

private theorem candidate?_of_claims (h : declared.Claims profile binderModule) :
    declared.candidate? profile = some (declared, declared.spec profile) := by
  obtain ⟨hsound, hfields, -⟩ := h
  simp [DeclaredClass.candidate?, hsound, hfields]

private theorem candidate?_eq_some {candidate : DeclaredClass × Spec}
    (h : declared.candidate? profile = some candidate) :
    candidate = (declared, declared.spec profile) ∧
      declared.Claims profile (declared.owner.binderModule profile) := by
  unfold DeclaredClass.candidate? at h
  split at h
  · rename_i hboth
    rw [Bool.and_eq_true] at hboth
    refine ⟨(Option.some.inj h).symm, by simpa using hboth.1, ?_, rfl⟩
    simpa using hboth.2
  · simp at h

theorem claimants_eq (classes : List DeclaredClass) (profile : Profile) (binderModule : String) :
    claimants (classes.filterMap (DeclaredClass.candidate? profile)) binderModule =
      ((classes.filter (·.Claims profile binderModule)).map (·.owner.qualifiedName)).mergeSort := by
  unfold claimants
  congr 1
  induction classes with
  | nil => rfl
  | cons declared rest ih =>
    cases hcandidate : declared.candidate? profile with
    | none =>
      have hnot : ¬declared.Claims profile binderModule := fun hclaims => by
        simp [candidate?_of_claims hclaims] at hcandidate
      rw [List.filterMap_cons_none hcandidate, ih, List.filter_cons_of_neg (by simpa using hnot)]
    | some candidate =>
      obtain ⟨rfl, hsound, hfields, -⟩ := candidate?_eq_some hcandidate
      rw [List.filterMap_cons_some hcandidate]
      by_cases hmodule : declared.owner.binderModule profile = binderModule
      · have hclaims : declared.Claims profile binderModule := ⟨hsound, hfields, hmodule⟩
        simp only [List.filter_cons, DeclaredClass.spec, hmodule, hclaims, decide_true, if_true,
          List.map_cons, ih]
      · have hnot : ¬declared.Claims profile binderModule := fun h => hmodule h.2.2
        simp only [List.filter_cons, DeclaredClass.spec, hmodule, hnot, decide_false,
          Bool.false_eq_true, if_false, ih]

private theorem sublist_pair_iff {α : Type} {p : α → Bool} {items : List α} :
    1 < (items.filter p).length ↔
      ∃ first second, [first, second].Sublist items ∧ p first ∧ p second := by
  constructor
  · intro h
    obtain ⟨first, rest, hfilter⟩ :=
      List.exists_cons_of_length_pos (by omega : 0 < (items.filter p).length)
    obtain ⟨second, more, rfl⟩ := List.exists_cons_of_length_pos (l := rest) (by
      rw [hfilter, List.length_cons] at h
      omega)
    have hsub : [first, second].Sublist (items.filter p) := by
      rw [hfilter]
      simp
    have hmem := hsub.subset
    exact ⟨first, second, hsub.trans List.filter_sublist,
      (List.mem_filter.mp (hmem List.mem_cons_self)).2,
      (List.mem_filter.mp (hmem (by simp))).2⟩
  · rintro ⟨first, second, hsub, hfirst, hsecond⟩
    have hlength := (hsub.filter p).length_le
    simp only [hfirst, hsecond, List.filter_cons_of_pos, List.filter_nil, List.length_cons,
      List.length_nil] at hlength
    omega

theorem contested_iff : Contested classes profile binderModule ↔
    1 < (classes.filter (·.Claims profile binderModule)).length := by
  rw [sublist_pair_iff]
  simp only [decide_eq_true_eq]
  rfl

theorem sorted_mergeSort (texts : List String) : texts.mergeSort.Pairwise (· ≤ ·) := by
  have h : (texts.mergeSort fun a b => decide (a ≤ b)).Pairwise fun a b => decide (a ≤ b) :=
    List.pairwise_mergeSort
      (fun a b c hab hbc => by simp only [decide_eq_true_eq] at *; exact hab.trans hbc)
      (fun a b => by simp only [Bool.or_eq_true, decide_eq_true_eq]; exact le_total a b) texts
  simpa only [decide_eq_true_eq] using h

private theorem collision?_eq (classes : List DeclaredClass) (profile : Profile)
    (known : List String) (declared : DeclaredClass) :
    collision? (classes.filterMap (DeclaredClass.candidate? profile)) known declared
        (declared.spec profile) =
      let binderModule := declared.owner.binderModule profile
      let owners := ((classes.filter (·.Claims profile binderModule)).map
        (·.owner.qualifiedName)).mergeSort
      if 1 < owners.length then some (declared.collision (.shared binderModule owners))
      else if binderModule ∈ known then some (declared.collision (.handWritten binderModule))
      else none := by
  simp only [collision?, DeclaredClass.spec, claimants_eq, List.contains_iff_mem]
  rfl

/-- The policy settles the fate of every class, and it is the one that is computed. -/
theorem meets_iff :
    Meets classes profile known declared found ↔ found = declared.fate classes profile known := by
  have hcount : Contested classes profile (declared.owner.binderModule profile) ↔
      1 < ((classes.filter (·.Claims profile (declared.owner.binderModule profile))).map
        (·.owner.qualifiedName)).mergeSort.length := by
    rw [List.length_mergeSort, List.length_map, contested_iff]
  constructor
  · intro h
    cases h with
    | faulty unsound => simp only [DeclaredClass.fate, unsound]
    | skipped sound bare => simp only [DeclaredClass.fate, sound, bare, if_true]
    | shared claims contested all sorted =>
      obtain ⟨sound, bare, rfl⟩ := claims
      -- The same owners in ascending order are one list.
      have howners := (all.trans (List.mergeSort_perm _ _).symm).eq_of_pairwise
        (fun _ _ _ _ => le_antisymm) sorted (sorted_mergeSort _)
      have hseveral := hcount.mp contested
      rw [← howners] at hseveral
      simp only [DeclaredClass.fate, sound, bare, if_false, collision?_eq, ← howners, hseveral,
        if_true]
    | handWritten claims alone taken =>
      obtain ⟨sound, bare, rfl⟩ := claims
      simp only [DeclaredClass.fate, sound, bare, if_false, collision?_eq, mt hcount.mpr alone,
        taken, if_true]
    | accepted claims alone free =>
      obtain ⟨sound, bare, rfl⟩ := claims
      simp only [DeclaredClass.fate, sound, bare, if_false, collision?_eq, mt hcount.mpr alone,
        free]
  · rintro rfl
    unfold DeclaredClass.fate
    cases sound : declared.fault with
    | some fault => exact .faulty sound
    | none =>
      dsimp only
      split
      · rename_i bare
        exact .skipped sound bare
      · rename_i bare
        have claims : declared.Claims profile (declared.owner.binderModule profile) :=
          ⟨sound, bare, rfl⟩
        rw [collision?_eq]
        dsimp only
        split_ifs with several taken
        · exact .shared claims (hcount.mpr several) (List.mergeSort_perm _ _) (sorted_mergeSort _)
        · exact .handWritten claims (mt hcount.mp several) taken
        · exact .accepted claims (mt hcount.mp several) taken

private theorem fate_of_candidate {candidate : DeclaredClass × Spec}
    (h : declared.candidate? profile = some candidate) :
    declared.fate classes profile known =
      match collision? (classes.filterMap (DeclaredClass.candidate? profile)) known candidate.1
        candidate.2 with
      | some fault => .colliding fault
      | none => .accepted candidate.2 := by
  obtain ⟨rfl, sound, bare, -⟩ := candidate?_eq_some h
  simp only [DeclaredClass.fate, sound, bare, if_false]

private theorem fate_of_none (h : declared.candidate? profile = none) :
    (declared.fate classes profile known).spec? = none ∧
      (declared.fate classes profile known).collision? = none := by
  unfold DeclaredClass.fate
  cases sound : declared.fault with
  | some fault => exact ⟨rfl, rfl⟩
  | none =>
    by_cases bare : declared.fields = []
    · simp [bare, Fate.spec?, Fate.collision?]
    · simp [candidate?_of_claims ⟨sound, bare, rfl⟩] at h

theorem build_specs_eq : (build classes profile known).specs =
    classes.filterMap fun declared => (declared.fate classes profile known).spec? := by
  simp only [build, List.filterMap_filterMap]
  refine List.filterMap_congr fun declared _ => ?_
  cases hcandidate : declared.candidate? profile with
  | none => simp [fate_of_none hcandidate]
  | some candidate =>
    rw [fate_of_candidate hcandidate, Option.bind_some]
    cases collision? _ known candidate.1 candidate.2 <;> rfl

theorem build_colliding_eq : (build classes profile known).colliding =
    classes.filterMap fun declared =>
      (declared.fate classes profile known).collision?.map (declared, ·) := by
  simp only [build, List.filterMap_filterMap]
  refine List.filterMap_congr fun declared _ => ?_
  cases hcandidate : declared.candidate? profile with
  | none => simp [fate_of_none hcandidate]
  | some candidate =>
    obtain ⟨hdeclared, -⟩ := candidate?_eq_some hcandidate
    rw [fate_of_candidate hcandidate, Option.bind_some]
    subst hdeclared
    dsimp only
    cases collision? _ known declared (declared.spec profile) <;> rfl

theorem build_faulty_eq : (build classes profile known).faulty =
    classes.filterMap fun declared =>
      (declared.fate classes profile known).fault?.map (declared, ·) := by
  refine List.filterMap_congr fun declared _ => ?_
  unfold DeclaredClass.fate
  cases declared.fault with
  | some fault => rfl
  | none =>
    dsimp only
    split_ifs
    · rfl
    · cases collision? _ known declared (declared.spec profile) <;> rfl

theorem build_skipped_eq : (build classes profile known).skipped =
    classes.filter fun declared => declared.fate classes profile known = .skipped := by
  refine List.filter_congr fun declared _ => ?_
  unfold DeclaredClass.fate
  cases declared.fault with
  | some fault => rfl
  | none =>
    by_cases bare : declared.fields = []
    · simp [bare]
    · cases collision? _ known declared (declared.spec profile) <;> simp [bare]

theorem accepted_of_spec? {spec : Spec}
    (h : (declared.fate classes profile known).spec? = some spec) :
    spec = declared.spec profile ∧ declared.Claims profile (declared.owner.binderModule profile) ∧
      ¬Contested classes profile (declared.owner.binderModule profile) ∧
      declared.owner.binderModule profile ∉ known := by
  have hmeets := meets_iff.mpr (Eq.refl (declared.fate classes profile known))
  cases hmeets_eq : declared.fate classes profile known with
  | accepted found =>
    rw [hmeets_eq] at hmeets h
    cases hmeets with
    | accepted claims alone free =>
      obtain ⟨sound, bare, rfl⟩ := claims
      exact ⟨(Option.some.inj h).symm, ⟨sound, bare, rfl⟩, alone, free⟩
  | skipped => simp [hmeets_eq, Fate.spec?] at h
  | faulty fault => simp [hmeets_eq, Fate.spec?] at h
  | colliding fault => simp [hmeets_eq, Fate.spec?] at h

theorem build_specs_nodup : ((build classes profile known).specs.map Spec.binderModule).Nodup := by
  rw [build_specs_eq, List.nodup_iff_pairwise_ne, List.pairwise_map, List.pairwise_filterMap,
    List.pairwise_iff_forall_sublist]
  intro first second hsub found hfirst other hsecond hsame
  obtain ⟨rfl, hclaims, halone, -⟩ := accepted_of_spec? hfirst
  obtain ⟨rfl, hother, -⟩ := accepted_of_spec? hsecond
  refine halone ⟨first, second, hsub, hclaims, hother.1, hother.2.1, ?_⟩
  exact hsame.symm

private theorem contested_perm (h : other.Perm classes) :
    Contested other profile binderModule ↔ Contested classes profile binderModule := by
  rw [contested_iff, contested_iff, (h.filter _).length_eq]

private theorem Meets.perm (hperm : other.Perm classes)
    (h : Meets other profile known declared found) :
    Meets classes profile known declared found := by
  cases h with
  | faulty unsound => exact .faulty unsound
  | skipped sound bare => exact .skipped sound bare
  | shared claims contested all sorted =>
    exact .shared claims ((contested_perm hperm).mp contested)
      (all.trans ((hperm.filter _).map _)) sorted
  | handWritten claims alone taken =>
    exact .handWritten claims (mt (contested_perm hperm).mpr alone) taken
  | accepted claims alone free =>
    exact .accepted claims (mt (contested_perm hperm).mpr alone) free

theorem fate_perm (h : other.Perm classes) :
    declared.fate other profile known = declared.fate classes profile known :=
  meets_iff.mp ((meets_iff.mpr rfl).perm h)

end

/-- The policy gives every class one fate. A build lists the accepted classes, the skipped ones,
and the rejected ones, faults of their own before collisions, each in the order of the classes. -/
structure Build.Settles (build : Build) (classes : List DeclaredClass) (profile : Profile)
    (known : List String) (fate : DeclaredClass → Fate) : Prop where
  meets : ∀ declared found, Meets classes profile known declared found ↔ found = fate declared
  specs : build.specs = classes.filterMap fun declared => (fate declared).spec?
  skipped : build.skipped = classes.filter fun declared => fate declared = .skipped
  rejected : build.rejected =
    (classes.filterMap fun declared => (fate declared).fault?.map (declared, ·)) ++
      classes.filterMap fun declared => (fate declared).collision?.map (declared, ·)

/-- A build follows the policy, with the same fates in whatever order the classes come. So no two
binders share a module, and none replaces a module that was not generated. -/
theorem build_settles (classes : List DeclaredClass) (profile : Profile) (known : List String) :
    ∃ fate : DeclaredClass → Fate,
      (∀ listed : List DeclaredClass, listed.Perm classes →
        (build listed profile known).Settles listed profile known fate) ∧
      ((build classes profile known).specs.map Spec.binderModule).Nodup ∧
      ∀ spec ∈ (build classes profile known).specs, spec.binderModule ∉ known := by
  refine ⟨fun declared => declared.fate classes profile known, fun listed hperm => ?_,
    build_specs_nodup, fun spec hspec => ?_⟩
  · have hfate : (fun declared => declared.fate classes profile known) =
        fun declared => DeclaredClass.fate listed profile known declared :=
      funext fun declared => (fate_perm hperm).symm
    rw [hfate]
    exact {
      meets := fun declared found => meets_iff
      specs := build_specs_eq
      skipped := build_skipped_eq
      rejected := by rw [Build.rejected, build_faulty_eq, build_colliding_eq] }
  · rw [build_specs_eq] at hspec
    obtain ⟨declared, -, hdeclared⟩ := List.mem_filterMap.mp hspec
    obtain ⟨rfl, -, -, hfree⟩ := accepted_of_spec? hdeclared
    exact hfree

end ElementBinding
