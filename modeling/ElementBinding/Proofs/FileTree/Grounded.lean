import ElementBinding.Proofs.FileTree.Steps

/-!
# Grounded paths

A path is grounded in a tree if each of its double dots leads back from a directory that stands.
What a grounded path leads to is what stands at its place, and a write to it fails only on a file
in the way of its directories. A double dot behind a missing directory is different: the path leads
nowhere at first, and to what may be an old file once the directory has been made.
-/
namespace ElementBinding
open ElementBinding.Text

namespace FileTree
variable {tree next : FileTree} {path : Path}

/-- Every double dot of a path leads back from a directory. -/
def Grounded (tree : FileTree) (path : Path) : Prop :=
  ∀ before after, path.parts = before ++ ".." :: after → tree.isDirectory ⟨path.root, before⟩

theorem find?_eq_some_iff (tree : FileTree) (path : Path) (entry : Entry) :
    tree.find? path = some entry ↔
      ∃ place, tree.locate path = .ok place ∧ tree.lookup place = some entry := by
  unfold find?
  cases tree.locate path <;> simp

theorem isDirectory_iff (tree : FileTree) (path : Path) :
    tree.isDirectory path ↔
      ∃ place, tree.locate path = .ok place ∧ tree.lookup place = some .directory := by
  rw [← find?_eq_some_iff, isDirectory, decide_eq_true_eq]

theorem Keeps.isDirectory {before after : FileTree} (h : Keeps before after)
    (hpath : before.isDirectory path) : after.isDirectory path := by
  rw [isDirectory_iff] at hpath ⊢
  obtain ⟨place, hlocate, hdir⟩ := hpath
  exact ⟨place, h.locate hlocate, h place hdir⟩

theorem Keeps.grounded {before after : FileTree} (h : Keeps before after)
    (hpath : before.Grounded path) : after.Grounded path :=
  fun first rest hparts => h.isDirectory (hpath first rest hparts)

namespace Grounded

theorem of_not_mem (h : ".." ∉ path.parts) : tree.Grounded path := by
  intro before after hparts
  exact absurd (by rw [hparts]; simp) h

theorem of_locate {place : Location} (h : tree.locate path = .ok place) : tree.Grounded path := by
  intro before after hparts
  obtain ⟨-, hrelative⟩ := place_of_locate h
  rw [locate_relative tree hrelative, hparts, follow_append] at h
  have hlocate : tree.locate ⟨path.root, before⟩ = tree.follow [] before :=
    locate_relative tree hrelative
  rw [isDirectory_iff, hlocate]
  cases hbefore : tree.follow [] before with
  | error condition => simp [hbefore] at h
  | ok here =>
    refine ⟨here, rfl, ?_⟩
    rw [hbefore] at h
    simp only [follow_cons] at h
    split at h
    · simp at h
    · simp at h
    · assumption

theorem init {root component : String} {init : List String}
    (h : tree.Grounded ⟨root, init ++ [component]⟩) : tree.Grounded ⟨root, init⟩ := by
  intro first rest hparts
  refine h first (rest ++ [component]) ?_
  simp only at hparts ⊢
  rw [hparts, List.append_assoc, List.cons_append]

theorem extend {root : String} {parts names : List String} (h : tree.Grounded ⟨root, parts⟩)
    (hnames : ".." ∉ names) : tree.Grounded ⟨root, parts ++ names⟩ := by
  intro first rest hparts
  simp only at hparts
  rcases List.append_eq_append_iff.mp hparts with ⟨more, rfl, hnames'⟩ | ⟨more, rfl, hrest⟩
  · exact absurd (by rw [hnames']; simp) hnames
  · cases more with
    | nil => exact absurd (by rw [List.nil_append] at hrest; rw [← hrest]; simp) hnames
    | cons component more =>
      obtain ⟨rfl, -⟩ := List.cons.inj hrest
      exact h first more rfl

theorem locate (h : tree.Grounded path) (hnested : tree.Nested) (hroot : path.root = "")
    (hplace : tree.lookup path.place ≠ none) : tree.locate path = .ok path.place := by
  obtain ⟨root, parts⟩ := path
  simp only at hroot
  subst root
  rw [locate_relative tree rfl]
  unfold Path.place at hplace ⊢
  simp only at hplace ⊢
  induction parts using List.reverseRecOn with
  | nil => rfl
  | append_singleton init component ih =>
    rw [arrive_append] at hplace ⊢
    rw [follow_append]
    have hinit : tree.follow [] init = .ok (arrive [] init) ∧
        tree.lookup (arrive [] init) = some .directory := by
      by_cases hdots : component = ".."
      · obtain ⟨place, hlocate, hdir⟩ :=
          (isDirectory_iff _ _).mp (h init [] (by rw [hdots]))
        rw [locate_relative tree rfl] at hlocate
        obtain rfl := arrive_of_follow hlocate
        exact ⟨hlocate, hdir⟩
      · have hstep : arrive (arrive [] init) [component] = arrive [] init ++ [component] :=
          if_neg hdots
        rw [hstep] at hplace
        have hdir := hnested.enclosed _ _ hplace
        exact ⟨ih h.init (by rw [hdir]; simp), hdir⟩
    rw [hinit.1]
    simp only [follow_cons, hinit.2]
    rfl

theorem find? (h : tree.Grounded path) (hnested : tree.Nested) (hroot : path.root = "") :
    tree.find? path = tree.lookup path.place := by
  by_cases hplace : tree.lookup path.place = none
  · rw [hplace, FileTree.find?]
    cases hlocate : tree.locate path with
    | error condition => rfl
    | ok place =>
      rw [(place_of_locate hlocate).1]
      exact hplace
  · rw [FileTree.find?, h.locate hnested hroot hplace]

end Grounded

/-- A file stands where a path needs a directory. -/
def Obstructed (tree : FileTree) (path : Path) : Prop :=
  ∃ place content, place <+: path.place ∧ tree.lookup place = some (.file content)

theorem place_concat {root component : String} {init : List String} (h : component ≠ "..") :
    (⟨root, init ++ [component]⟩ : Path).place = (⟨root, init⟩ : Path).place ++ [component] := by
  unfold Path.place
  rw [arrive_append]
  exact if_neg h

theorem place_append {root : String} {parts names : List String} (h : ".." ∉ names) :
    (⟨root, parts ++ names⟩ : Path).place = (⟨root, parts⟩ : Path).place ++ names := by
  unfold Path.place
  rw [arrive_append, arrive_of_not_mem h]

theorem Grounded.directory_before {root : String} {init : List String}
    (h : tree.Grounded ⟨root, init ++ [".."]⟩) (hnested : tree.Nested) :
    tree.lookup (⟨root, init⟩ : Path).place = some .directory ∧
      tree.lookup (⟨root, init ++ [".."]⟩ : Path).place = some .directory ∧
      (⟨root, init ++ [".."]⟩ : Path).place = (⟨root, init⟩ : Path).place.dropLast := by
  obtain ⟨place, hlocate, hdir⟩ := (isDirectory_iff _ _).mp (h init [] rfl)
  rw [(place_of_locate hlocate).1] at hdir
  have hback : (⟨root, init ++ [".."]⟩ : Path).place = (⟨root, init⟩ : Path).place.dropLast := by
    unfold Path.place
    rw [arrive_append]
    rfl
  exact ⟨hdir, hback ▸ hnested.directory_dropLast hdir, hback⟩

theorem Obstructed.of_init {root component : String} {init : List String} (hnested : tree.Nested)
    (h : tree.Grounded ⟨root, init ++ [component]⟩) (hobs : tree.Obstructed ⟨root, init⟩) :
    tree.Obstructed ⟨root, init ++ [component]⟩ := by
  obtain ⟨place, content, hpre, hplace⟩ := hobs
  by_cases hdots : component = ".."
  · subst component
    obtain ⟨hdir, -, -⟩ := h.directory_before hnested
    by_cases hsame : place = (⟨root, init⟩ : Path).place
    · simp [← hsame, hplace] at hdir
    · have habove := hnested.directory_of_prefix hpre hsame (by rw [hdir]; simp)
      simp [hplace] at habove
  · exact ⟨place, content, place_concat hdots ▸ hpre.trans (List.prefix_append _ _), hplace⟩

/-- Following a grounded path meets a file before its end exactly if one stands above its place. -/
theorem locate_eq_notDirectory_iff (hnested : tree.Nested) (h : tree.Grounded path)
    (hroot : path.root = "") :
    tree.locate path = .error .notDirectory ↔
      ∃ place content, place <+: path.place ∧ place ≠ path.place ∧
        tree.lookup place = some (.file content) := by
  obtain ⟨root, parts⟩ := path
  simp only at hroot
  subst root
  rw [locate_relative tree rfl]
  induction parts using List.reverseRecOn with
  | nil =>
    simp only [follow, reduceCtorEq, false_iff, not_exists, not_and]
    intro place content hpre hne
    exact absurd (List.prefix_nil.mp hpre) hne
  | append_singleton init component ih =>
    -- A grounded path goes back from a directory, above which no file can stand.
    by_cases hdots : component = ".."
    · subst component
      obtain ⟨-, hdir, -⟩ := h.directory_before hnested
      have hlocate := h.locate hnested rfl (by rw [hdir]; simp)
      rw [locate_relative tree rfl] at hlocate
      rw [hlocate]
      simp only [reduceCtorEq, false_iff, not_exists, not_and]
      intro place content hpre hne hplace
      have habove := hnested.directory_of_prefix hpre hne (by rw [hdir]; simp)
      simp [hplace] at habove
    · have hinit := ih h.init
      simp only at hinit
      rw [place_concat hdots, follow_append]
      constructor
      · intro hfollow
        cases hmiddle : tree.follow [] init with
        | error condition =>
          simp only [hmiddle, Except.error.injEq] at hfollow
          subst condition
          obtain ⟨place, content, hpre, -, hplace⟩ := hinit.mp hmiddle
          refine ⟨place, content, hpre.trans (List.prefix_append _ _), ?_, hplace⟩
          rintro rfl
          simpa using hpre.length_le
        | ok middle =>
          obtain rfl := arrive_of_follow hmiddle
          simp only [hmiddle, follow_cons] at hfollow
          rcases hplace : tree.lookup (arrive [] init) with _ | _ | content
          · simp [hplace] at hfollow
          · simp [hplace, follow] at hfollow
          · exact ⟨_, content, List.prefix_append _ _, by simp [Path.place], hplace⟩
      · rintro ⟨place, content, hpre, hne, hplace⟩
        rcases List.prefix_concat_iff.mp hpre with hsame | hpre
        · exact absurd hsame hne
        · by_cases hsame : place = (⟨"", init⟩ : Path).place
          · have hlocate := h.init.locate hnested rfl (by rw [← hsame, hplace]; simp)
            rw [locate_relative tree rfl] at hlocate
            rw [hlocate]
            simp only [follow_cons, ← hsame, hplace]
          · rw [hinit.mpr ⟨place, content, hpre, hsame, hplace⟩]

end FileTree

end ElementBinding
