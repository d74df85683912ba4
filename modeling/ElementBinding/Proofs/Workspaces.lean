import ElementBinding.Main
import ElementBinding.Proofs.Pass.Specs
import ElementBinding.Service

/-!
# Workspaces stay workspaces

The tree that a program reads is a workspace. A pass takes steps along paths that are spelled by
texts, and so it leaves a workspace behind, whatever becomes of it. This holds of everything that a
command line or a query can ask for.
-/
namespace ElementBinding
open ElementBinding.FileTree

section

variable {checkOnly enabled : Bool} {root : Path} {profile : Profile} {classes : List DeclaredClass}
  {tree last : FileTree} {seen keep stale : List String}

theorem Emits.formed {spec : Spec} {unit : BinderUnit} {report : OwnerReport}
    (h : Emits checkOnly root classes spec unit tree report last stale) (hroot : root.Spelled)
    (hformed : tree.WellFormed) : last.WellFormed := by
  have hwritten : (tree.applyAll (tree.writeSteps (root.extend unit.path)
      (Text.encode unit.source))).1.WellFormed :=
    hformed.applyAll (writeSteps_spelled (hroot.extend unit.path) _)
  cases h with
  | kept | stale | refused => exact hformed
  | written _ _ _ applied | unwritten _ _ _ applied =>
    rw [applied] at hwritten
    exact hwritten

theorem EmitsAll.formed {specs : List Spec} {reports : List OwnerReport}
    (h : EmitsAll checkOnly root profile classes tree specs reports last seen stale)
    (hroot : root.Spelled) (hformed : tree.WellFormed) : last.WellFormed := by
  induction h with
  | nil => exact hformed
  | cons _ first _ ih => exact ih (first.formed hroot hformed)

theorem PrunesSome.formed (h : PrunesSome checkOnly root enabled seen keep tree last)
    (hformed : tree.WellFormed) : last.WellFormed := by
  cases h with
  | nothing => exact hformed
  | @deleted _ front _ _ _ _ _ applied =>
    have hdeleted :
        (tree.applyAll (front.map fun path => .delete (root ++ path))).1.WellFormed := by
      refine hformed.applyAll fun step hstep => ?_
      obtain ⟨path, -, rfl⟩ := List.mem_map.mp hstep
      exact fun hkept => absurd rfl (hkept _)
    rw [applied] at hdeleted
    exact hdeleted

end

theorem writeReport_formed {tree : FileTree} {directory : Path} (hformed : tree.WellFormed)
    (hdirectory : directory.Spelled) (report : Report) :
    (writeReport tree report directory).1.WellFormed := by
  have hmade : (tree.applyAll (tree.makeDirectories directory)).1.WellFormed :=
    hformed.applyAll (makeDirectories_spelled hdirectory)
  have hfile : (reportFile directory).Spelled := hdirectory.extend _
  unfold writeReport
  rcases hmake : tree.applyAll (tree.makeDirectories directory) with ⟨middle, _ | fault⟩
  · rw [hmake] at hmade
    cases report.fileText? with
    | none => exact hmade
    | some text =>
      have hwritten : (middle.applyAll [.openFile (reportFile directory),
          .append (reportFile directory) (Text.encode text)]).1.WellFormed := by
        refine hmade.applyAll fun step hstep => ?_
        simp only [List.mem_cons, List.not_mem_nil, or_false] at hstep
        rcases hstep with rfl | rfl <;> exact fun _ => hfile
      dsimp only
      split
      all_goals
        rename_i heq
        rw [heq] at hwritten
        exact hwritten
  · rw [hmake] at hmade
    exact hmade

namespace Request

/-- The paths to which a pass may write are spelled by texts. -/
structure Spelled (request : Request) : Prop where
  target : request.target.Spelled
  report : ∀ directory, request.reportDirectory = some directory → directory.Spelled

/-- Whatever becomes of a pass, it leaves a workspace. -/
theorem run_formed {request : Request} (hspelled : request.Spelled) (tree : Workspace) :
    (request.run tree).tree.WellFormed := by
  obtain ⟨last, hworked, hfiled⟩ := request.run_worked tree
  have hlast : last.WellFormed := by
    cases hworked with
    | emitted emits => exact emits.formed hspelled.target tree.formed
    | pruned _ emits prunes => exact prunes.formed (emits.formed hspelled.target tree.formed)
  generalize (request.run tree).tree = after at hfiled
  cases hfiled with
  | unfiled => exact hlast
  | filed asked report => exact writeReport_formed hlast (hspelled.report _ asked) report

end Request

namespace CommandLine

theorem readTree_formed (files : Json) : (readTree files).WellFormed := by
  unfold readTree
  split
  · rename_i members
    generalize hstart : ({} : FileTree) = start
    have hformed : start.WellFormed := hstart ▸ wellFormed_empty
    clear hstart
    induction members generalizing start with
    | nil => exact hformed
    | cons member rest ih =>
      obtain ⟨path, content⟩ := member
      rw [List.foldl_cons]
      refine ih _ ?_
      cases content with
      | text octets => exact hformed.place (Path.spelled_ofText path) _
      | _ => exact hformed.place (Path.spelled_ofText path) none
  · exact wellFormed_empty

theorem Arguments.request_spelled (arguments : Arguments) (settings : Settings) :
    (arguments.request settings).Spelled where
  target := by
    unfold Request.target
    cases houtput : (arguments.request settings).outputRoot with
    | none => exact Path.spelled_ofText _
    | some root => exact Path.spelled_of_map houtput
  report _ hdirectory := Path.spelled_of_map hdirectory

theorem Arguments.run_formed (arguments : Arguments) (settings : Settings) (threshold : Nat)
    (tree : Workspace) : (arguments.run settings threshold tree).1.WellFormed := by
  have hspelled := arguments.request_spelled settings
  unfold Arguments.run
  generalize arguments.request settings = request at hspelled
  have hrun := request.run_formed hspelled tree
  dsimp only
  split
  · exact hrun
  · exact tree.formed

/-- A command line leaves a workspace. -/
theorem run_formed (settings : Settings) (words : List String) (tree : Workspace) :
    (run settings words tree).1.WellFormed := by
  unfold run
  split
  · exact tree.formed
  · rename_i arguments _
    split
    · exact tree.formed
    · split
      · exact arguments.run_formed settings _ tree
      · exact tree.formed

end CommandLine

namespace Service

theorem Order.request_spelled (order : Order) (settings : Settings) :
    (order.request settings).Spelled where
  target := by
    unfold Request.target
    cases houtput : (order.request settings).outputRoot with
    | none => exact Path.spelled_ofText _
    | some root => exact Path.spelled_of_map houtput
  report directory hdirectory := by simp [Order.request] at hdirectory

theorem Order.run_formed (order : Order) (settings : Settings) (tree : Workspace) :
    (order.run settings tree).1.WellFormed := by
  have hspelled := order.request_spelled settings
  unfold Order.run
  generalize order.request settings = request at hspelled
  have hrun := request.run_formed hspelled tree
  dsimp only
  split
  · exact hrun
  · exact tree.formed

theorem generate_formed (settings : Settings) (body : String) (tree : Workspace) :
    (generate settings body tree).1.WellFormed := by
  unfold generate
  split
  · exact Order.run_formed _ settings tree
  · exact tree.formed
  · exact tree.formed

/-- The service leaves a workspace. -/
theorem answer_formed (settings : Settings) (query : Query) (tree : Workspace) :
    (answer settings query tree).1.WellFormed := by
  unfold answer route
  dsimp only
  split
  · exact tree.formed
  · split
    · split
      · exact generate_formed settings query.body tree
      · exact tree.formed
    · exact tree.formed

end Service

end ElementBinding
