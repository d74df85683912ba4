import ElementBinding.Binding
import ElementBinding.Proofs.Binding.Import

/-!
# What a call of `bind` decides

A call seeks the entry of exactly the host's class, for which it may import the binder's module, and
runs the binder of an entry whose fields are those that the class declares. `Binds` lists the ways a
call can go, each with what it does on its way; every call goes exactly one of them. Read from its
rows, the table says for each outcome in which states it comes about.
-/
namespace ElementBinding
open ElementBinding.Naming

/-- What a call does besides looking up and comparing. -/
inductive Deed where
  | imports (moduleName : String)
  | runs (binder : Class)

def Deed.isImport : Deed → Bool
  | imports _ => true
  | runs _ => false

/-- The entry assigns the view identifiers that the class declares, to the fields it declares. -/
def Registration.Agrees (entry : Registration) (declared : List (String × Int)) : Prop :=
  ∀ name, Pairs.get? (Pairs.ofList entry.bindings) name = Pairs.get? declared name

theorem Registration.isCurrent_iff {entry : Registration} {declared : List (String × Int)} :
    entry.isCurrent declared = true ↔ entry.Agrees declared := Pairs.agree_iff

def BindStop.ofRun (binder : Class) (raised : Raised) : BindStop :=
  if raised.endsProgram then .raised raised
  else .failed (.instantiation binder.qualifiedName raised)

namespace BindOptions

/-- A call imports the binder's module: its class declares markers and has no entry. -/
structure Imports (options : BindOptions) (program : Program) (owner : Class) : Prop where
  unregistered : (options.registryIn program).lookup? owner = none
  declares : owner.declared ≠ []
  allowed : options.autoload = true

/-- A call finds an entry, at once or when it has imported the binder's module. -/
inductive Finds (options : BindOptions) (program : Program) (owner : Class)
    (entry : Registration) : Prop
  | registered (h : (options.registryIn program).lookup? owner = some entry)
  | imported (after : Program) (himports : options.Imports program owner)
      (himport : (Program.importModule
        (binderModuleIn program owner options.profile)).from program =
          (.ok ⟨⟩, after))
      (h : (options.registryIn after).lookup? owner = some entry)

end BindOptions

section Seeking
variable {options : BindOptions} {owner : Class} {program after : Program} {deeds : List Deed}
  {found : Except BindStop (Option Registration)}

/-- How a call seeks an entry: what it does for it, what comes of it, and the program it leaves. -/
inductive Seeks (options : BindOptions) (owner : Class) (program : Program) :
    List Deed → Except BindStop (Option Registration) → Program → Prop
  | registered {entry : Registration}
      (h : (options.registryIn program).lookup? owner = some entry) :
      Seeks options owner program [] (.ok (some entry)) program
  | unneeded (h : (options.registryIn program).lookup? owner = none)
      (hdeclared : owner.declared = []) : Seeks options owner program [] (.ok none) program
  | forbidden (h : (options.registryIn program).lookup? owner = none)
      (hdeclared : owner.declared ≠ []) (hallowed : options.autoload = false) :
      Seeks options owner program [] (.error (.failed (.notRegistered owner.qualifiedName))) program
  | broken {raised : Raised} {after : Program} (himports : options.Imports program owner)
      (himport : (Program.importModule
        (binderModuleIn program owner options.profile)).from program =
          (.error raised, after)) :
      Seeks options owner program [.imports (binderModuleIn program owner options.profile)]
        (.error (.ofImport owner (binderModuleIn program owner options.profile) raised)) after
  | unregistered {after : Program} (himports : options.Imports program owner)
      (himport : (Program.importModule
        (binderModuleIn program owner options.profile)).from program =
          (.ok ⟨⟩, after))
      (h : (options.registryIn after).lookup? owner = none) :
      Seeks options owner program [.imports (binderModuleIn program owner options.profile)]
        (.error (.failed (.registersNothing (binderModuleIn program owner options.profile)
          owner.qualifiedName))) after
  | imported {after : Program} {entry : Registration} (himports : options.Imports program owner)
      (himport : (Program.importModule
        (binderModuleIn program owner options.profile)).from program =
          (.ok ⟨⟩, after))
      (h : (options.registryIn after).lookup? owner = some entry) :
      Seeks options owner program [.imports (binderModuleIn program owner options.profile)]
        (.ok (some entry)) after

private theorem autoload_of_error {raised : Raised}
    (himport : (Program.importModule (binderModuleIn program owner options.profile)).from program =
      (.error raised, after)) :
    (autoload options owner).from program =
      (.error (.ofImport owner (binderModuleIn program owner options.profile) raised), after) := by
  rw [autoload, Action.from_bind_of_ok (Action.from_get program)]
  exact Action.from_bind_of_error (Action.from_adapt_of_error himport _) _

private theorem autoload_of_ok
    (himport : (Program.importModule (binderModuleIn program owner options.profile)).from program =
      (.ok ⟨⟩, after)) :
    (autoload options owner).from program =
      (((options.registryIn after).lookup? owner).elim
        (.error (.failed (.registersNothing (binderModuleIn program owner options.profile)
          owner.qualifiedName))) .ok, after) := by
  rw [autoload, Action.from_bind_of_ok (Action.from_get program),
    Action.from_bind_of_ok (Action.from_adapt_of_ok himport _),
    Action.from_bind_of_ok (Action.from_get after)]
  cases (options.registryIn after).lookup? owner <;> rfl

private theorem findEntry_of_imports (himports : options.Imports program owner) :
    (findEntry options owner).from program =
      match (autoload options owner).from program with
      | (.ok entry, after) => (.ok (some entry), after)
      | (.error stop, after) => (.error stop, after) := by
  have hdeclared : owner.declared.isEmpty = false := by simpa using himports.declares
  rw [findEntry, Action.from_bind_of_ok (Action.from_get program), himports.unregistered]
  simp only [hdeclared, himports.allowed, if_true, Bool.false_eq_true, if_false]
  rw [Action.from_bind]
  rcases (autoload options owner).from program with ⟨outcome, after⟩
  cases outcome <;> rfl

theorem Seeks.findEntry_from (h : Seeks options owner program deeds found after) :
    (findEntry options owner).from program = (found, after) := by
  cases h with
  | registered h =>
    rw [findEntry, Action.from_bind_of_ok (Action.from_get program), h]
    rfl
  | unneeded h hdeclared =>
    rw [findEntry, Action.from_bind_of_ok (Action.from_get program), h, hdeclared]
    rfl
  | forbidden h hdeclared hallowed =>
    rw [findEntry, Action.from_bind_of_ok (Action.from_get program), h]
    simp [hdeclared, hallowed]
  | broken himports himport =>
    rw [findEntry_of_imports himports, autoload_of_error himport]
  | unregistered himports himport h =>
    rw [findEntry_of_imports himports, autoload_of_ok himport, h]
    rfl
  | imported himports himport h =>
    rw [findEntry_of_imports himports, autoload_of_ok himport, h]
    rfl

theorem exists_seeks (options : BindOptions) (owner : Class) (program : Program) :
    ∃ deeds found after, Seeks options owner program deeds found after := by
  cases hlookup : (options.registryIn program).lookup? owner with
  | some entry => exact ⟨_, _, _, .registered hlookup⟩
  | none =>
    by_cases hdeclared : owner.declared = []
    · exact ⟨_, _, _, .unneeded hlookup hdeclared⟩
    cases hallowed : options.autoload with
    | false => exact ⟨_, _, _, .forbidden hlookup hdeclared hallowed⟩
    | true =>
      have himports : options.Imports program owner := ⟨hlookup, hdeclared, hallowed⟩
      rcases himport : (Program.importModule (binderModuleIn program owner options.profile)).from
        program with ⟨outcome, after⟩
      cases outcome with
      | error raised => exact ⟨_, _, _, .broken himports himport⟩
      | ok _ =>
        cases hentry : (options.registryIn after).lookup? owner with
        | none => exact ⟨_, _, _, .unregistered himports himport hentry⟩
        | some entry => exact ⟨_, _, _, .imported himports himport hentry⟩

/-- A call imports nothing, or the binder's module if it has to. -/
theorem Seeks.deeds_eq (h : Seeks options owner program deeds found after) :
    deeds = [] ∧ ¬options.Imports program owner ∧ after = program ∨
      deeds = [.imports (binderModuleIn program owner options.profile)] ∧
        options.Imports program owner ∧
        after = ((Program.importModule (binderModuleIn program owner options.profile)).from
          program).2 := by
  cases h with
  | registered h => exact .inl ⟨rfl, fun himports => by simp [himports.unregistered] at h, rfl⟩
  | unneeded h hdeclared => exact .inl ⟨rfl, fun himports => himports.declares hdeclared, rfl⟩
  | forbidden h hdeclared hallowed =>
    exact .inl ⟨rfl, fun himports => by simp [himports.allowed] at hallowed, rfl⟩
  | broken himports himport => exact .inr ⟨rfl, himports, by rw [himport]⟩
  | unregistered himports himport h => exact .inr ⟨rfl, himports, by rw [himport]⟩
  | imported himports himport h => exact .inr ⟨rfl, himports, by rw [himport]⟩

theorem Seeks.none_iff (h : Seeks options owner program deeds found after) :
    found = .ok none ↔
      owner.declared = [] ∧ (options.registryIn program).lookup? owner = none := by
  cases h with
  | registered h => simp [h]
  | unneeded h hdeclared => simp [h, hdeclared]
  | forbidden h hdeclared hallowed => simp [hdeclared]
  | broken himports himport => simp [himports.declares]
  | unregistered himports himport h => simp [himports.declares]
  | imported himports himport h => simp [himports.declares]

theorem Seeks.finds_iff (h : Seeks options owner program deeds found after)
    {entry : Registration} : options.Finds program owner entry ↔ found = .ok (some entry) := by
  constructor
  · intro hfinds
    have hseeks : ∃ deeds after, Seeks options owner program deeds (.ok (some entry)) after := by
      cases hfinds with
      | registered h => exact ⟨_, _, .registered h⟩
      | imported after himports himport h => exact ⟨_, _, .imported himports himport h⟩
    obtain ⟨_, _, hentry⟩ := hseeks
    have hsame := h.findEntry_from.symm.trans hentry.findEntry_from
    exact (Prod.mk.inj hsame).1
  · rintro rfl
    cases h with
    | registered h => exact .registered h
    | imported himports himport h => exact .imported _ himports himport h

theorem BindStop.type_ofImport {moduleName : String} {raised : Raised} {error : BindError}
    (h : BindStop.ofImport owner moduleName raised = .failed error) :
    error.type.isA "ResolutionError" := by
  unfold BindStop.ofImport at h
  split_ifs at h with hfailure hfound hresolution <;> cases h
  · rfl
  · rfl
  · exact hresolution

theorem Seeks.type_isA {error : BindError}
    (h : Seeks options owner program deeds (.error (.failed error)) after) :
    error.type.isA "ResolutionError" := by
  generalize hfound : (.error (.failed error) : Except BindStop (Option Registration)) = found at h
  cases h with
  | registered h => cases hfound
  | unneeded h hdeclared => cases hfound
  | forbidden h hdeclared hallowed => cases hfound; rfl
  | broken himports himport => exact BindStop.type_ofImport (Except.error.inj hfound).symm
  | unregistered himports himport h => cases hfound; rfl
  | imported himports himport h => cases hfound

end Seeking

section Calls
variable {options : BindOptions} {program : Program} {host : Host} {deeds : List Deed}
  {outcome : BindOutcome}

/-- The ways a call can go. -/
inductive Binds (options : BindOptions) (program : Program) (host : Host) :
    List Deed → BindOutcome → Prop
  | stopped {sought : List Deed} {stop : BindStop} {after : Program}
      (hseeks : Seeks options host.type program sought (.error stop) after) :
      Binds options program host sought ⟨options.conclude host.type none stop, after, host⟩
  | unneeded {sought : List Deed} {after : Program}
      (hseeks : Seeks options host.type program sought (.ok none) after) :
      Binds options program host sought
        ⟨.ok (.noBinderNeeded host.type.qualifiedName), after, host⟩
  | outdated {sought : List Deed} {entry : Registration} {after : Program}
      (hseeks : Seeks options host.type program sought (.ok (some entry)) after)
      (hagrees : ¬entry.Agrees host.type.declared) :
      Binds options program host sought
        ⟨options.conclude host.type (some entry) (outdated entry host.type.declared), after, host⟩
  | raised {sought : List Deed} {entry : Registration} {after : Program} {raised : Raised}
      {last : Host} (hseeks : Seeks options host.type program sought (.ok (some entry)) after)
      (hagrees : entry.Agrees host.type.declared)
      (hrun : (Host.populate entry.binder).from host = (.error raised, last)) :
      Binds options program host (sought ++ [.runs entry.binder])
        ⟨options.conclude host.type (some entry) (.ofRun entry.binder raised), after, last⟩
  | bound {sought : List Deed} {entry : Registration} {after : Program} {last : Host}
      (hseeks : Seeks options host.type program sought (.ok (some entry)) after)
      (hagrees : entry.Agrees host.type.declared)
      (hrun : (Host.populate entry.binder).from host = (.ok ⟨⟩, last)) :
      Binds options program host (sought ++ [.runs entry.binder])
        ⟨.ok (.bound host.type.qualifiedName entry.binder.qualifiedName), after, last⟩

private theorem bind_from_of_outdated {entry : Registration} {declared : List (String × Int)}
    (h : ¬entry.Agrees declared) :
    (entry.bind declared).from host = (.error (outdated entry declared), host) := by
  rw [Registration.bind, if_neg fun hcurrent => h (Registration.isCurrent_iff.mp hcurrent)]
  rfl

private theorem bind_from_of_agrees {entry : Registration} {declared : List (String × Int)}
    (h : entry.Agrees declared) :
    (entry.bind declared).from host =
      (((Host.populate entry.binder).from host).1.mapError (.ofRun entry.binder),
        ((Host.populate entry.binder).from host).2) := by
  rw [Registration.bind, if_pos (Registration.isCurrent_iff.mpr h), Action.from_adapt]
  rfl

theorem Binds.eq_bind (h : Binds options program host deeds outcome) :
    outcome = bind options program host := by
  cases h with
  | stopped hseeks => simp only [bind, hseeks.findEntry_from]
  | unneeded hseeks => simp only [bind, hseeks.findEntry_from]
  | outdated hseeks hagrees =>
    simp only [bind, hseeks.findEntry_from, bind_from_of_outdated hagrees]
  | raised hseeks hagrees hrun =>
    simp only [bind, hseeks.findEntry_from, bind_from_of_agrees hagrees, hrun, Except.mapError]
  | bound hseeks hagrees hrun =>
    simp only [bind, hseeks.findEntry_from, bind_from_of_agrees hagrees, hrun, Except.mapError]

theorem exists_binds (options : BindOptions) (program : Program) (host : Host) :
    ∃ deeds outcome, Binds options program host deeds outcome := by
  obtain ⟨sought, found, after, hseeks⟩ := exists_seeks options host.type program
  match found, hseeks with
  | .error stop, hseeks => exact ⟨_, _, .stopped hseeks⟩
  | .ok none, hseeks => exact ⟨_, _, .unneeded hseeks⟩
  | .ok (some entry), hseeks =>
    by_cases hagrees : entry.Agrees host.type.declared
    · rcases hrun : (Host.populate entry.binder).from host with ⟨run, last⟩
      cases run with
      | error raised => exact ⟨_, _, .raised hseeks hagrees hrun⟩
      | ok _ => exact ⟨_, _, .bound hseeks hagrees hrun⟩
    · exact ⟨_, _, .outdated hseeks hagrees⟩

theorem Binds.exists_seeks (h : Binds options program host deeds outcome) :
    ∃ sought found, Seeks options host.type program sought found outcome.program ∧
      (deeds = sought ∧ (∀ entry, found = .ok (some entry) → ¬entry.Agrees host.type.declared) ∨
        ∃ entry, found = .ok (some entry) ∧ entry.Agrees host.type.declared ∧
          deeds = sought ++ [.runs entry.binder]) := by
  cases h with
  | stopped hseeks => exact ⟨_, _, hseeks, .inl ⟨rfl, fun entry hentry => by cases hentry⟩⟩
  | unneeded hseeks => exact ⟨_, _, hseeks, .inl ⟨rfl, fun entry hentry => by cases hentry⟩⟩
  | outdated hseeks hagrees =>
    refine ⟨_, _, hseeks, .inl ⟨rfl, fun entry hentry => ?_⟩⟩
    cases hentry
    exact hagrees
  | raised hseeks hagrees hrun => exact ⟨_, _, hseeks, .inr ⟨_, rfl, hagrees, rfl⟩⟩
  | bound hseeks hagrees hrun => exact ⟨_, _, hseeks, .inr ⟨_, rfl, hagrees, rfl⟩⟩

theorem Binds.runs_iff (h : Binds options program host deeds outcome) {binder : Class} :
    .runs binder ∈ deeds ↔ ∃ entry, options.Finds program host.type entry ∧
      entry.Agrees host.type.declared ∧ binder = entry.binder := by
  obtain ⟨sought, found, hseeks, hdeeds⟩ := h.exists_seeks
  have hsought : Deed.runs binder ∉ sought := by
    obtain ⟨rfl, -⟩ | ⟨rfl, -⟩ := hseeks.deeds_eq <;> simp
  simp only [hseeks.finds_iff]
  obtain ⟨rfl, houtdated⟩ | ⟨entry, rfl, hagrees, rfl⟩ := hdeeds
  · constructor
    · intro hmem
      exact absurd hmem hsought
    · rintro ⟨entry, hfound, hagrees, -⟩
      exact absurd hagrees (houtdated entry hfound)
  · constructor
    · intro hmem
      have hbinder : binder = entry.binder := by simpa [hsought] using hmem
      exact ⟨entry, rfl, hagrees, hbinder⟩
    · rintro ⟨other, hother, -, rfl⟩
      cases hother
      simp

theorem Binds.imports_iff (h : Binds options program host deeds outcome) {moduleName : String} :
    .imports moduleName ∈ deeds ↔ options.Imports program host.type ∧
      moduleName = binderModuleIn program host.type options.profile := by
  obtain ⟨sought, found, hseeks, hdeeds⟩ := h.exists_seeks
  have hmem : Deed.imports moduleName ∈ deeds ↔ Deed.imports moduleName ∈ sought := by
    obtain ⟨rfl, -⟩ | ⟨entry, -, -, rfl⟩ := hdeeds <;> simp
  rw [hmem]
  obtain ⟨rfl, hnot, -⟩ | ⟨rfl, himports, -⟩ := hseeks.deeds_eq
  · simp [hnot]
  · simp [himports]

theorem Binds.count_imports (h : Binds options program host deeds outcome) :
    deeds.countP Deed.isImport ≤ 1 := by
  obtain ⟨sought, found, hseeks, hdeeds⟩ := h.exists_seeks
  have hcount : deeds.countP Deed.isImport = sought.countP Deed.isImport := by
    obtain ⟨rfl, -⟩ | ⟨entry, -, -, rfl⟩ := hdeeds <;> simp [Deed.isImport]
  rw [hcount]
  obtain ⟨rfl, -⟩ | ⟨rfl, -⟩ := hseeks.deeds_eq <;> simp [Deed.isImport]

theorem Binds.unique {others : List Deed} {another : BindOutcome}
    (h : Binds options program host deeds outcome)
    (h' : Binds options program host others another) : others = deeds := by
  obtain ⟨sought, found, hseeks, hdeeds⟩ := h.exists_seeks
  obtain ⟨sought', found', hseeks', hdeeds'⟩ := h'.exists_seeks
  obtain rfl : found' = found :=
    (Prod.mk.inj (hseeks'.findEntry_from.symm.trans hseeks.findEntry_from)).1
  obtain rfl : sought' = sought := by
    obtain ⟨rfl, hnot, -⟩ | ⟨rfl, himports, -⟩ := hseeks.deeds_eq <;>
      obtain ⟨rfl, hnot', -⟩ | ⟨rfl, himports', -⟩ := hseeks'.deeds_eq
    · rfl
    · exact absurd himports' hnot
    · exact absurd himports hnot'
    · rfl
  obtain ⟨rfl, houtdated⟩ | ⟨entry, hfound, hagrees, rfl⟩ := hdeeds <;>
    obtain ⟨rfl, houtdated'⟩ | ⟨entry', hfound', hagrees', rfl⟩ := hdeeds'
  · rfl
  · exact absurd hagrees' (houtdated _ hfound')
  · exact absurd hagrees (houtdated' _ hfound)
  · cases hfound.symm.trans hfound'
    rfl

/-- What a call runs: the modules around the binder's, each at most once, if it has to import it. -/
theorem Binds.executed (h : Binds options program host deeds outcome) :
    ¬options.Imports program host.type ∧ outcome.program = program ∨
      options.Imports program host.type ∧ ∃ ran : List String,
        outcome.program.executed = program.executed ++ ran ∧ ran.Nodup ∧
        ∀ name ∈ ran, name ∈
          Program.enclosing (binderModuleIn program host.type options.profile) := by
  obtain ⟨sought, found, hseeks, -⟩ := h.exists_seeks
  obtain ⟨-, hnot, heq⟩ | ⟨-, himports, heq⟩ := hseeks.deeds_eq
  · exact .inl ⟨hnot, heq⟩
  · obtain ⟨ran, hran, hexecuted⟩ := Program.importFrom_executed
      (Program.enclosing (binderModuleIn program host.type options.profile)) program
    refine .inr ⟨himports, ran, ?_, ?_, fun name hname => ?_⟩
    · rw [heq, Program.importModule]
      exact hexecuted
    · exact (List.nodup_reverse.mpr (Program.nodup_enclosing _)).sublist hran
    · exact List.mem_reverse.mp (hran.subset hname)

end Calls

section Table
variable {options : BindOptions} {program : Program} {host : Host} {deeds : List Deed}
  {outcome : BindOutcome} {result : BindResult}

theorem BindOptions.Finds.identity_eq {owner : Class} {entry : Registration}
    (h : options.Finds program owner entry) : entry.owner.identity = owner.identity := by
  cases h with
  | registered h => exact Registry.identity_of_lookup? h
  | imported after himports himport h => exact Registry.identity_of_lookup? h

/-- The table of the results that a call can return, read against what it found and did. -/
structure Decision (options : BindOptions) (program : Program) (host : Host) (deeds : List Deed)
    (last : Host) (result : BindResult) : Prop where
  noBinderNeeded_iff : result.outcome = "NO_BINDER_NEEDED" ↔
    host.type.declared = [] ∧ (options.registryIn program).lookup? host.type = none
  bound_iff : result.outcome = "BOUND" ↔
    ∃ binder, .runs binder ∈ deeds ∧ (Host.populate binder).from host = (.ok ⟨⟩, last)
  failed_iff : result.outcome = "FAILED" ↔
    result.outcome ≠ "NO_BINDER_NEEDED" ∧ result.outcome ≠ "BOUND"
  error_iff : result.error.isSome ↔ result.outcome = "FAILED"
  instantiation_iff : ∀ error, result.error = some error →
    (error.type = .builtIn "InstantiationError" ↔ ∃ binder raised, .runs binder ∈ deeds ∧
      (Host.populate binder).from host = (.error raised, last))
  resolution : ∀ error, result.error = some error → error.type ≠ .builtIn "InstantiationError" →
    error.type.isA "ResolutionError" ∧ last = host
  binder_iff : ∀ name, result.binder = some name ↔
    ∃ entry, options.Finds program host.type entry ∧ name = entry.binder.qualifiedName

private theorem conclude_eq_ok {owner : Class} {entry : Option Registration} {stop : BindStop}
    (h : options.conclude owner entry stop = .ok result) :
    ∃ error, stop = .failed error ∧
      result = .failed owner.qualifiedName (entry.map (·.binder.qualifiedName)) error := by
  cases stop with
  | raised raised => cases h
  | failed error =>
    simp only [BindOptions.conclude] at h
    split at h
    · cases h
    · exact ⟨error, rfl, (Except.ok.inj h).symm⟩

private theorem type_outdated {entry : Registration} {declared : List (String × Int)}
    {error : BindError} (h : outdated entry declared = .failed error) :
    error.type.isA "ResolutionError" := by
  unfold outdated at h
  split at h <;> cases h
  rfl

private theorem type_ofRun {binder : Class} {raised : Raised} {error : BindError}
    (h : BindStop.ofRun binder raised = .failed error) :
    error.type = .builtIn "InstantiationError" := by
  unfold BindStop.ofRun at h
  split_ifs at h
  cases h
  rfl

private theorem Decision.of_unrun {binder : Option String} {error : BindError}
    (hneeded : ¬(host.type.declared = [] ∧
      (options.registryIn program).lookup? host.type = none))
    (hruns : ∀ binder, .runs binder ∉ deeds) (htype : error.type.isA "ResolutionError")
    (hbinder : ∀ name, binder = some name ↔
      ∃ entry, options.Finds program host.type entry ∧ name = entry.binder.qualifiedName) :
    Decision options program host deeds host
      (.failed host.type.qualifiedName binder error) where
  noBinderNeeded_iff := by simp [BindResult.outcome, hneeded]
  bound_iff := by simp [BindResult.outcome, hruns]
  failed_iff := by simp [BindResult.outcome]
  error_iff := by simp [BindResult.outcome, BindResult.error]
  instantiation_iff _ h := by
    cases h
    have hother : error.type ≠ .builtIn "InstantiationError" := fun heq => by
      rw [heq] at htype
      exact absurd htype (by decide)
    simp [hother, hruns]
  resolution _ h _ := by
    cases h
    exact ⟨htype, rfl⟩
  binder_iff := hbinder

private theorem Decision.of_unneeded (hneeded : host.type.declared = [] ∧
      (options.registryIn program).lookup? host.type = none)
    (hruns : ∀ binder, .runs binder ∉ deeds)
    (hunfound : ∀ entry, ¬options.Finds program host.type entry) :
    Decision options program host deeds host (.noBinderNeeded host.type.qualifiedName) where
  noBinderNeeded_iff := by simp [BindResult.outcome, hneeded]
  bound_iff := by simp [BindResult.outcome, hruns]
  failed_iff := by simp [BindResult.outcome]
  error_iff := by simp [BindResult.outcome, BindResult.error]
  instantiation_iff := nofun
  resolution := nofun
  binder_iff := by simp [BindResult.binder, hunfound]

private theorem Decision.of_raised {entry : Registration} {raised : Raised} {last : Host}
    {error : BindError}
    (hneeded : ¬(host.type.declared = [] ∧
      (options.registryIn program).lookup? host.type = none))
    (hruns : ∀ binder, .runs binder ∈ deeds ↔ binder = entry.binder)
    (hfinds : ∀ other, options.Finds program host.type other ↔ other = entry)
    (hrun : (Host.populate entry.binder).from host = (.error raised, last))
    (htype : error.type = .builtIn "InstantiationError") :
    Decision options program host deeds last
      (.failed host.type.qualifiedName (some entry.binder.qualifiedName) error) where
  noBinderNeeded_iff := by simp [BindResult.outcome, hneeded]
  bound_iff := by simp [BindResult.outcome, hruns, hrun]
  failed_iff := by simp [BindResult.outcome]
  error_iff := by simp [BindResult.outcome, BindResult.error]
  instantiation_iff _ h := by
    cases h
    simp [htype, hruns, hrun]
  resolution _ h hother := by
    cases h
    exact absurd htype hother
  binder_iff := by simp [BindResult.binder, hfinds, eq_comm]

private theorem Decision.of_bound {entry : Registration} {last : Host}
    (hneeded : ¬(host.type.declared = [] ∧
      (options.registryIn program).lookup? host.type = none))
    (hruns : ∀ binder, .runs binder ∈ deeds ↔ binder = entry.binder)
    (hfinds : ∀ other, options.Finds program host.type other ↔ other = entry)
    (hrun : (Host.populate entry.binder).from host = (.ok ⟨⟩, last)) :
    Decision options program host deeds last
      (.bound host.type.qualifiedName entry.binder.qualifiedName) where
  noBinderNeeded_iff := by simp [BindResult.outcome, hneeded]
  bound_iff := by simp [BindResult.outcome, hruns, hrun]
  failed_iff := by simp [BindResult.outcome]
  error_iff := by simp [BindResult.outcome, BindResult.error]
  instantiation_iff := nofun
  resolution := nofun
  binder_iff := by simp [BindResult.binder, hfinds, eq_comm]

/-- A call that returns a result does so as the table says. -/
theorem Binds.decision (h : Binds options program host deeds outcome)
    (hresult : outcome.result = .ok result) :
    Decision options program host deeds outcome.host result := by
  -- In every row, what was run follows from what was found and whether it agrees.
  have hruns (binder : Class) : .runs binder ∈ deeds ↔
      ∃ entry, options.Finds program host.type entry ∧
        entry.Agrees host.type.declared ∧ binder = entry.binder := h.runs_iff
  cases h with
  | stopped hseeks =>
    obtain ⟨error, rfl, rfl⟩ := conclude_eq_ok hresult
    have hunfound (entry : Registration) : ¬options.Finds program host.type entry := by
      simp [hseeks.finds_iff]
    refine .of_unrun (fun h => by simpa using hseeks.none_iff.mpr h) ?_ hseeks.type_isA ?_
    · simp [hruns, hunfound]
    · simp [hunfound]
  | unneeded hseeks =>
    cases hresult
    have hunfound (entry : Registration) : ¬options.Finds program host.type entry := by
      simp [hseeks.finds_iff]
    exact .of_unneeded (hseeks.none_iff.mp rfl) (by simp [hruns, hunfound]) hunfound
  | outdated hseeks hagrees =>
    obtain ⟨error, hstop, rfl⟩ := conclude_eq_ok hresult
    refine .of_unrun (fun h => by simpa using hseeks.none_iff.mpr h) ?_ (type_outdated hstop) ?_
    · simp [hruns, hseeks.finds_iff, hagrees]
    · simp [hseeks.finds_iff, eq_comm]
  | raised hseeks hagrees hrun =>
    obtain ⟨error, hstop, rfl⟩ := conclude_eq_ok hresult
    refine .of_raised (fun h => by simpa using hseeks.none_iff.mpr h) (fun binder => ?_)
      (fun other => ?_) hrun (type_ofRun hstop)
    · simp [hruns, hseeks.finds_iff, hagrees]
    · simp [hseeks.finds_iff, eq_comm]
  | bound hseeks hagrees hrun =>
    cases hresult
    refine .of_bound (fun h => by simpa using hseeks.none_iff.mpr h) (fun binder => ?_)
      (fun other => ?_) hrun
    · simp [hruns, hseeks.finds_iff, hagrees]
    · simp [hseeks.finds_iff, eq_comm]

end Table

/-- The decision table of `bind`. In every state a call goes exactly one way. It runs a binder if it
finds an entry of exactly the host's class whose fields are those the class declares, and then that
entry's; it imports nothing but the binder's module, once, and only for a class with markers and
without an entry; and what it returns follows from what it did. -/
theorem bind_decides (options : BindOptions) (program : Program) (host : Host) :
    ∃ deeds, Binds options program host deeds (bind options program host) ∧
      (∀ others, Binds options program host others (bind options program host) →
        others = deeds) ∧
      (∀ binder, .runs binder ∈ deeds ↔ ∃ entry, options.Finds program host.type entry ∧
        entry.owner.identity = host.type.identity ∧ entry.Agrees host.type.declared ∧
        binder = entry.binder) ∧
      (∀ moduleName, .imports moduleName ∈ deeds ↔ options.Imports program host.type ∧
        moduleName = binderModuleIn program host.type options.profile) ∧
      deeds.countP Deed.isImport ≤ 1 ∧
      (¬options.Imports program host.type ∧ (bind options program host).program = program ∨
        options.Imports program host.type ∧ ∃ ran : List String,
          (bind options program host).program.executed = program.executed ++ ran ∧ ran.Nodup ∧
          ∀ name ∈ ran, name ∈
            Program.enclosing (binderModuleIn program host.type options.profile)) ∧
      ∀ result, (bind options program host).result = .ok result →
        Decision options program host deeds (bind options program host).host result := by
  obtain ⟨deeds, outcome, hbinds⟩ := exists_binds options program host
  obtain rfl := hbinds.eq_bind
  refine ⟨deeds, hbinds, fun others h => hbinds.unique h, fun binder => ?_,
    fun moduleName => hbinds.imports_iff, hbinds.count_imports, hbinds.executed,
    fun result hresult => hbinds.decision hresult⟩
  rw [hbinds.runs_iff]
  constructor
  · rintro ⟨entry, hfinds, hagrees, hbinder⟩
    exact ⟨entry, hfinds, hfinds.identity_eq, hagrees, hbinder⟩
  · rintro ⟨entry, hfinds, -, hagrees, hbinder⟩
    exact ⟨entry, hfinds, hagrees, hbinder⟩

private def ticketClass : Class where
  identity := .created 0
  name := "Ticket"
  path := "Ticket"
  moduleName := "desk"
  attributes := [("number", .marker { viewId := 7 }), ("find_by_identifier", .finder)]

private def ticketBinder : Class where
  identity := .created 1
  name := "TicketBinding"
  path := "TicketBinding"
  moduleName := "ticket_binding"
  constructor := some (.written ⟨[{ name := "target" }]⟩
    [.populate "number" "find_by_identifier" 7])

private def ticketProgram : Program where
  modules := [("ticket_binding", { effects := [.register (.further "offices") (.type ticketClass)
    (.type ticketBinder) (.array [.array [.text "number", .integer 7]])] })]
  classes := [(("desk", "Ticket"), ticketClass)]
  loaded := [("desk", false)]

private def ticketOptions : BindOptions := { registry := .further "offices" }

/-- A class whose binder is imported and run by the first call for it: the import enters it in the
registry that the call was given. -/
theorem bind_decides_ticket :
    (bind ticketOptions ticketProgram { type := ticketClass }).result =
        .ok (.bound "desk.Ticket" "ticket_binding.TicketBinding") ∧
      ∃ deeds, Binds ticketOptions ticketProgram { type := ticketClass } deeds
          (bind ticketOptions ticketProgram { type := ticketClass }) ∧
        .imports "ticket_binding" ∈ deeds ∧
        ∃ binder, .runs binder ∈ deeds ∧ (Host.populate binder).from { type := ticketClass } =
          (.ok ⟨⟩, (bind ticketOptions ticketProgram { type := ticketClass }).host) := by
  have hresult : (bind ticketOptions ticketProgram { type := ticketClass }).result =
      .ok (.bound "desk.Ticket" "ticket_binding.TicketBinding") := by decide +kernel
  obtain ⟨deeds, hbinds, -, -, himports, -, -, htable⟩ :=
    bind_decides ticketOptions ticketProgram { type := ticketClass }
  have hmodule : "ticket_binding" = binderModuleIn ticketProgram ticketClass .standard := by
    decide +kernel
  exact ⟨hresult, deeds, hbinds, (himports _).mpr ⟨⟨rfl, nofun, rfl⟩, hmodule⟩,
    (htable _ hresult).bound_iff.mp rfl⟩

end ElementBinding
