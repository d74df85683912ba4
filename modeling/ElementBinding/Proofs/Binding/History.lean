import ElementBinding.Action
import ElementBinding.Proofs.Action
import ElementBinding.Proofs.Registry

/-!
# Histories of a registry

A registry that others watch refers to a table, and whoever takes a snapshot keeps that reference.
To register, it copies the table, writes the entry into the copy and then refers to the copy. It
answers every call and holds the entries as `Registry.register` says, and a snapshot reads the same
ever after. What the registry holds after a history is told from the accepted calls alone.
-/
namespace ElementBinding

/-- What one call hands to a registry. -/
structure RegisterCall where
  owner : Registrant
  binder : Registrant
  bindings : Json

/-- Tables that are shared by reference, and the one that the registry refers to. -/
structure Tables where
  cells : List (List Registration) := [[]]
  current : Nat := 0

namespace Tables

def read (tables : Tables) (reference : Nat) : List Registration := tables.cells.getD reference []

def registry (tables : Tables) : Registry := ⟨tables.read tables.current⟩

/-- A snapshot is a reference to the table that is current when it is taken. -/
def snapshot (tables : Tables) : Nat := tables.current

def copy : Action Tables RegistrationFault Nat := do
  let tables ← get
  set { tables with cells := tables.cells ++ [tables.registry.entries] }
  return tables.cells.length

def write (reference : Nat) (entry : Registration) : Action Tables RegistrationFault Unit :=
  modify fun tables => { tables with
    cells := tables.cells.set reference
      (Registry.insert ⟨tables.read reference⟩ entry).entries }

def redirect (reference : Nat) : Action Tables RegistrationFault Unit :=
  modify fun tables => { tables with current := reference }

/-- Registers by copying the current table. -/
def register (call : RegisterCall) : Action Tables RegistrationFault Registration := do
  let entry ← Registry.entry call.owner call.binder call.bindings
  if let some current := (← get).registry.lookup? entry.owner then
    unless current.binder.qualifiedName = entry.binder.qualifiedName do
      throw (.occupied entry.owner.qualifiedName current.binder.qualifiedName
        entry.binder.qualifiedName)
  let reference ← copy
  write reference entry
  redirect reference
  return entry

def extended (tables : Tables) (entries : List Registration) : Tables where
  cells := tables.cells ++ [entries]
  current := tables.cells.length

@[simp] theorem registry_extended (tables : Tables) (registry : Registry) :
    (tables.extended registry.entries).registry = registry := by
  simp [Tables.registry, read, extended]

private theorem copy_from (tables : Tables) :
    copy.from tables = (.ok tables.cells.length,
      { tables with cells := tables.cells ++ [tables.registry.entries] }) := rfl

private theorem write_redirect_from (tables : Tables) (entry : Registration) :
    Action.from (do
      let reference ← copy
      write reference entry
      redirect reference
      return entry) tables =
      (.ok entry, tables.extended (tables.registry.insert entry).entries) := by
  rw [Action.from_bind_of_ok (copy_from tables), write,
    Action.from_bind_of_ok (Action.from_modify _ _), redirect,
    Action.from_bind_of_ok (Action.from_modify _ _)]
  simp [extended, read]

theorem register_from (call : RegisterCall) (tables : Tables) :
    (register call).from tables =
      match tables.registry.register call.owner call.binder call.bindings with
      | .ok (registry, entry) => (.ok entry, tables.extended registry.entries)
      | .error fault => (.error fault, tables) := by
  unfold register Registry.register
  cases hentry : Registry.entry call.owner call.binder call.bindings with
  | error fault => exact Action.from_bind_of_error (Action.from_lift _ _) _
  | ok entry =>
    rw [Action.from_bind_of_ok (Action.from_lift _ _), Action.from_bind_of_ok (Action.from_get _)]
    simp only [Bind.bind, Except.bind]
    cases hcurrent : tables.registry.lookup? entry.owner with
    | none => exact write_redirect_from tables entry
    | some current =>
      by_cases hname : current.binder.qualifiedName = entry.binder.qualifiedName
      · simp only [hname, if_true]
        exact write_redirect_from tables entry
      · simp only [hname, if_false]
        rfl

/-- What comes of a call: an entry and the registry that has it, or a refusal. -/
inductive Answers (call : RegisterCall) (before : Registry) :
    Except RegistrationFault Registration → Registry → Prop
  | accepted {after : Registry} {entry : Registration}
      (h : before.register call.owner call.binder call.bindings = .ok (after, entry)) :
      Answers call before (.ok entry) after
  | refused {fault : RegistrationFault}
      (h : before.register call.owner call.binder call.bindings = .error fault) :
      Answers call before (.error fault) before

theorem Answers.eq_of_error {call : RegisterCall} {before after : Registry}
    {fault : RegistrationFault} (h : Answers call before (.error fault) after) :
    after = before := by
  cases h
  rfl

/-- The tables that have come from others by registering: old tables read as they did, and an owner
keeps a binder of its name. -/
structure Follows (before after : Tables) : Prop where
  length_le : before.cells.length ≤ after.cells.length
  read_eq : ∀ reference < before.cells.length, after.read reference = before.read reference
  current_lt : before.current < before.cells.length → after.current < after.cells.length
  named : ∀ owner entry, before.registry.lookup? owner = some entry →
    ∃ current, after.registry.lookup? owner = some current ∧
      current.binder.qualifiedName = entry.binder.qualifiedName

instance : IsPreorder Tables Follows where
  refl _ := ⟨le_rfl, fun _ _ => rfl, id, fun _ entry h => ⟨entry, h, rfl⟩⟩
  trans first second third h h' := by
    refine ⟨h.length_le.trans h'.length_le, fun reference hlt => ?_,
      fun hlt => h'.current_lt (h.current_lt hlt), fun owner entry hentry => ?_⟩
    · rw [h'.read_eq reference (hlt.trans_le h.length_le), h.read_eq reference hlt]
    · obtain ⟨middle, hmiddle, hname⟩ := h.named owner entry hentry
      obtain ⟨current, hcurrent, hname'⟩ := h'.named owner middle hmiddle
      exact ⟨current, hcurrent, hname'.trans hname⟩

theorem register_answers (call : RegisterCall) (tables : Tables) :
    Answers call tables.registry ((register call).from tables).1
      ((register call).from tables).2.registry := by
  rw [register_from]
  split
  · rename_i registry entry h
    rw [registry_extended]
    exact .accepted h
  · rename_i fault h
    exact .refused h

theorem register_follows (call : RegisterCall) : Action.Leaves Follows (register call) := by
  intro tables
  rw [register_from]
  split
  · rename_i registry made h
    obtain ⟨-, hnames, rfl⟩ := Registry.register_eq_ok_iff.mp h
    refine ⟨by simp [extended], fun reference hlt => ?_, fun _ => by simp [extended],
      fun owner entry hentry => ?_⟩
    · simp [read, extended, List.getElem?_append_left hlt]
    · rw [registry_extended, Registry.lookup?_insert]
      split
      · rename_i hsame
        refine ⟨made, rfl, (hnames entry ?_).symm⟩
        rw [Registry.lookup?, hsame]
        exact hentry
      · exact ⟨entry, hentry, rfl⟩
  · exact refl_of Follows tables

/-- What successive calls answer, and the tables they leave. A refused call does not stop those
after it. -/
def history : List RegisterCall → Tables → List (Except RegistrationFault Registration) × Tables
  | [], tables => ([], tables)
  | call :: rest, tables =>
    let (answer, after) := (register call).from tables
    let (answers, last) := history rest after
    (answer :: answers, last)

theorem history_append (earlier later : List RegisterCall) (tables : Tables) :
    history (earlier ++ later) tables =
      ((history earlier tables).1 ++ (history later (history earlier tables).2).1,
        (history later (history earlier tables).2).2) := by
  induction earlier generalizing tables with
  | nil => rfl
  | cons call rest ih => simp [history, ih]

theorem length_history (calls : List RegisterCall) (tables : Tables) :
    (history calls tables).1.length = calls.length := by
  induction calls generalizing tables with
  | nil => rfl
  | cons call rest ih => simp [history, ih]

theorem history_follows (calls : List RegisterCall) (tables : Tables) :
    Follows tables (history calls tables).2 := by
  induction calls generalizing tables with
  | nil => exact refl_of Follows tables
  | cons call rest ih => exact trans_of Follows (register_follows call tables) (ih _)

private theorem eraseDups_concat (owners : List Identity) (owner : Identity) :
    (owners ++ [owner]).eraseDups =
      if owner ∈ owners then owners.eraseDups else owners.eraseDups ++ [owner] := by
  rw [List.eraseDups_append]
  by_cases h : owner ∈ owners <;> simp [List.removeAll, List.eraseDups_cons, h]

/-- A registry that has exactly the accepted entries, the last one of each owner. -/
structure Records (accepted : List Registration) (registry : Registry) : Prop where
  found : ∀ owner, registry.lookup? owner =
    accepted.reverse.find? (·.owner.identity = owner.identity)
  ordered : registry.owners = (accepted.map (·.owner.identity)).eraseDups
  distinct : registry.owners.Nodup

theorem Records.nil : Records [] {} := ⟨fun _ => rfl, rfl, .nil⟩

theorem Records.insert {accepted : List Registration} {registry : Registry}
    (h : Records accepted registry) (entry : Registration) :
    Records (accepted ++ [entry]) (registry.insert entry) where
  found owner := by
    rw [Registry.lookup?_insert, List.reverse_append, List.reverse_singleton,
      List.singleton_append, List.find?_cons, h.found owner]
    by_cases hsame : entry.owner.identity = owner.identity <;> simp [hsame]
  ordered := by
    rw [Registry.owners_insert, List.map_append, List.map_singleton, eraseDups_concat, h.ordered]
    simp only [List.mem_eraseDups]
  distinct := by
    rw [Registry.owners_insert]
    split
    · exact h.distinct
    · rename_i hnew
      exact List.nodup_append.mpr ⟨h.distinct, List.nodup_singleton _,
        fun owner howner other hother =>
        fun hsame => hnew (by rwa [← List.mem_singleton.mp hother, ← hsame])⟩

def accepted (answers : List (Except RegistrationFault Registration)) : List Registration :=
  answers.filterMap Except.toOption

theorem Records.step {past : List Registration} {before after : Registry} {call : RegisterCall}
    {answer : Except RegistrationFault Registration} (h : Records past before)
    (hanswers : Answers call before answer after) :
    Records (past ++ accepted [answer]) after := by
  cases hanswers with
  | @accepted _ entry hregister =>
    rw [Registry.eq_insert_of_register hregister]
    exact h.insert entry
  | @refused fault hregister =>
    rw [show accepted [.error fault] = [] from rfl, List.append_nil]
    exact h

theorem Records.history {past : List Registration} {tables : Tables}
    (h : Records past tables.registry) (calls : List RegisterCall) :
    Records (past ++ accepted (history calls tables).1) (history calls tables).2.registry := by
  induction calls generalizing past tables with
  | nil => simpa [Tables.history, accepted] using h
  | cons call rest ih =>
    have hnext := ih (h.step (register_answers call tables))
    rwa [List.append_assoc, accepted, accepted, ← List.filterMap_append] at hnext

/-- What calls on a new registry answer. -/
def answers (calls : List RegisterCall) : List (Except RegistrationFault Registration) :=
  (history calls {}).1

def after (calls : List RegisterCall) : Tables := (history calls {}).2

private theorem answers_getElem? (earlier later : List RegisterCall) (call : RegisterCall) :
    (answers (earlier ++ call :: later))[earlier.length]? =
      some ((register call).from (after earlier)).1 := by
  rw [answers, history_append, List.getElem?_append_right (length_history earlier {}).le,
    length_history, Nat.sub_self]
  rfl

private theorem after_append (earlier later : List RegisterCall) :
    after (earlier ++ later) = (history later (after earlier)).2 := by
  rw [after, history_append]
  rfl

private theorem register_from_eq_ok_iff {call : RegisterCall} {tables : Tables}
    {made : Registration} :
    ((register call).from tables).1 = .ok made ↔
      Registry.entry call.owner call.binder call.bindings = .ok made ∧
        ∀ current, tables.registry.lookup? made.owner = some current →
          current.binder.qualifiedName = made.binder.qualifiedName := by
  rw [register_from]
  constructor
  · intro h
    split at h
    · rename_i registry entry hregister
      cases h
      obtain ⟨hentry, hnames, -⟩ := Registry.register_eq_ok_iff.mp hregister
      exact ⟨hentry, hnames⟩
    · cases h
  · rintro ⟨hentry, hnames⟩
    rw [Registry.register_eq_ok_iff.mpr ⟨hentry, hnames, rfl⟩]

private theorem current_lt (calls : List RegisterCall) :
    (after calls).current < (after calls).cells.length :=
  (history_follows calls {}).current_lt Nat.one_pos

/-- What the calls on a new registry make of it. -/
structure Chronicle (calls : List RegisterCall) : Prop where
  answered : ∀ earlier call later, calls = earlier ++ call :: later →
    ∃ answer, (answers calls)[earlier.length]? = some answer ∧
      Answers call (after earlier).registry answer (after (earlier ++ [call])).registry
  accepts : ∀ earlier call later made, calls = earlier ++ call :: later →
    ((answers calls)[earlier.length]? = some (.ok made) ↔
      call.owner = .type made.owner ∧ call.binder = .type made.binder ∧
        checkSignature made.owner made.binder = .ok () ∧
        readBindings call.bindings = .ok made.bindings ∧
        ∀ current, (after earlier).registry.lookup? made.owner = some current →
          current.binder.qualifiedName = made.binder.qualifiedName)
  refused : ∀ earlier call later fault, calls = earlier ++ call :: later →
    (answers calls)[earlier.length]? = some (.error fault) →
      (after (earlier ++ [call])).registry = (after earlier).registry
  named : ∀ earlier later owner entry, calls = earlier ++ later →
    (after earlier).registry.lookup? owner = some entry →
      ∃ current, (after calls).registry.lookup? owner = some current ∧
        current.binder.qualifiedName = entry.binder.qualifiedName
  found : ∀ owner, (after calls).registry.lookup? owner =
    (accepted (answers calls)).reverse.find? (·.owner.identity = owner.identity)
  ordered : (after calls).registry.owners =
    ((accepted (answers calls)).map (·.owner.identity)).eraseDups
  counted : (after calls).registry.entries.length =
    ((accepted (answers calls)).map (·.owner.identity)).toFinset.card
  frozen : ∀ earlier later, calls = earlier ++ later →
    (after calls).read (after earlier).snapshot = (after earlier).registry.entries

/-- Every history of a registry. Each call is answered as `Registry.register` says, and accepted
exactly if it hands over two classes, a constructor for the instance alone, readable bindings, and
no other binder than the owner has. A refused call leaves the registry as it was; an owner's binder
keeps its name; the entry of an owner is that of the last accepted call for it; entries stand in the
order of the first ones accepted; and a snapshot keeps reading what the registry held. -/
theorem history_chronicle (calls : List RegisterCall) : Chronicle calls := by
  have hstart : Records [] ({} : Tables).registry := .nil
  have hrecords : Records (accepted (answers calls)) (after calls).registry := hstart.history calls
  exact {
    answered := by
      rintro earlier call later rfl
      rw [answers_getElem?, after_append]
      exact ⟨_, rfl, register_answers call (after earlier)⟩
    accepts := by
      rintro earlier call later made rfl
      rw [answers_getElem?, Option.some.injEq, register_from_eq_ok_iff, Registry.entry_eq_ok_iff]
      simp only [and_assoc]
    refused := by
      rintro earlier call later fault rfl h
      rw [answers_getElem?, Option.some.injEq] at h
      rw [after_append]
      exact (h ▸ register_answers call (after earlier)).eq_of_error
    named := by
      rintro earlier later owner entry rfl hentry
      rw [after_append]
      exact (history_follows later (after earlier)).named owner entry hentry
    found := hrecords.found
    ordered := hrecords.ordered
    counted := by
      -- Owners are entered once each, so there are as many entries as accepted owners.
      have hsame : ((accepted (answers calls)).map (·.owner.identity)).toFinset =
          (after calls).registry.owners.toFinset := by
        ext owner
        rw [hrecords.ordered, List.mem_toFinset, List.mem_toFinset, List.mem_eraseDups]
      rw [hsame, List.toFinset_card_of_nodup hrecords.distinct, Registry.owners, List.length_map]
    frozen := by
      rintro earlier later rfl
      rw [after_append]
      exact (history_follows later (after earlier)).read_eq _ (current_lt earlier) }

end Tables
end ElementBinding
