import ElementBinding.Registry
import Mathlib

/-!
# Registries

A registry finds what was last put in for an owner. Which calls it accepts is told from what they
hand over and from the entry that their owner has; an accepted call puts its entry in.
-/
namespace ElementBinding

namespace Registry

private theorem find?_place (entries : List Registration) (entry : Registration)
    (identity : Identity) :
    (insert.place entry entries).find? (·.owner.identity = identity) =
      if entry.owner.identity = identity then some entry
      else entries.find? (·.owner.identity = identity) := by
  induction entries with
  | nil => by_cases h : entry.owner.identity = identity <;> simp [insert.place, h]
  | cons other rest ih =>
    by_cases hother : other.owner.identity = entry.owner.identity
    · by_cases h : entry.owner.identity = identity <;> simp [insert.place, hother, h]
    · rw [insert.place, if_neg hother, List.find?_cons, ih, List.find?_cons]
      by_cases h : entry.owner.identity = identity
      · have hne : other.owner.identity ≠ identity := fun hmem => hother (hmem.trans h.symm)
        simp [h, hne]
      · rw [if_neg h, if_neg h]

theorem lookup?_insert (registry : Registry) (entry : Registration) (owner : Class) :
    (registry.insert entry).lookup? owner =
      if entry.owner.identity = owner.identity then some entry else registry.lookup? owner :=
  find?_place registry.entries entry owner.identity

@[simp] theorem lookup?_insert_self (registry : Registry) (entry : Registration) :
    (registry.insert entry).lookup? entry.owner = some entry := by
  rw [lookup?_insert, if_pos rfl]

theorem identity_of_lookup? {registry : Registry} {owner : Class} {entry : Registration}
    (h : registry.lookup? owner = some entry) : entry.owner.identity = owner.identity := by
  simpa using List.find?_some h

def owners (registry : Registry) : List Identity := registry.entries.map (·.owner.identity)

private theorem map_place (entries : List Registration) (entry : Registration) :
    (insert.place entry entries).map (·.owner.identity) =
      if entry.owner.identity ∈ entries.map (·.owner.identity) then
        entries.map (·.owner.identity)
      else entries.map (·.owner.identity) ++ [entry.owner.identity] := by
  induction entries with
  | nil => rfl
  | cons other rest ih =>
    by_cases hother : other.owner.identity = entry.owner.identity
    · simp [insert.place, hother]
    · rw [insert.place, if_neg hother, List.map_cons, List.map_cons, ih]
      by_cases hrest : entry.owner.identity ∈ rest.map (·.owner.identity)
      · rw [if_pos hrest, if_pos (List.mem_cons_of_mem _ hrest)]
      · rw [if_neg hrest, if_neg (by simpa [Ne.symm hother] using hrest), List.cons_append]

theorem owners_insert (registry : Registry) (entry : Registration) :
    (registry.insert entry).owners =
      if entry.owner.identity ∈ registry.owners then registry.owners
      else registry.owners ++ [entry.owner.identity] :=
  map_place registry.entries entry

/-- What a registration asks for is an entry for the owner, with the binder and the bindings. -/
theorem entry_eq_ok_iff {owner binder : Registrant} {bindings : Json} {made : Registration} :
    entry owner binder bindings = .ok made ↔
      owner = .type made.owner ∧ binder = .type made.binder ∧
        checkSignature made.owner made.binder = .ok () ∧
        readBindings bindings = .ok made.bindings := by
  constructor
  · intro h
    unfold entry at h
    split at h
    · rename_i owner binder
      cases hsignature : checkSignature owner binder with
      | error fault => simp [hsignature, Bind.bind, Except.bind] at h
      | ok _ =>
        cases hread : readBindings bindings with
        | error fault => simp [hsignature, hread, Bind.bind, Except.bind, Except.mapError] at h
        | ok pairs =>
          simp only [hsignature, hread, Bind.bind, Except.bind, Except.mapError, pure, Except.pure,
            Except.ok.injEq] at h
          subst h
          exact ⟨rfl, rfl, hsignature, rfl⟩
    · simp at h
  · rintro ⟨rfl, rfl, hsignature, hread⟩
    rw [entry, hsignature, hread]
    rfl

/-- A call is accepted if what it asks for is an entry and no other binder stands for its owner. -/
theorem register_eq_ok_iff {registry after : Registry} {owner binder : Registrant} {bindings : Json}
    {made : Registration} :
    registry.register owner binder bindings = .ok (after, made) ↔
      entry owner binder bindings = .ok made ∧
        (∀ current, registry.lookup? made.owner = some current →
          current.binder.qualifiedName = made.binder.qualifiedName) ∧
        after = registry.insert made := by
  unfold register
  cases hentry : entry owner binder bindings with
  | error fault => simp [Bind.bind, Except.bind]
  | ok found =>
    simp only [Bind.bind, Except.bind, Except.ok.injEq]
    split
    · rename_i current hcurrent
      split
      · rename_i hname
        constructor
        · intro h
          obtain ⟨rfl, rfl⟩ := by simpa using h
          refine ⟨rfl, fun other hother => ?_, rfl⟩
          cases hcurrent.symm.trans hother
          exact hname
        · rintro ⟨rfl, -, rfl⟩
          rfl
      · rename_i hname
        simp only [reduceCtorEq, throw, throwThe, MonadExceptOf.throw, false_iff, not_and]
        rintro rfl hnames
        exact absurd (hnames current hcurrent) hname
    · rename_i hnone
      constructor
      · intro h
        obtain ⟨rfl, rfl⟩ := by simpa using h
        exact ⟨rfl, by simp [hnone], rfl⟩
      · rintro ⟨rfl, -, rfl⟩
        rfl

theorem eq_insert_of_register {registry after : Registry} {owner binder : Registrant}
    {bindings : Json} {entry : Registration}
    (h : registry.register owner binder bindings = .ok (after, entry)) :
    after = registry.insert entry :=
  (register_eq_ok_iff.mp h).2.2

end Registry

end ElementBinding
