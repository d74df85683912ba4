import ElementBinding.Action
import Mathlib

/-!
# Runs of actions

What a composed action gives and leaves is told from its parts. An action taken for every member of
a list is unfolded into the chain of its single runs, so that an invariant of one run becomes an
invariant of all of them.
-/
namespace ElementBinding

namespace Action
variable {σ ε ε' α β : Type}

@[simp] theorem from_pure (value : α) (state : σ) :
    (pure value : Action σ ε α).from state = (.ok value, state) := rfl

@[simp] theorem from_get (state : σ) : (get : Action σ ε σ).from state = (.ok state, state) := rfl

@[simp] theorem from_set (next state : σ) :
    (set next : Action σ ε PUnit).from state = (.ok ⟨⟩, next) := rfl

@[simp] theorem from_modify (change : σ → σ) (state : σ) :
    (modify change : Action σ ε PUnit).from state = (.ok ⟨⟩, change state) := rfl

@[simp] theorem from_throw (fault : ε) (state : σ) :
    (throw fault : Action σ ε α).from state = (.error fault, state) := rfl

@[simp] theorem from_lift (outcome : Except ε α) (state : σ) :
    Action.from (liftM outcome : Action σ ε α) state = (outcome, state) := by
  cases outcome <;> rfl

@[simp] theorem from_adapt (f : ε → ε') (action : Action σ ε α) (state : σ) :
    Action.from (ExceptT.adapt f action : Action σ ε' α) state =
      ((action.from state).1.mapError f, (action.from state).2) := by
  simp only [Action.from, ExceptT.adapt]
  rfl

theorem from_adapt_of_ok {action : Action σ ε α} {state after : σ} {value : α}
    (h : action.from state = (.ok value, after)) (f : ε → ε') :
    Action.from (ExceptT.adapt f action : Action σ ε' α) state = (.ok value, after) := by
  rw [from_adapt, h]
  rfl

theorem from_adapt_of_error {action : Action σ ε α} {state after : σ} {fault : ε}
    (h : action.from state = (.error fault, after)) (f : ε → ε') :
    Action.from (ExceptT.adapt f action : Action σ ε' α) state = (.error (f fault), after) := by
  rw [from_adapt, h]
  rfl

theorem from_bind (action : Action σ ε α) (next : α → Action σ ε β) (state : σ) :
    (action >>= next).from state =
      match action.from state with
      | (.ok value, after) => (next value).from after
      | (.error fault, after) => (.error fault, after) := by
  simp only [Action.from, ExceptT.run_bind, StateT.run_bind]
  rcases action.run.run state with ⟨outcome, after⟩
  cases outcome <;> rfl

theorem from_bind_of_ok {action : Action σ ε α} {state after : σ} {value : α}
    (h : action.from state = (.ok value, after)) (next : α → Action σ ε β) :
    (action >>= next).from state = (next value).from after := by
  rw [from_bind, h]

theorem from_bind_of_error {action : Action σ ε α} {state after : σ} {fault : ε}
    (h : action.from state = (.error fault, after)) (next : α → Action σ ε β) :
    (action >>= next).from state = (.error fault, after) := by
  rw [from_bind, h]

theorem from_bind_ok {action : Action σ ε α} {next : α → Action σ ε β} {state last : σ}
    {value : β} (h : (action >>= next).from state = (.ok value, last)) :
    ∃ first middle, action.from state = (.ok first, middle) ∧
      (next first).from middle = (.ok value, last) := by
  rw [from_bind] at h
  rcases hfirst : action.from state with ⟨outcome, middle⟩
  rw [hfirst] at h
  cases outcome with
  | ok first => exact ⟨first, middle, rfl, h⟩
  | error fault => simp at h

/-- The single runs that make up a run of an action for every member of a list. -/
inductive Each (f : α → Action σ ε β) : List α → σ → List β → σ → Prop
  | nil (state : σ) : Each f [] state [] state
  | cons {a : α} {rest : List α} {state middle last : σ} {b : β} {values : List β}
      (first : (f a).from state = (.ok b, middle)) (more : Each f rest middle values last) :
      Each f (a :: rest) state (b :: values) last

theorem mapM_from_iff {f : α → Action σ ε β} {items : List α} {state last : σ}
    {values : List β} :
    (items.mapM f).from state = (.ok values, last) ↔ Each f items state values last := by
  induction items generalizing state values with
  | nil =>
    constructor
    · intro h
      simp only [List.mapM_nil, from_pure, Prod.mk.injEq, Except.ok.injEq] at h
      obtain ⟨rfl, rfl⟩ := h
      exact .nil state
    · rintro ⟨⟩
      rfl
  | cons a rest ih =>
    constructor
    · intro h
      rw [List.mapM_cons] at h
      obtain ⟨b, middle, hfirst, h⟩ := from_bind_ok h
      obtain ⟨more, final, hmore, h⟩ := from_bind_ok h
      simp only [from_pure, Prod.mk.injEq, Except.ok.injEq] at h
      obtain ⟨rfl, rfl⟩ := h
      exact .cons hfirst (ih.mp hmore)
    · rintro (_ | ⟨hfirst, hmore⟩)
      rw [List.mapM_cons, from_bind_of_ok hfirst, from_bind_of_ok (ih.mpr hmore), from_pure]

/-- A chain of runs that fails does so at some member, after a chain for those before it. -/
theorem mapM_from_error {f : α → Action σ ε β} {items : List α} {state last : σ} {fault : ε}
    (h : (items.mapM f).from state = (.error fault, last)) :
    ∃ front a rest values middle, items = front ++ a :: rest ∧ Each f front state values middle ∧
      (f a).from middle = (.error fault, last) := by
  induction items generalizing state with
  | nil => simp [List.mapM_nil] at h
  | cons a rest ih =>
    rw [List.mapM_cons, from_bind] at h
    rcases hfirst : (f a).from state with ⟨outcome, middle⟩
    cases outcome with
    | error found =>
      simp only [hfirst, Prod.mk.injEq, Except.error.injEq] at h
      obtain ⟨rfl, rfl⟩ := h
      exact ⟨[], a, rest, [], state, rfl, .nil state, hfirst⟩
    | ok b =>
      rw [hfirst] at h
      dsimp only at h
      rw [from_bind] at h
      rcases hrest : (rest.mapM f).from middle with ⟨outcome, final⟩
      rw [hrest] at h
      cases outcome with
      | ok values => simp at h
      | error found =>
        obtain ⟨front, a', rest', values, middle', rfl, hmore, hlast⟩ := ih (hrest.trans h)
        exact ⟨a :: front, a', rest', b :: values, middle', rfl, .cons hfirst hmore, hlast⟩

theorem forM_modify_from (change : α → σ → σ) (items : List α) (state : σ) :
    (items.forM fun a => (modify (change a) : Action σ ε PUnit)).from state =
      (.ok ⟨⟩, items.foldl (fun state a => change a state) state) := by
  induction items generalizing state with
  | nil => rfl
  | cons a rest ih =>
    rw [List.forM_eq_forM, List.forM_cons, from_bind_of_ok (from_modify _ _)]
    exact ih (change a state)

/-- Whatever comes of the action, the state that it leaves is related to the one before. -/
def Leaves (R : σ → σ → Prop) (action : Action σ ε α) : Prop :=
  ∀ state, R state (action.from state).2

namespace Leaves
variable {R : σ → σ → Prop} [IsPreorder σ R]

theorem of_pure (value : α) : Leaves R (pure value : Action σ ε α) := fun state => refl_of R state

theorem of_get : Leaves R (get : Action σ ε σ) := fun state => refl_of R state

theorem of_throw (fault : ε) : Leaves R (throw fault : Action σ ε α) := fun state => refl_of R state

theorem of_bind {action : Action σ ε α} {next : α → Action σ ε β} (h : Leaves R action)
    (hnext : ∀ value, Leaves R (next value)) : Leaves R (action >>= next) := by
  intro state
  rw [from_bind]
  have hfirst := h state
  rcases haction : action.from state with ⟨outcome, middle⟩
  rw [haction] at hfirst
  cases outcome with
  | ok value => exact trans_of R hfirst (hnext value middle)
  | error fault => exact hfirst

theorem of_forM {f : α → Action σ ε PUnit} (h : ∀ a, Leaves R (f a)) (items : List α) :
    Leaves R (items.forM f) := by
  induction items with
  | nil => exact of_pure _
  | cons a rest ih => exact of_bind (h a) fun _ => ih

theorem of_foldlM {f : β → α → Action σ ε β} (h : ∀ b a, Leaves R (f b a)) (items : List α)
    (b : β) : Leaves R (items.foldlM f b) := by
  induction items generalizing b with
  | nil => exact of_pure _
  | cons a rest ih =>
    rw [List.foldlM_cons]
    exact of_bind (h b a) ih

end Leaves

end Action

private theorem filterAuxM_eq_ok_iff {ε α : Type} {test : α → Except ε Bool}
    {items passed chosen : List α} :
    items.filterAuxM test passed = .ok chosen ↔
      (∀ a ∈ items, ∃ b, test a = .ok b) ∧
        chosen = (items.filter fun a => (test a).toOption = some true).reverse ++ passed := by
  induction items generalizing passed with
  | nil => simp [List.filterAuxM, pure, Except.pure, eq_comm]
  | cons a rest ih =>
    rw [List.filterAuxM]
    cases htest : test a with
    | error fault => simp [htest, Bind.bind, Except.bind]
    | ok b => cases b <;> simp [htest, Bind.bind, Except.bind, Except.toOption, ih]

private theorem filterM_eq_ok_iff {ε α : Type} {test : α → Except ε Bool} {items chosen : List α} :
    items.filterM test = .ok chosen ↔
      (∀ a ∈ items, ∃ b, test a = .ok b) ∧
        chosen = items.filter fun a => (test a).toOption = some true := by
  rw [List.filterM]
  cases haux : items.filterAuxM test [] with
  | error fault =>
    simp only [Bind.bind, Except.bind, reduceCtorEq, false_iff, not_and]
    intro hall
    have h : items.filterAuxM test [] = .ok _ := filterAuxM_eq_ok_iff.mpr ⟨hall, rfl⟩
    rw [haux] at h
    simp at h
  | ok found =>
    obtain ⟨hall, rfl⟩ := filterAuxM_eq_ok_iff.mp haux
    simp only [Bind.bind, Except.bind, pure, Except.pure, List.append_nil, List.reverse_reverse,
      Except.ok.injEq]
    exact ⟨fun h => ⟨hall, h.symm⟩, fun h => h.2.symm⟩

/-- A test of what is read selects members of a list if it can be read for all of them. -/
theorem filterM_read_eq_ok_iff {ε α β : Type} {read : α → Except ε β} {test : β → Bool}
    {items chosen : List α} :
    (items.filterM fun a => do
      let b ← read a
      return test b) = .ok chosen ↔
      (∀ a ∈ items, ∃ b, read a = .ok b) ∧
        chosen = items.filter fun a => (read a).toOption.any test := by
  have hread (a : α) : (∃ b, (do
      let b ← read a
      return test b : Except ε Bool) = .ok b) ↔ ∃ b, read a = .ok b := by
    cases read a <;> simp [Bind.bind, Except.bind, pure, Except.pure]
  have htest (a : α) : ((do
      let b ← read a
      return test b : Except ε Bool).toOption = some true) ↔
        (read a).toOption.any test = true := by
    cases read a <;> simp [Bind.bind, Except.bind, pure, Except.pure, Except.toOption]
  rw [filterM_eq_ok_iff]
  simp only [hread, htest, Bool.decide_eq_true]

end ElementBinding
