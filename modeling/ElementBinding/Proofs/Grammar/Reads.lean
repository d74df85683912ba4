import ElementBinding.Grammar.Rule
import Mathlib

/-!
# What rules read

A rule that reads a text succeeds wherever that text stands ahead, and leaves what follows it. This
passes through the steps of which rules are made. A repetition ends, since every step but the last
shortens the text.
-/
namespace ElementBinding.Grammar
open ElementBinding.Text

variable {whole : List Char}

/-- The blocks that are open at a place, and the text ahead. -/
structure Spot where
  indents : List Nat
  text : List Char

namespace Cursor

/-- The cursor stands at a place of this kind, and in no formatted string. -/
structure Stands (c : Cursor whole) (spot : Spot) : Prop where
  rest : c.rest = spot.text
  indents : c.indents = spot.indents
  inFormat : c.inFormat = false

theorem length_le (c : Cursor whole) : c.rest.length ≤ c.size := by
  rw [c.size_eq]
  exact c.isSuffix.length_le

@[simp] theorem rest_next (c : Cursor whole) : c.next.rest = c.rest.tail := by
  unfold next
  split
  · rename_i hrest
    rw [hrest, List.tail_nil]
  · rename_i hrest
    exact (congrArg List.tail hrest).symm

@[simp] theorem indents_next (c : Cursor whole) : c.next.indents = c.indents := by
  unfold next
  split <;> rfl

@[simp] theorem inFormat_next (c : Cursor whole) : c.next.inFormat = c.inFormat := by
  unfold next
  split <;> rfl

theorem rest_skip (n : Nat) (c : Cursor whole) : (c.skip n).rest = c.rest.drop n := by
  induction n generalizing c with
  | zero => rfl
  | succ n ih => rw [skip, ih, rest_next, List.drop_tail]

@[simp] theorem indents_skip (n : Nat) (c : Cursor whole) : (c.skip n).indents = c.indents := by
  induction n generalizing c with
  | zero => rfl
  | succ n ih => rw [skip, ih, indents_next]

@[simp] theorem inFormat_skip (n : Nat) (c : Cursor whole) : (c.skip n).inFormat = c.inFormat := by
  induction n generalizing c with
  | zero => rfl
  | succ n ih => rw [skip, ih, inFormat_next]

variable {c : Cursor whole} {indents : List Nat} {text rest : List Char}

theorem Stands.skip (h : c.Stands ⟨indents, text⟩) (n : Nat) :
    (c.skip n).Stands ⟨indents, text.drop n⟩ where
  rest := by rw [rest_skip, h.rest]
  indents := by rw [indents_skip, h.indents]
  inFormat := by rw [inFormat_skip, h.inFormat]

/-- What was read between two cursors is the text between them. -/
theorem Stands.textTo {stop : Cursor whole} {outer : List Nat}
    (h : c.Stands ⟨indents, text ++ rest⟩) (hstop : stop.Stands ⟨outer, rest⟩) :
    c.textTo stop = String.ofList text := by
  have hrest : c.rest = text ++ rest := h.rest
  have hlast : stop.rest = rest := hstop.rest
  have hstart := c.offset_eq
  have hend := stop.offset_eq
  rw [hrest, List.length_append] at hstart
  rw [hlast] at hend
  have hlength : stop.offset - c.offset = text.length := by omega
  rw [Cursor.textTo, hrest, hlength, List.take_left]

theorem Stands.skip_append {front : List Char} (h : c.Stands ⟨indents, front ++ rest⟩) :
    (c.skip front.length).Stands ⟨indents, rest⟩ := by
  have hskipped := h.skip front.length
  rwa [List.drop_left] at hskipped

end Cursor

namespace Rule
variable {α β σ : Type} {P : α → Prop} {Q : β → Prop} {I J : σ → Prop} {here middle there : Spot}

/-- The rule gives a value with a property at every place of one kind, and goes to one of
another. -/
def Reads (rule : Rule whole α) (here : Spot) (P : α → Prop) (there : Spot) : Prop :=
  ∀ c : Cursor whole, c.Stands here →
    ∃ value after, rule.run c = some (value, after) ∧ P value ∧ after.Stands there

/-- The rule gives nothing at any place of a kind. -/
def Fails (rule : Rule whole α) (here : Spot) : Prop :=
  ∀ c : Cursor whole, c.Stands here → rule.run c = none

namespace Reads

theorem pure {value : α} (h : P value) : Reads (Pure.pure value : Rule whole α) here P here :=
  fun c hc => ⟨value, c, rfl, h, hc⟩

theorem bind {rule : Rule whole β} {next : β → Rule whole α} (h : rule.Reads here Q middle)
    (h' : ∀ value, Q value → (next value).Reads middle P there) :
    Reads (rule >>= next) here P there := by
  intro c hc
  obtain ⟨value, between, hrule, hvalue, hbetween⟩ := h c hc
  obtain ⟨found, after, hnext, hfound, hafter⟩ := h' value hvalue between hbetween
  refine ⟨found, after, ?_, hfound, hafter⟩
  rw [StateT.run_bind, hrule]
  exact hnext

/-- A value that is known is passed on as such. -/
theorem andThen {rule : Rule whole β} {value : β} {next : β → Rule whole α}
    (h : rule.Reads here (· = value) middle) (h' : (next value).Reads middle P there) :
    Reads (rule >>= next) here P there :=
  bind h fun _ hvalue => hvalue ▸ h'

theorem mono {rule : Rule whole α} {R : α → Prop} (h : rule.Reads here R there)
    (h' : ∀ value, R value → P value) : rule.Reads here P there := by
  intro c hc
  obtain ⟨value, after, hrun, hvalue, hafter⟩ := h c hc
  exact ⟨value, after, hrun, h' value hvalue, hafter⟩

theorem cursor : Reads (Rule.cursor : Rule whole (Cursor whole)) here (·.Stands here) here :=
  fun c hc => ⟨c, c, rfl, hc, hc⟩

theorem get : Reads (MonadState.get : Rule whole (Cursor whole)) here (·.Stands here) here :=
  fun c hc => ⟨c, c, rfl, hc, hc⟩

theorem set {c : Cursor whole} (h : c.Stands there) :
    Reads (MonadState.set c : Rule whole PUnit) here (fun _ => True) there :=
  fun _ _ => ⟨⟨⟩, c, rfl, trivial, h⟩

theorem noteOperand (offset : Nat) :
    Reads (Rule.noteOperand offset : Rule whole Unit) here (fun _ => True) here :=
  fun c hc => ⟨⟨⟩, { c with operand := offset }, rfl, trivial, hc.rest, hc.indents, hc.inFormat⟩

theorem second {first second : Rule whole α} (hfails : first.Fails here)
    (h : second.Reads here P there) : (Rule.either first second).Reads here P there := by
  intro c hc
  obtain ⟨value, after, hrun, hvalue, hafter⟩ := h c hc
  have hnone : first c = none := hfails c hc
  refine ⟨value, after, ?_, hvalue, hafter⟩
  rw [StateT.run, Rule.either, hnone]
  exact hrun

end Reads

namespace Fails

theorem failure : Fails (Alternative.failure : Rule whole α) here := fun _ _ => rfl

theorem first {rule : Rule whole β} {next : β → Rule whole α} (h : rule.Fails here) :
    Fails (rule >>= next) here := by
  intro c hc
  rw [StateT.run_bind, h c hc]
  rfl

theorem later {rule : Rule whole β} {next : β → Rule whole α} (h : rule.Reads here Q middle)
    (h' : ∀ value, Q value → (next value).Fails middle) : Fails (rule >>= next) here := by
  intro c hc
  obtain ⟨value, between, hrule, hvalue, hbetween⟩ := h c hc
  rw [StateT.run_bind, hrule]
  exact h' value hvalue between hbetween

end Fails

/-- From any state with a property, repeating the step ends as soon as the text is used up. -/
def Settles (step : σ → Rule whole (σ ⊕ α)) (here : Spot) (I : σ → Prop) (P : α → Prop)
    (there : Spot) : Prop :=
  ∀ state, I state → ∀ fuel, here.text.length < fuel →
    (iterate step fuel state).Reads here P there

namespace Settles
variable {step : σ → Rule whole (σ ⊕ α)}

theorem last (h : ∀ state, I state → (step state).Reads here (∃ value, · = .inr value ∧ P value)
    there) : Settles step here I P there := by
  intro state hstate fuel hfuel
  obtain ⟨fuel, rfl⟩ : ∃ n, fuel = n + 1 := ⟨fuel - 1, by omega⟩
  refine .bind (h state hstate) fun result hresult => ?_
  obtain ⟨value, rfl, hvalue⟩ := hresult
  exact .pure hvalue

theorem more (hshorter : middle.text.length < here.text.length)
    (h : ∀ state, I state → (step state).Reads here (∃ next, · = .inl next ∧ J next) middle)
    (h' : Settles step middle J P there) : Settles step here I P there := by
  intro state hstate fuel hfuel
  obtain ⟨fuel, rfl⟩ : ∃ n, fuel = n + 1 := ⟨fuel - 1, by omega⟩
  refine .bind (h state hstate) fun result hresult => ?_
  obtain ⟨next, rfl, hnext⟩ := hresult
  exact h' next hnext fuel (by omega)

theorem loop {state : σ} (h : Settles step here I P there) (hstate : I state) :
    (Rule.loop step state).Reads here P there := by
  intro c hc
  have hsize := c.length_le
  rw [hc.rest] at hsize
  exact h state hstate (c.size + 2) (by omega) c hc

theorem once {state : σ} (value : α) (h : (step state).Reads here (· = .inr value) there) :
    (Rule.loop step state).Reads here (· = value) there :=
  loop (I := (· = state))
    (.last fun _ hstate => hstate ▸ h.mono fun _ hvalue => ⟨value, hvalue, rfl⟩) rfl

end Settles

end Rule

end ElementBinding.Grammar
