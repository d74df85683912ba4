import ElementBinding.Grammar.Rule
import Mathlib

/-!
# What rules yield

A property of the values that a rule can give, wherever it begins to read. It passes through the
steps of which rules are made; a repetition needs an invariant of the values it collects.
-/
namespace ElementBinding.Grammar
open ElementBinding.Text

variable {whole : List Char}

/-- Every value that a rule gives has a property. -/
def Rule.Yields (rule : Rule whole α) (P : α → Prop) : Prop :=
  ∀ c value after, rule.run c = some (value, after) → P value

namespace Rule.Yields
variable {α β σ : Type} {P : α → Prop} {Q : β → Prop}

theorem pure {value : α} (h : P value) : Yields (Pure.pure value : Rule whole α) P := by
  intro c found after hrun
  simp only [StateT.run_pure, Option.pure_def, Option.some.injEq, Prod.mk.injEq] at hrun
  exact hrun.1 ▸ h

theorem failure : Yields (Alternative.failure : Rule whole α) P := by
  intro c found after hrun
  simp [StateT.run_failure] at hrun

theorem bind {rule : Rule whole β} {next : β → Rule whole α} (h : rule.Yields Q)
    (h' : ∀ value, Q value → (next value).Yields P) : Yields (rule >>= next) P := by
  intro c found after hrun
  rw [StateT.run_bind] at hrun
  obtain ⟨⟨value, middle⟩, hrule, hnext⟩ := Option.bind_eq_some_iff.mp hrun
  exact h' value (h c value middle hrule) middle found after hnext

theorem last {rule : Rule whole β} {next : β → Rule whole α} (h : ∀ value, (next value).Yields P) :
    Yields (rule >>= next) P :=
  bind (Q := fun _ => True) (fun _ _ _ _ => trivial) fun value _ => h value

theorem mono {rule : Rule whole α} {R : α → Prop} (h : rule.Yields R)
    (h' : ∀ value, R value → P value) :
    rule.Yields P := fun c value after hrun => h' value (h c value after hrun)

theorem either {first second : Rule whole α} (h : first.Yields P) (h' : second.Yields P) :
    (Rule.either first second).Yields P := by
  intro c value after hrun
  rw [StateT.run, Rule.either] at hrun
  cases hfirst : first c with
  | none =>
    rw [hfirst] at hrun
    exact h' c value after hrun
  | some result =>
    rw [hfirst] at hrun
    exact h c value after (hfirst.trans hrun)

theorem spanned {place : Place} {rule : Rule whole α} (h : rule.Yields P) :
    (Rule.spanned place rule).Yields fun result => P result.1 :=
  last fun _ => last fun _ => bind h fun _ hvalue => last fun _ => pure hvalue

theorem spanned_text (place : Place) (rule : Rule whole α) :
    (Rule.spanned place rule).Yields fun result => ∀ c ∈ result.2.1.toList, c ∈ whole := by
  refine last fun _ => last fun start => last fun _ => last fun stop => pure fun c hc => ?_
  rw [Cursor.textTo, String.toList_ofList] at hc
  exact start.isSuffix.subset (List.mem_of_mem_take hc)

theorem loop {step : σ → Rule whole (σ ⊕ α)} {I : σ → Prop} {state : σ} (hstate : I state)
    (h : ∀ state, I state → (step state).Yields (Sum.elim I P)) :
    (Rule.loop step state).Yields P := by
  refine last fun start => ?_
  generalize start.size + 2 = fuel
  induction fuel generalizing state with
  | zero => exact failure
  | succ fuel ih =>
    refine bind (h state hstate) fun result hresult => ?_
    cases result with
    | inl next => exact ih hresult
    | inr value => exact pure hresult

end Rule.Yields

/-- A text that a name consists of. -/
structure IsName (text : String) : Prop where
  start : ∃ first rest, text.toList = first :: rest ∧ isIdentifierStart first
  rest : ∀ c ∈ text.toList, isIdentifierRest c

theorem isName_iff {text : String} : IsName text ↔
    (text.toList.head?.any isIdentifierStart && text.toList.all isIdentifierRest) = true := by
  rw [Bool.and_eq_true, List.all_eq_true]
  constructor
  · rintro ⟨⟨first, rest, htext, hstart⟩, hrest⟩
    exact ⟨by simp [htext, hstart], hrest⟩
  · rintro ⟨hstart, hrest⟩
    cases htext : text.toList with
    | nil => simp [htext] at hstart
    | cons first more => exact ⟨⟨first, more, htext, by simpa [htext] using hstart⟩, hrest⟩

instance (text : String) : Decidable (IsName text) := decidable_of_iff _ isName_iff.symm

theorem IsName.not_mem {text : String} (h : IsName text) {c : Char}
    (hc : isIdentifierRest c = false) : c ∉ text.toList := by
  intro hmem
  have hname := h.rest c hmem
  simp [hc] at hname

private theorem tokenAt_name {text : List Char} {name : String} {length : Nat}
    (h : tokenAt text = (.name name, length)) : IsName name := by
  unfold tokenAt at h
  split at h
  · simp at h
  · split at h
    · simp at h
    · split at h
      · rename_i first rest _ hstart
        simp only [Prod.mk.injEq, Token.name.injEq] at h
        have hfirst : isIdentifierRest first := by simp [isIdentifierRest, hstart]
        obtain rfl := h.1
        refine ⟨⟨first, rest.takeWhile isIdentifierRest, ?_, hstart⟩, fun char hchar => ?_⟩
        · rw [String.toList_ofList, List.takeWhile_cons_of_pos hfirst]
        · rw [String.toList_ofList] at hchar
          exact List.mem_takeWhile_imp hchar
      · split at h
        · rename_i first rest _ _ _
          cases hnumber : (numberLength (first :: rest)).2 <;> simp_all
        · split at h <;> simp at h

theorem Rule.take_yields (place : Place) :
    (Rule.take place : Rule whole Token).Yields fun token =>
      ∀ text, token = .name text → IsName text := by
  refine .last fun _ => .last fun here => .last fun _ => .pure ?_
  intro text htext
  have hpair : tokenAt here.rest = (.name text, here.token.2) := Prod.ext htext rfl
  exact tokenAt_name hpair

theorem Rule.identifier_yields (place : Place) :
    (Rule.identifier place : Rule whole String).Yields fun text =>
      IsName text ∧ isReserved text = false := by
  refine .bind (Rule.take_yields place) fun token htoken => ?_
  split
  · split
    · exact .failure
    · rename_i hfree
      exact .pure ⟨htoken _ rfl, by simpa using hfree⟩
  · exact .failure

end ElementBinding.Grammar
