/-!
# Actions

Computations on a state that may fail halfway.
-/
namespace ElementBinding

/-- A computation that changes a state and may fail; what it changed before it fails stays. -/
abbrev Action (σ ε α : Type) := ExceptT ε (StateM σ) α

/-- Runs an action: what it gives, and the state it leaves. -/
def Action.from (action : Action σ ε α) (state : σ) : Except ε α × σ := action.run.run state

end ElementBinding
