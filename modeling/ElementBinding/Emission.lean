import ElementBinding.Sink
/-!
# Emission

Rendering a specification and handing the unit to a sink, exactly once. What a sink refuses or
cannot write is a fault of the owner; anything else that goes wrong interrupts the pass.
-/
namespace ElementBinding

/-- What stops the emission of an owner's unit: a fault of that owner, or an interruption of the
whole pass. -/
inductive EmitStop where
  | fault (fault : EmitFault)
  | render (fault : RenderFault)
  | undecodable
  | other (kind message : String)
deriving DecidableEq

/-- What a failed write means for the owner of the unit. -/
def WriteFault.toStop (unit : BinderUnit) : WriteFault → EmitStop
  | emit fault => .fault fault
  | file fault => .fault (.notWritten unit.path fault)
  | undecodable => .undecodable
  | other kind message => .other kind message

/-- An emitted unit, and whether its stored text changed. -/
structure Emission where
  unit : BinderUnit
  changed : Bool

/-- Renders a specification and hands the unit to a sink. -/
def emit (write : BinderUnit → Action σ WriteFault Bool) (spec : Spec) (profile : Profile) :
    Action σ EmitStop Emission := do
  let unit ← match spec.render profile with
    | .ok unit => pure unit
    | .error fault => throw (.render fault)
  let changed ← ExceptT.adapt (WriteFault.toStop unit) (write unit)
  return ⟨unit, changed⟩

def MemorySink.accept (unit : BinderUnit) : Action MemorySink WriteFault Bool := do
  let (sink, changed) := (← get).write unit
  set sink
  return changed

def emitFile (spec : Spec) (profile : Profile) : Action Site EmitStop Emission := do
  let emission ← emit DirectorySink.write spec profile
  modify (·.report (.emitted emission.unit.moduleName spec.fields.length emission.changed))
  return emission

end ElementBinding
