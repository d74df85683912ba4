import ElementBinding.Scan
import ElementBinding.Spec
/-!
# Verdicts

What is reported of each module and each owner. A module that cannot be parsed is rejected as a
whole, since a binder made from it could miss fields. An owner whose fields share an identifier or
lack a type is accepted with a warning.
-/
namespace ElementBinding

inductive Verdict where
  | accept
  | warn
  | reject
deriving DecidableEq

def Verdict.text : Verdict → String
  | accept => "ACCEPT"
  | warn => "WARN"
  | reject => "REJECT"

inductive Reason where
  | moduleParseError
  | moduleReadError
  | scanError
  | binderNameCollision
  | emitError
  | duplicateViewId
  | untypedField
  | staleUnit
deriving DecidableEq

def Reason.text : Reason → String
  | moduleParseError => "MODULE_PARSE_ERROR"
  | moduleReadError => "MODULE_READ_ERROR"
  | scanError => "SCAN_ERROR"
  | binderNameCollision => "BINDER_NAME_COLLISION"
  | emitError => "EMIT_ERROR"
  | duplicateViewId => "DUPLICATE_VIEW_ID"
  | untypedField => "UNTYPED_FIELD"
  | staleUnit => "STALE_UNIT"

structure Judgement where
  verdict : Verdict
  reasons : List Reason
deriving DecidableEq

/-- The judgement on a module by its source. -/
def Source.judge (source : Source) : Judgement :=
  if source.tree.isSome then ⟨.accept, []⟩ else ⟨.reject, [.moduleParseError]⟩

/-- Two of the fields share a view identifier. -/
def sharesViewId : List Field → Bool
  | [] => false
  | field :: rest => rest.any (·.viewId = field.viewId) || sharesViewId rest

/-- The judgement on an owner whose binder is about to be written. -/
def Spec.judge (spec : Spec) : Judgement :=
  let reasons :=
    (if sharesViewId spec.fields then [.duplicateViewId] else []) ++
      (if spec.fields.any (·.type.isNone) then [.untypedField] else [])
  ⟨if reasons.isEmpty then .accept else .warn, reasons⟩

/-- The reason an owner with a fault is rejected for. -/
def Fault.reason (fault : Fault) : Reason :=
  if fault.cause.isCollision then .binderNameCollision else .scanError

end ElementBinding
