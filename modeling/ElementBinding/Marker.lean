import ElementBinding.Json.Shown
import ElementBinding.Unit
/-!
# Markers

The value that an annotated field has in its class until a binder populates it: it records the view
identifier, and knows its class and name once it is part of one.
-/
namespace ElementBinding

structure Marker where
  viewId : Int
  name : Option String := none
  owner : Option String := none
deriving DecidableEq

/-- A value that is no view identifier. -/
structure NotIdentifier where
  value : Json

def NotIdentifier.message (fault : NotIdentifier) : String :=
  "bind_view() takes an integer view identifier, got " ++ fault.value.shown

namespace Marker

/-- The marker for a view identifier, which must be an integer. -/
def of (value : Json) : Except NotIdentifier Marker :=
  match value with
  | .integer viewId => .ok { viewId }
  | _ => .error ⟨value⟩

/-- A marker as a diagnostic shows it. -/
def text (marker : Marker) : Except RenderFault String := do
  return "bind_view(" ++ (← idText marker.viewId) ++ ")"

end Marker

end ElementBinding
