import ElementBinding.Pairs
/-!
# JSON values

The values that requests and reports are made of. Integers are kept apart from real numbers, and an
object keeps its members in the order in which their names first came.
-/
namespace ElementBinding

inductive Json where
  | null
  | bool (value : Bool)
  | integer (value : Int)
  | real (value : Float)
  | text (value : String)
  | array (items : List Json)
  | object (members : List (String × Json))
deriving Inhabited

namespace Json

def member? (json : Json) (name : String) : Option Json :=
  match json with
  | object members => Pairs.get? members name
  | _ => none

def ofText? (value : Option String) : Json :=
  match value with
  | some value => text value
  | none => null

end Json

end ElementBinding
