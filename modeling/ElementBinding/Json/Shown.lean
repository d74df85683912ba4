import ElementBinding.Json
import ElementBinding.Text.Integer
import ElementBinding.Text.Quoted
import ElementBinding.Text.Shortest
/-!
# Values in diagnostics

The form in which a diagnostic shows a value: texts between quotes, the names of the constants with
a capital, and the items of arrays and objects between brackets.
-/
namespace ElementBinding.Json
open ElementBinding.Text

mutual

/-- A value as a diagnostic shows it. -/
def shown : Json → String
  | null => "None"
  | bool value => if value then "True" else "False"
  | integer value => toString value
  | real value => shortest value
  | text value => quoted value
  | array items => "[" ++ ", ".intercalate (shownItems items) ++ "]"
  | object members => "\x7b" ++ ", ".intercalate (shownMembers members) ++ "\x7d"

def shownItems : List Json → List String
  | [] => []
  | item :: rest => shown item :: shownItems rest

def shownMembers : List (String × Json) → List String
  | [] => []
  | (name, value) :: rest => (quoted name ++ ": " ++ shown value) :: shownMembers rest

end

def typeName : Json → String
  | null => "NoneType"
  | bool _ => "bool"
  | integer _ => "int"
  | real _ => "float"
  | text _ => "str"
  | array _ => "list"
  | object _ => "dict"

end ElementBinding.Json
