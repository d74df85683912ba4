import ElementBinding.Json.Shown
import ElementBinding.Text.Integer
import ElementBinding.Text.Shortest
/-!
# Bindings

The pairs of a field and a view identifier with which a binder is registered. They are read from a
value of pairs whose second parts may be anything that stands for an integer.
-/
namespace ElementBinding
open ElementBinding.Text

inductive BindingFault where
  | notIterable (type : String)
  | notPair (type : String)
  | tooFew (count : Nat)
  | tooMany
  | notNumber (type : String)
  | notInteger (text : String)
  | tooLong (digits : Nat)
  | notNumeric
  | infinite
deriving DecidableEq

namespace BindingFault

def kind : BindingFault → String
  | notIterable _ => "TypeError"
  | notPair _ => "TypeError"
  | notNumber _ => "TypeError"
  | infinite => "OverflowError"
  | _ => "ValueError"

/-- The message of a fault. A text is shown up to 200 characters. -/
def message : BindingFault → String
  | notIterable type => quoted type ++ " object is not iterable"
  | notPair type => "cannot unpack non-iterable " ++ type ++ " object"
  | tooFew count => "not enough values to unpack (expected 2, got " ++ toString count ++ ")"
  | tooMany => "too many values to unpack (expected 2)"
  | notNumber type =>
    "int() argument must be a string, a bytes-like object or a real number, not " ++ quoted type
  | notInteger text =>
    "invalid literal for int() with base 10: " ++ String.ofList ((quoted text).toList.take 200)
  | tooLong digits =>
    "Exceeds the limit (4300 digits) for integer string conversion: value has " ++
      toString digits ++ " digits; use sys.set_int_max_str_digits() to increase the limit"
  | notNumeric => "cannot convert float NaN to integer"
  | infinite => "cannot convert float infinity to integer"

end BindingFault

/-- The values that a value consists of: items, names of members, or characters. -/
def Json.parts? : Json → Option (List Json)
  | .array items => some items
  | .object members => some (members.map fun (name, _) => .text name)
  | .text word => some (word.toList.map fun c => .text (String.ofList [c]))
  | _ => none

/-- A finite double without what stands behind its point. -/
def truncated (bits : Nat) : Int :=
  let binary := Binary.ofBits bits
  let magnitude : Int := (Ratio.binary binary.mantissa binary.exponent).floorOver 0
  if binary.negative then -magnitude else magnitude

def Json.toInteger : Json → Except BindingFault Int
  | .integer value => .ok value
  | .bool value => .ok (if value then 1 else 0)
  | .real value =>
    if value.isNaN then .error .notNumeric
    else if value.isInf then .error .infinite
    else .ok (truncated value.toBits.toNat)
  | .text word =>
    match readInteger word with
    | .ok value => .ok value
    | .error .malformed => .error (.notInteger word)
    | .error (.tooLong digits) => .error (.tooLong digits)
  | value => .error (.notNumber value.typeName)

def Json.toText : Json → String
  | .text word => word
  | value => value.shown

def readBinding (value : Json) : Except BindingFault (String × Int) :=
  match value.parts? with
  | none => .error (.notPair value.typeName)
  | some [name, viewId] => do return (name.toText, ← viewId.toInteger)
  | some parts => .error (if parts.length < 2 then .tooFew parts.length else .tooMany)

def readBindings (value : Json) : Except BindingFault (List (String × Int)) :=
  match value.parts? with
  | none => .error (.notIterable value.typeName)
  | some values => values.mapM readBinding

end ElementBinding
