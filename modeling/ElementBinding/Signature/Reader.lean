import ElementBinding.Signature
import ElementBinding.Signature.Value
/-!
# Reading signatures

Reads the parameters of a constructor from their source text, without the instance that is
constructed.
-/
namespace ElementBinding.Signature
open ElementBinding.Signature.Value

/-- What stands behind a mark, as `form` shows it. -/
def described (mark : Char) (form : Value → String) (input : List Char) :
    Option (Option String × List Char) :=
  match skip input with
  | c :: rest =>
    if c = mark then (Value.read rest).map fun (value, left) => (some (form value), left)
    else some (none, input)
  | [] => some (none, [])

/-- A parameter of some kind, from its name on. -/
def readParameter (kind : ParameterKind) (input : List Char) : Option (Parameter × List Char) := do
  let start := skip input
  let name := start.takeWhile isNameChar
  if name = [] then none
  let (hint, left) ← described ':' Value.hint (start.drop name.length)
  let (default, left) ← described '=' Value.shown left
  return ({ name := String.ofList name, kind, hint, default }, left)

/-- The parameters as they are when a slash follows them. -/
def beforeSlash (parameters : List Parameter) : List Parameter :=
  parameters.map fun parameter => { parameter with kind := .positionalOnly }

/-- Reads an item of a list of parameters, and what kind the next ones are of. -/
def readPart (parameters : List Parameter) (kind : ParameterKind) (input : List Char) :
    Option ((List Parameter × ParameterKind) × List Char) :=
  let added (next : ParameterKind) (read : Option (Parameter × List Char)) :=
    read.map fun (parameter, left) => ((parameters ++ [parameter], next), left)
  match input with
  | '/' :: left => some ((beforeSlash parameters, kind), left)
  | '*' :: '*' :: rest => added kind (readParameter .keywords rest)
  | '*' :: rest =>
    match skip rest with
    | ',' :: left => some ((parameters, .keywordOnly), ',' :: left)
    | start => added .keywordOnly (readParameter .rest start)
  | _ => added kind (readParameter kind input)

/-- Reads a list of parameters behind those that have been read. -/
def readParts (parameters : List Parameter) (kind : ParameterKind) :
    (fuel : Nat) → List Char → Option (List Parameter)
  | 0, _ => none
  | fuel + 1, input =>
    match skip input with
    | [] => some parameters
    | start => do
      let ((parameters, kind), left) ← readPart parameters kind start
      match skip left with
      | ',' :: left => readParts parameters kind fuel left
      | [] => some parameters
      | _ => none

def read? (text : String) : Option Signature :=
  (readParts [] .plain (text.length + 1) text.toList).map fun parameters => ⟨parameters⟩

end ElementBinding.Signature
