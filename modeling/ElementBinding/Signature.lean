/-!
# Signatures

The parameters of a constructor, and their text. A binder's constructor must take the instance that
it populates and nothing else.
-/
namespace ElementBinding

/-- How a parameter takes its arguments. -/
inductive ParameterKind where
  | positionalOnly
  | plain
  /-- Takes all positional arguments that are left. -/
  | rest
  | keywordOnly
  /-- Takes all keyword arguments that are left. -/
  | keywords
deriving DecidableEq

/-- A parameter. The type hint and the default value are given as a diagnostic shows them. -/
structure Parameter where
  name : String
  kind : ParameterKind := .plain
  hint : Option String := none
  default : Option String := none
deriving DecidableEq

namespace Parameter

def text (parameter : Parameter) : String :=
  let stars := match parameter.kind with
    | .rest => "*"
    | .keywords => "**"
    | _ => ""
  let described := match parameter.hint, parameter.default with
    | none, none => ""
    | some hint, none => ": " ++ hint
    | none, some default => "=" ++ default
    | some hint, some default => ": " ++ hint ++ " = " ++ default
  stars ++ parameter.name ++ described

/-- The parameter takes one positional argument, and must be given it. -/
def isRequiredPositional (parameter : Parameter) : Bool :=
  (parameter.kind = .positionalOnly || parameter.kind = .plain) && parameter.default.isNone

end Parameter

/-- The parameters of a constructor, after the instance that is constructed. -/
structure Signature where
  parameters : List Parameter := []
deriving DecidableEq

namespace Signature

/-- The texts of parameters with the marks between them. `slash` tells that positional-only ones
came before, and `star` that a mark must come before the next keyword-only one. -/
def pieces (slash star : Bool) : List Parameter → List String
  | [] => if slash then ["/"] else []
  | parameter :: rest =>
    match parameter.kind with
    | .positionalOnly => parameter.text :: pieces true star rest
    | kind =>
      let mark := if star && kind = .keywordOnly then ["*"] else []
      let star := star && kind ≠ .keywordOnly && kind ≠ .rest
      (if slash then ["/"] else []) ++ mark ++ parameter.text :: pieces false star rest

def text (signature : Signature) : String :=
  "(" ++ ", ".intercalate (pieces false true signature.parameters) ++ ")"

/-- The constructor must be given exactly one positional argument, and takes nothing else. -/
def takesInstance (signature : Signature) : Bool :=
  match signature.parameters with
  | [parameter] => parameter.isRequiredPositional
  | _ => false

end Signature

end ElementBinding
