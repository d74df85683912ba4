import ElementBinding.Json.Reader
import ElementBinding.Text.Flag
/-!
# Orders

The body of a request for a pass: a JSON object whose members say what the pass is to do. Every
member that cannot be read is complained of, in the order of the members known here; members that
are not known are ignored.
-/
namespace ElementBinding.Service

structure Order where
  sourceRoot : Option String := none
  outputRoot : Option String := none
  checkOnly : Bool := false
  prune : Bool := true
  exclude : List String := []
deriving DecidableEq

/-- What a part of a body is expected to be. -/
inductive Expectation where
  | present
  | object
  | text
  | list
  | flag
  /-- A word or number that spells a truth value. -/
  | flagWord
  /-- Text in JSON; this is what was expected instead of what stands there. -/
  | readable (instead : String)
deriving DecidableEq

namespace Expectation

def kind : Expectation → String
  | present => "missing"
  | object => "model_attributes_type"
  | text => "string_type"
  | list => "list_type"
  | flag => "bool_type"
  | flagWord => "bool_parsing"
  | readable _ => "json_invalid"

def message : Expectation → String
  | present => "Field required"
  | object => "Input should be a valid dictionary or object to extract fields from"
  | text => "Input should be a valid string"
  | list => "Input should be a valid list"
  | flag => "Input should be a valid boolean"
  | flagWord => "Input should be a valid boolean, unable to interpret input"
  | readable _ => "JSON decode error"

end Expectation

structure Complaint where
  /-- The names and indices that lead to the part. -/
  place : List Json
  expectation : Expectation
  input : Json

def Complaint.toJson (complaint : Complaint) : Json :=
  let about : List (String × Json) := [
    ("type", .text complaint.expectation.kind),
    ("loc", .array (.text "body" :: complaint.place)),
    ("msg", .text complaint.expectation.message),
    ("input", complaint.input)]
  match complaint.expectation with
  | .readable instead => .object (about ++ [("ctx", .object [("error", .text instead)])])
  | _ => .object about

def readText (place : List Json) : Json → Except (List Complaint) String
  | .text text => .ok text
  | input => .error [⟨place, .text, input⟩]

def readText? (place : List Json) : Json → Except (List Complaint) (Option String)
  | .null => .ok none
  | input => (readText place input).map some

/-- Reads a truth value, which may be spelled by a word or by one of the numbers zero and one. -/
def readFlag (place : List Json) (input : Json) : Except (List Complaint) Bool :=
  match input with
  | .bool value => .ok value
  | .text word => spelled (Text.readFlag? word)
  | .integer number => spelled (ofNumber (number = 0) (number = 1))
  | .real number =>
    if number.floor == number && number.isFinite then
      spelled (ofNumber (number == 0.0) (number == 1.0))
    else .error [⟨place, .flag, input⟩]
  | _ => .error [⟨place, .flag, input⟩]
where
  /-- The truth value of a number that may be zero or one. -/
  ofNumber (zero one : Bool) : Option Bool :=
    if zero then some false else if one then some true else none
  /-- A truth value that is spelled, if it is. -/
  spelled : Option Bool → Except (List Complaint) Bool
    | some value => .ok value
    | none => .error [⟨place, .flagWord, input⟩]

/-- Reads two things and gathers the complaints about both. -/
def both (first : Except (List Complaint) α) (second : Except (List Complaint) β) :
    Except (List Complaint) (α × β) :=
  match first, second with
  | .ok a, .ok b => .ok (a, b)
  | .error before, .error after => .error (before ++ after)
  | .error complaints, .ok _ => .error complaints
  | .ok _, .error complaints => .error complaints

def readItems (place : List Json) (index : Nat) : List Json → Except (List Complaint) (List String)
  | [] => .ok []
  | item :: rest =>
    (both (readText (place ++ [.integer index]) item) (readItems place (index + 1) rest)).map
      fun (text, texts) => text :: texts

def readTexts (place : List Json) : Json → Except (List Complaint) (List String)
  | .array items => readItems place 0 items
  | input => .error [⟨place, .list, input⟩]

/-- Reads a member of a body, or takes the default. -/
def readMember (body : Json) (name : String) (default : α)
    (read : List Json → Json → Except (List Complaint) α) : Except (List Complaint) α :=
  match body.member? name with
  | some input => read [.text name] input
  | none => .ok default

namespace Order

def ofJson (body : Json) : Except (List Complaint) Order :=
  match body with
  | .null => .error [⟨[], .present, .null⟩]
  | .object _ =>
    let defaults : Order := {}
    let roots := both (readMember body "source_root" defaults.sourceRoot readText?)
      (readMember body "output_root" defaults.outputRoot readText?)
    let flags := both (readMember body "check_only" defaults.checkOnly readFlag)
      (readMember body "prune" defaults.prune readFlag)
    let exclude := readMember body "exclude" defaults.exclude readTexts
    (both roots (both flags exclude)).map
      fun ((sourceRoot, outputRoot), (checkOnly, prune), exclude) =>
        { sourceRoot, outputRoot, checkOnly, prune, exclude }
  | _ => .error [⟨[], .object, body⟩]

end Order

inductive BodyFault where
  | complaints (complaints : List Complaint)
  /-- A number in it has too many digits. -/
  | tooLong

/-- Reads an order from a body; a byte order mark before it is skipped. -/
def Order.ofBody (body : String) : Except BodyFault Order :=
  let chars := body.toList
  let text := if chars.head? = some (Char.ofNat 0xFEFF) then chars.tail else chars
  let complaints (result : Except (List Complaint) Order) : Except BodyFault Order :=
    result.mapError .complaints
  if chars.isEmpty then complaints (ofJson .null)
  else
    match Json.read text with
    | .ok value => complaints (ofJson value)
    | .error (.malformed expectation position) =>
      .error (.complaints [⟨[.integer position], .readable expectation, .object []⟩])
    | .error .tooLong => .error .tooLong

end ElementBinding.Service
