import ElementBinding.Pass
import ElementBinding.Service.Order
import ElementBinding.Settings
/-!
# The service

Answers requests for passes over a tree. A request is answered by its path and its method; slashes
at the end of a path do not matter.
-/
namespace ElementBinding.Service

structure Query where
  method : String
  path : String
  body : String := ""
deriving DecidableEq

/-- What an answer carries. -/
inductive Content where
  | json (value : Json)
  | text (value : String)

structure Response where
  status : Nat
  content : Content

def healthPath : String := "/health"

def generatePath : String := "/viewbind/generate"

mutual

/-- All numbers in a value are finite. -/
def isFinite : Json → Bool
  | .real value => value.isFinite
  | .array items => allFinite items
  | .object members => membersFinite members
  | _ => true

/-- All numbers in the items of an array are finite. -/
def allFinite : List Json → Bool
  | [] => true
  | item :: rest => isFinite item && allFinite rest

/-- All numbers in the members of an object are finite. -/
def membersFinite : List (String × Json) → Bool
  | [] => true
  | (_, value) :: rest => isFinite value && membersFinite rest

end

namespace Response

/-- The answer when something goes wrong in the service itself. -/
def failure : Response := ⟨500, .text "Internal Server Error"⟩

/-- An answer in JSON, which has no form for numbers that are not finite. -/
def ofJson (status : Nat) (value : Json) : Response :=
  if isFinite value then ⟨status, .json value⟩ else failure

def because (status : Nat) (reason : Json) : Response :=
  ofJson status (.object [("detail", reason)])

end Response

def ownerResult (owner : OwnerReport) : Json := .object <| [
  ("owner", .text owner.owner),
  ("binder", Json.ofText? owner.binder),
  ("unit_path", Json.ofText? owner.unitPath),
  ("field_count", .integer owner.fields.length),
  ("error", Json.ofText? owner.error)] ++ owner.judgement.members

def passResult (report : Report) : Json := .object [
  ("package_name", .text report.packageName),
  ("generator_version", .text report.generatorVersion),
  ("schema_version", .text report.schemaVersion),
  ("profile_id", .text report.profileId),
  ("ok", .bool report.ok),
  ("modules_scanned", .integer report.modules.length),
  ("accept_count", .integer report.counts.accept),
  ("warn_count", .integer report.counts.warn),
  ("reject_count", .integer report.counts.reject),
  ("skipped_count", .integer report.counts.skipped),
  ("stale_units", Json.texts report.staleUnits),
  ("pruned_units", Json.texts report.prunedUnits),
  ("results", .array (report.owners.map ownerResult))]

/-- A text, if it is not empty. -/
def nonEmpty? (text : Option String) : Option String := text.filter (· ≠ "")

/-- The request that an order and settings make. An empty root counts as none. -/
def Order.request (order : Order) (settings : Settings) : Request where
  sourceRoot := .ofText ((nonEmpty? order.sourceRoot).getD settings.sourceRoot)
  outputRoot := (nonEmpty? (nonEmpty? order.outputRoot <|> settings.outputRoot)).map .ofText
  checkOnly := order.checkOnly
  prune := order.prune
  exclude := order.exclude
  parserVersion := settings.parserVersion

def Order.run (order : Order) (settings : Settings) (tree : FileTree) : FileTree × Response :=
  let request := order.request settings
  if tree.isDirectory request.sourceRoot then
    let outcome := request.run tree
    (outcome.tree,
      match outcome.result with
      | .ok report => .ofJson 200 (passResult report)
      | .error _ => .failure)
  else
    (tree, .because 404 (.text ("Source root not found: " ++ request.sourceRoot.text)))

def generate (settings : Settings) (body : String) (tree : FileTree) : FileTree × Response :=
  match Order.ofBody body with
  | .ok order => order.run settings tree
  | .error (.complaints complaints) =>
    (tree, .because 422 (.array (complaints.map (·.toJson))))
  | .error .tooLong => (tree, .because 400 (.text "There was an error parsing the body"))

def health (settings : Settings) : Response :=
  .ofJson 200 (.object [("status", .text "healthy"), ("service", .text "viewbind-api"),
    ("version", .text settings.version)])

/-- A path without a question behind it and without slashes at its end. -/
def plainPath (path : String) : String :=
  let chars := path.toList.takeWhile fun c => c ≠ '?' && c ≠ '#'
  String.ofList (chars.reverse.dropWhile (· = '/')).reverse

/-- The answer by path and method. -/
def route (settings : Settings) (method path body : String) (tree : FileTree) :
    FileTree × Response :=
  let refused : Response := .because 405 (.text "Method Not Allowed")
  if path = healthPath then (tree, if method = "GET" then health settings else refused)
  else if path = generatePath then
    if method = "POST" then generate settings body tree else (tree, refused)
  else (tree, .because 404 (.text "Not Found"))

/-- Answers a request. A request for the head of an answer alone gets no content. -/
def answer (settings : Settings) (query : Query) (tree : FileTree) : FileTree × Response :=
  let method := String.ofList (query.method.toList.map (·.toUpper))
  let (tree, response) := route settings method (plainPath query.path) query.body tree
  (tree, if method = "HEAD" then { response with content := .text "" } else response)

end ElementBinding.Service
