import ElementBinding.Json.Writer
import ElementBinding.Verdict
/-!
# Reports

What a pass reports: every module with its verdict, every owner with its verdict and its unit, the
counts of owners, and the units that are out of date or were deleted. The report has a JSON form
for files and answers.
-/
namespace ElementBinding

structure ReportedFault where
  moduleName : String
  line : Option Int
  message : String
deriving DecidableEq

structure ModuleReport where
  moduleName : String
  path : String
  digest : String
  /-- The module could be read and parsed. -/
  parsed : Bool
  classesScanned : Nat := 0
  judgement : Judgement
  faults : List ReportedFault := []
deriving DecidableEq

structure FieldReport where
  name : String
  type : Option String
  viewId : Int
  line : Nat
deriving DecidableEq

structure OwnerReport where
  owner : String
  binderModule : Option String := none
  binder : Option String := none
  unitPath : Option String := none
  digest : Option String := none
  changed : Bool := false
  fields : List FieldReport := []
  judgement : Judgement
  error : Option String := none
deriving DecidableEq

/-- How many owners there are of each verdict, and how many classes have no fields. -/
structure OwnerCounts where
  total : Nat := 0
  accept : Nat := 0
  warn : Nat := 0
  reject : Nat := 0
  skipped : Nat := 0
deriving DecidableEq

def OwnerCounts.of (owners : List OwnerReport) (skipped : Nat) : OwnerCounts :=
  let count (verdict : Verdict) := owners.countP fun owner => owner.judgement.verdict = verdict
  ⟨owners.length, count .accept, count .warn, count .reject, skipped⟩

/-- How a report names the parser, whose version may be unknown. -/
def parserName (version : Option String) : String :=
  "tree-sitter-python==" ++ version.getD "unknown"

structure Report where
  packageName : String := "viewbind"
  generatorVersion : String := "v0"
  schemaVersion : String := "0.1"
  profileId : String
  parserVersion : String := ""
  sourceRoot : String
  outputRoot : String
  checkOnly : Bool := false
  modules : List ModuleReport := []
  owners : List OwnerReport := []
  counts : OwnerCounts := {}
  staleUnits : List String := []
  prunedUnits : List String := []
deriving DecidableEq

/-- Nothing was rejected, and no check found a unit out of date. -/
def Report.ok (report : Report) : Bool :=
  !(report.modules.any fun module => module.judgement.verdict = .reject) &&
    report.counts.reject = 0 && !(report.checkOnly && !report.staleUnits.isEmpty)

def Field.report (field : Field) : FieldReport :=
  ⟨field.name, field.type, field.viewId, field.line⟩

def Fault.report (fault : Fault) : ReportedFault :=
  ⟨fault.moduleName, fault.line, fault.cause.message⟩

def Json.texts (values : List String) : Json := .array (values.map .text)

namespace Judgement

def members (judgement : Judgement) : List (String × Json) :=
  [("verdict", .text judgement.verdict.text),
    ("reasons", Json.texts (judgement.reasons.map (·.text)))]

end Judgement

def ReportedFault.toJson (fault : ReportedFault) : Json := .object [
  ("module", .text fault.moduleName),
  ("line", match fault.line with
    | some line => .integer line
    | none => .null),
  ("message", .text fault.message)]

def ModuleReport.toJson (report : ModuleReport) : Json := .object <| [
  ("module", .text report.moduleName),
  ("path", .text report.path),
  ("source_hash", .text report.digest),
  ("parse_status", .text (if report.parsed then "OK" else "ERROR")),
  ("classes_scanned", .integer report.classesScanned),
  ("errors", .array (report.faults.map (·.toJson)))] ++ report.judgement.members

/-- The JSON form of a reported field; `number` writes the view identifier. -/
def FieldReport.toJson (number : Int → Json) (field : FieldReport) : Json := .object [
  ("name", .text field.name),
  ("field_type", Json.ofText? field.type),
  ("view_id", number field.viewId),
  ("line", .integer field.line)]

def OwnerReport.toJson (number : Int → Json) (report : OwnerReport) : Json := .object <| [
  ("owner", .text report.owner),
  ("binder_module", Json.ofText? report.binderModule),
  ("binder", Json.ofText? report.binder),
  ("unit_path", Json.ofText? report.unitPath),
  ("content_hash", Json.ofText? report.digest),
  ("changed", .bool report.changed),
  ("fields", .array (report.fields.map (·.toJson number))),
  ("error", Json.ofText? report.error)] ++ report.judgement.members

def OwnerCounts.toJson (counts : OwnerCounts) : Json := .object [
  ("total", .integer counts.total),
  ("accept", .integer counts.accept),
  ("warn", .integer counts.warn),
  ("reject", .integer counts.reject),
  ("skipped", .integer counts.skipped)]

/-- The members of the JSON form of a report; `number` writes view identifiers. -/
def Report.members (number : Int → Json) (report : Report) : List (String × Json) := [
  ("package_name", .text report.packageName),
  ("generator_version", .text report.generatorVersion),
  ("schema_version", .text report.schemaVersion),
  ("profile_id", .text report.profileId),
  ("parser_version", .text report.parserVersion),
  ("source_root", .text report.sourceRoot),
  ("output_root", .text report.outputRoot),
  ("check_only", .bool report.checkOnly),
  ("modules", .array (report.modules.map (·.toJson))),
  ("owners", .array (report.owners.map (·.toJson number))),
  ("owner_counts", report.counts.toJson),
  ("stale_units", Json.texts report.staleUnits),
  ("pruned_units", Json.texts report.prunedUnits)]

/-- The text of the file a report is written to, unless an identifier is too long to be written. -/
def Report.fileText? (report : Report) : Option String := do
  return (← (Json.object (report.members .integer)).pretty? 0) ++ "\n"

end ElementBinding
