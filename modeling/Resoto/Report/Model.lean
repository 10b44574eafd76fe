import Resoto.Python.Dict

/-!
# The check model (§4.C, §4.E)

The values the inspector reads and builds: checks, benchmark trees, the results of a run
and the security issues written back to the graph. These classes live in
`resotocore.report`, which is not under src/: they are modelled from the spec (§3), each
with the fields the inspector reads. The context of a run (`CheckContext`) and the
projection of a failing row (`ReportResourceData`) are the inspector's own.
-/

namespace Resoto

/-! ## Checks -/

/-- Modelled from the spec: `ReportSeverity`, ordered by a fixed priority table. -/
inductive ReportSeverity where
  | info
  | low
  | medium
  | high
  | critical
deriving DecidableEq, Repr

/-- Modelled from the spec: `ReportSeverity.prio()`. -/
def ReportSeverity.prio : ReportSeverity → Nat
  | .info => 0
  | .low => 1
  | .medium => 2
  | .high => 3
  | .critical => 4

/-- Modelled from the spec: `Remediation {text, url, …}`. -/
structure Remediation where
  text : String
  url : String
deriving DecidableEq, Repr

/-- Modelled from the spec: `ReportCheck`. `detect` maps `resoto` to a search,
`resoto_cmd` to a command, or `manual` to a flag. -/
structure ReportCheck where
  id : String
  provider : String
  service : String
  title : String
  categories : List String
  resultKinds : List String
  severity : ReportSeverity
  risk : String
  remediation : Remediation
  detect : List (String × Json)
  defaultValues : Option (List (String × Json)) := none
deriving DecidableEq, Repr

/-- `check.detect.get(key)` as the walrus of `__list_failing_resources` tests it: a
non-empty string. A value that is not a string is read as absent. -/
def ReportCheck.detectValue (check : ReportCheck) (key : String) : Option String :=
  match check.detect.lookup key with
  | some (.str s) => if s = "" then none else some s
  | _ => none

/-- Modelled from the spec: `check.environment(overrides)`, the check's default values
overridden by the configured ones. -/
def ReportCheck.environment (check : ReportCheck) (overrides : Option (List (String × Json))) :
    PyDict String Json :=
  (PyDict.ofList (check.defaultValues.getD [])).merge (PyDict.ofList (overrides.getD []))

/-- Modelled from the spec: `ReportConfig`, the checks to ignore and the configured values
of the check variables. -/
structure ReportConfig where
  ignoreChecks : Option (List String) := none
  overrideValues : Option (List (String × Json)) := none

/-- Modelled from the spec: `config.check_allowed(check_id)`: the id is not ignored. -/
def ReportConfig.checkAllowed (config : ReportConfig) (checkId : String) : Bool :=
  !(config.ignoreChecks.getD []).contains checkId

/-! ## The context of a run -/

/-- `CheckContext`. `parallel_checks` bounds the evaluations in flight; it shapes only the
order in which they complete, which the model takes as an argument. -/
structure CheckContext where
  accounts : Option (List String) := none
  severity : Option ReportSeverity := none
  onlyFailed : Bool := false

/-- `context.includes_severity(severity)`. -/
def CheckContext.includesSeverity (context : CheckContext) (severity : ReportSeverity) : Bool :=
  match context.severity with
  | none => true
  | some s => decide (s.prio ≤ severity.prio)

/-- `context.severities_including(severity)`: the comprehension tests `severity`, never
its own `s`, so it returns every severity or none. -/
def CheckContext.severitiesIncluding (context : CheckContext) (severity : ReportSeverity) :
    List ReportSeverity :=
  [.info, .low, .medium, .high, .critical].filter fun _ => context.includesSeverity severity

/-! ## Benchmarks -/

/-- Modelled from the spec: `CheckCollection`, a tree of check ids. -/
structure CheckCollection where
  title : String
  description : String
  documentation : Option String := none
  checks : List String := []
  children : List CheckCollection := []

/-- Modelled from the spec: `Benchmark`, a check collection with an id. -/
structure Benchmark extends CheckCollection where
  id : String
  framework : String
  version : String
  clouds : Option (List String) := none

mutual

/-- Modelled from the spec: `nested_checks()`, the check ids of the whole tree. -/
def CheckCollection.nestedChecks : CheckCollection → List String
  | ⟨_, _, _, checks, children⟩ => checks ++ CheckCollection.nestedChecksOf children
termination_by structural c => c

/-- The check ids of a list of collections. -/
def CheckCollection.nestedChecksOf : List CheckCollection → List String
  | [] => []
  | c :: cs => c.nestedChecks ++ CheckCollection.nestedChecksOf cs
termination_by structural cs => cs

end

/-! ## Results -/

/-- Modelled from the spec: `CheckResult`, the failing resources of one check by account. -/
structure CheckResult where
  check : ReportCheck
  countByAccount : PyDict Json Nat
  resourcesFailingByAccount : PyDict Json (List Json)

/-- Modelled from the spec: `number_of_resources_failing`, `sum` of the counts, a left fold
of `+` from `0`. -/
def CheckResult.numberOfResourcesFailing (result : CheckResult) : Nat :=
  result.countByAccount.values.foldl (· + ·) 0

/-- The failing resources of a check result, account after account. -/
def CheckResult.failingResources (result : CheckResult) : List Json :=
  result.resourcesFailingByAccount.values.flatten

/-- Modelled from the spec: `CheckCollectionResult`, the result tree of a collection. -/
structure CheckCollectionResult where
  title : String
  description : String
  documentation : Option String
  checks : List CheckResult
  children : List CheckCollectionResult

/-- Modelled from the spec: `BenchmarkResult`, the result tree of a benchmark. -/
structure BenchmarkResult extends CheckCollectionResult where
  framework : String
  version : String
  accounts : Option (List String)
  onlyFailed : Bool
  severity : Option ReportSeverity
  id : String

mutual

/-- A result tree with the checks without failure dropped, and the collections left
without a check or a child. -/
def CheckCollectionResult.onlyFailing : CheckCollectionResult → CheckCollectionResult
  | ⟨title, description, documentation, checks, children⟩ =>
    ⟨title, description, documentation, checks.filter (0 < ·.numberOfResourcesFailing),
      CheckCollectionResult.onlyFailingOf children⟩
termination_by structural c => c

/-- The surviving collections of a list. -/
def CheckCollectionResult.onlyFailingOf : List CheckCollectionResult → List CheckCollectionResult
  | [] => []
  | c :: cs =>
    let c' := c.onlyFailing
    if c'.checks.isEmpty ∧ c'.children.isEmpty then CheckCollectionResult.onlyFailingOf cs
    else c' :: CheckCollectionResult.onlyFailingOf cs
termination_by structural cs => cs

end

/-- Modelled from the spec: `filter_result(filter_failed)`. -/
def CheckCollectionResult.filterResult (result : CheckCollectionResult) (filterFailed : Bool) :
    CheckCollectionResult :=
  if filterFailed then result.onlyFailing else result

/-- Modelled from the spec: `SecurityIssue {check, severity, benchmarks}`. -/
structure SecurityIssue where
  check : String
  severity : ReportSeverity
  benchmarks : List String
deriving DecidableEq, Repr

/-! ## Rows -/

/-- Modelled from the spec: `NodePath.ancestor_account_id`. -/
def NodePath.ancestorAccountId : List String := ["ancestors", "account", "reported", "id"]

/-- Modelled from the spec: `NodePath.reported_id`. -/
def NodePath.reportedId : List String := ["reported", "id"]

/-- `ReportResourceData`: each key of the projection with its path in the row. -/
def reportResourceData : List (String × List String) :=
  [("node_id", ["id"]), ("id", ["reported", "id"]), ("name", ["reported", "name"]),
    ("kind", ["reported", "kind"]), ("tags", ["reported", "tags"]),
    ("ctime", ["reported", "ctime"]), ("atime", ["reported", "atime"]),
    ("mtime", ["reported", "mtime"]), ("cloud", ["ancestors", "cloud", "reported", "name"]),
    ("account", ["ancestors", "account", "reported", "name"]),
    ("region", ["ancestors", "region", "reported", "name"]),
    ("zone", ["ancestors", "zone", "reported", "name"])]

/-- Modelled from the spec: `bend(ReportResourceData, row)` (resotolib, not under src/)
reads each path of the row, `null` where it is missing. -/
def bendResourceData (row : Json) : Json :=
  .obj (reportResourceData.map fun (key, path) => (key, (valueInPath row path).getD .null))

end Resoto
