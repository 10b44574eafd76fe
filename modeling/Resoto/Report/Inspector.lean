import Resoto.Report.Model
import Resoto.Query.Builder

/-!
# The inspector (§4.D, §4.E): `InspectorService`

`InspectorService` performs the checks of a benchmark against a graph and assembles the
result trees. Its collaborators are fields of the structure: the predefined tables, the
check and benchmark stores, the template expander, the graph's `search_list`, the CLI and
the security-section write, each as the function of its input that the service sees
during one call. A private method `__m` of the class is `mAux` here.

The evaluations of the checks run concurrently (`pipe.map(…, ordered=False)`); they read
the graph and write nothing, so each one's result is a function of its check. What the
scheduler decides is the order in which they complete: `performChecksAux` takes it as a
list, and `performBenchmarks` takes a `schedule` that gives it for its list of checks.

Left out: the graph name and its model (`load_model`), the analytics event of
`perform_checks`, and the run id of the security-section write.
-/

namespace Resoto

/-- `checks_from_file()`: `result[check.id] = check` for the checks of each check collection
of the files in turn. -/
def checksFromFile (collections : List (List ReportCheck)) : PyDict String ReportCheck :=
  collections.foldl (fun result checks =>
    checks.foldl (fun result check => result.insert check.id check) result) ∅

/-! ## The rules of `__validate_check` -/

/-- `check.default_values or {}`. -/
def ReportCheck.defaultEnv (check : ReportCheck) : PyDict String Json :=
  PyDict.ofList (check.defaultValues.getD [])

/-- `check.detect.get("manual")` as a condition: present and truthy. -/
def ReportCheck.manual (check : ReportCheck) : Bool :=
  (check.detect.lookup "manual").any Json.truthy

/-- `getattr(check, prop, None)` for the props `__validate_check` requires, as truthiness: a
string is truthy when it is not empty, a `ReportSeverity` member always. -/
def ReportCheck.requiredProps (check : ReportCheck) : List (String × Bool) :=
  [("id", check.id != ""), ("title", check.title != ""), ("risk", check.risk != ""),
    ("severity", true)]

/-- The rules `__validate_check` checks after the detection, for the detection string
`detect`: each violated one with its message, in the order of the source. -/
def ReportCheck.ruleErrors (check : ReportCheck) (detect : String) : List String :=
  (if check.resultKinds.isEmpty then ["Check " ++ check.id ++ " does not define any result kind"]
    else []) ++
  (check.resultKinds.filter fun rk => !strContains detect rk).map
    (fun rk => "Check " ++ check.id ++ " does not detect result kind " ++ rk) ++
  (if check.remediation.text = "" then
    ["Check " ++ check.id ++ " does not define any remediation text"] else []) ++
  (if check.remediation.url = "" then
    ["Check " ++ check.id ++ " does not define any remediation url"] else []) ++
  (check.requiredProps.filter fun prop => !prop.2).map
    (fun prop => "Check " ++ check.id ++ " does not define prop " ++ prop.1)

/-- `SingleCheckResult`: the failing resources of one check by account id. -/
abbrev SingleCheckResult := PyDict Json (List Json)

/-- The collaborators of `InspectorService`. -/
structure InspectorService where
  /-- `checks_from_file()`. -/
  checksFromFile : PyDict String ReportCheck
  /-- The checks `report_check_db.all()` streams. -/
  checkDb : List ReportCheck
  /-- `benchmarks_from_file()`. -/
  benchmarksFromFile : PyDict String Benchmark
  /-- `benchmark_db.get(bid)`. -/
  benchmarkDb : String → Option Benchmark
  /-- The stored report configuration as `get_config` and `from_js` read it, or what they
  raise. -/
  storedReportConfig : Except PyError (Option ReportConfig)
  /-- `template_expander.parse_query(source, on_section, env)`. -/
  parseQuery : String → String → PyDict String Json → Except PyError Query
  /-- `search_list(QueryModel(query, model))`: the rows its cursor yields, and what it
  raises after them, if anything. -/
  searchList : Query → List Json × Option PyError
  /-- `cli.execute_cli_command(cmd, list_sink, CLIContext(env=env))`. -/
  executeCliCommand : String → PyDict String Json → Except PyError (List (List Json))
  /-- `cli.evaluate_cli_command(cmd, CLIContext(env=env))`: the parse of a command, or what
  it raises. -/
  evaluateCliCommand : String → PyDict String Json → Except PyError Unit
  /-- `update_security_section(run_id, iterator, model, accounts)`. -/
  updateSecuritySection : List (Json × List SecurityIssue) → Option (List String) →
    Except PyError Unit

namespace InspectorService

variable (svc : InspectorService)

/-! ## Configuration, benchmarks and checks -/

/-- `report_config()`: the stored configuration, the default one when there is none or
loading it raises. -/
def reportConfig : ReportConfig :=
  match svc.storedReportConfig with
  | .ok (some config) => config
  | _ => {}

/-- `benchmark(bid)`: the stored benchmark, else the predefined one. -/
def benchmark (bid : String) : Option Benchmark :=
  (svc.benchmarkDb bid).or (svc.benchmarksFromFile.get? bid)

/-- `__benchmarks(names)`. -/
def benchmarksAux (names : List String) : PyDict String Benchmark :=
  names.foldl (fun result name =>
    match svc.benchmark name with
    | some b => result.insert name b
    | none => result) ∅

/-- `filter_checks(report_filter)`: the predefined checks that pass the filter, each one
dropped, or replaced, by a stored check of its id. -/
def filterChecks (reportFilter : Option (ReportCheck → Bool)) : List ReportCheck :=
  let passes (c : ReportCheck) : Bool := reportFilter.all fun f => f c
  let result := PyDict.ofList ((svc.checksFromFile.values.filter passes).map fun c => (c.id, c))
  (svc.checkDb.foldl (fun result c =>
    let result := result.erase c.id
    if passes c then result.insert c.id c else result) result).values

/-- The keyword arguments of `list_checks`. -/
structure ListChecksArgs where
  provider : Option String := none
  service : Option String := none
  category : Option String := none
  kind : Option String := none
  checkIds : Option (List String) := none
  context : Option CheckContext := none
  ignoreChecks : Option (List String) := none

/-- `inspection_matches(inspection)` of `list_checks`. -/
def ListChecksArgs.inspectionMatches (args : ListChecksArgs) (inspection : ReportCheck) : Bool :=
  args.provider.all (· == inspection.provider) && args.service.all (· == inspection.service) &&
    args.category.all inspection.categories.contains &&
    args.kind.all inspection.resultKinds.contains &&
    args.checkIds.all (·.contains inspection.id) &&
    args.context.all (·.includesSeverity inspection.severity) &&
    args.ignoreChecks.all fun ids => !ids.contains inspection.id

/-- `list_checks(…)`. -/
def listChecks (args : ListChecksArgs) : List ReportCheck :=
  svc.filterChecks (some args.inspectionMatches)

/-! ## Evaluating one check -/

/-- `account_id_prop`. -/
def accountIdProp : String := "ancestors.account.reported.id"

/-- `perform_search(search)`: parsing the search and adding the account filter are outside
the `try`; the search is inside it, which logs what its cursor raises and keeps the rows
yielded before. -/
def performSearch (env : PyDict String Json) (context : CheckContext) (search : String) :
    Except PyError (List Json) := do
  let query ← svc.parseQuery search "reported" env
  let query ← match context.accounts with
    | some (a :: as) =>
      (Query.«by» (.term ((P.single accountIdProp).isIn ((a :: as).map .str)))).combine query
    | _ => pure query
  pure (svc.searchList query).1

/-- `perform_cmd(cmd)`: the command runs outside the `try`, which guards only the read of
its first result list (`cli_result[0]`, empty when there is none). -/
def performCmd (env : PyDict String Json) (context : CheckContext) (cmd : String) :
    Except PyError (List Json) := do
  let cmd := match context.accounts with
    | some (a :: as) =>
      "search /" ++ accountIdProp ++ " in [" ++
        ",".intercalate ((a :: as).map fun a => "\"" ++ a ++ "\"") ++ "] | " ++ cmd
    | _ => cmd
  let cliResult ← svc.executeCliCommand cmd env
  pure (cliResult.headD [])

/-- `__list_failing_resources(graph, model, inspection, config, context)`: the rows the
returned stream yields, or what its iteration raises. -/
def listFailingResourcesAux (inspection : ReportCheck) (config : ReportConfig)
    (context : CheckContext) : Except PyError (List Json) :=
  let env := inspection.environment config.overrideValues
  match inspection.detectValue "resoto", inspection.detectValue "resoto_cmd" with
  | some search, _ => svc.performSearch env context search
  | none, some cmd => svc.performCmd env context cmd
  | none, none => pure []

/-- `list_failing_resources(graph, check_uid, account_ids)`. -/
def listFailingResources (checkUid : String) (accountIds : Option (List String) := none) :
    Except PyError (List Json) :=
  let context : CheckContext := { accounts := accountIds }
  match svc.listChecks { checkIds := some [checkUid], context := some context } with
  | [] => .error (.notFoundError ("Check " ++ checkUid ++ " not found"))
  | inspection :: _ => svc.listFailingResourcesAux inspection svc.reportConfig context

/-- The loop of `__perform_check`: each row with a truthy account id, projected, appended
under that id. -/
def groupByAccount (rows : List Json) : SingleCheckResult :=
  rows.foldl (fun resourcesByAccount resource =>
    match valueInPath resource NodePath.ancestorAccountId with
    | some accountId =>
      if accountId.truthy then resourcesByAccount.appendAt accountId (bendResourceData resource)
      else resourcesByAccount
    | none => resourcesByAccount) ∅

/-- `__perform_check(graph, model, inspection, config, context)`. -/
def performCheck (inspection : ReportCheck) (config : ReportConfig) (context : CheckContext) :
    Except PyError SingleCheckResult := do
  let rows ← svc.listFailingResourcesAux inspection config context
  pure (groupByAccount rows)

/-- One completed evaluation of `__perform_checks`: its `(check.id, result)` pair enters
the dict, or what it raises ends the stream. -/
def performChecksStep (context : CheckContext) (config : ReportConfig)
    (results : PyDict String SingleCheckResult) (check : ReportCheck) :
    Except PyError (PyDict String SingleCheckResult) := do
  let result ← svc.performCheck check config context
  pure (results.insert check.id result)

/-- `__perform_checks(graph, checks, context, config)` when the evaluations complete in the
order `completed`: the dict comprehension over the stream of their pairs. -/
def performChecksAux (context : CheckContext) (config : ReportConfig)
    (completed : List ReportCheck) : Except PyError (PyDict String SingleCheckResult) :=
  completed.foldlM (svc.performChecksStep context config) ∅

@[simp] theorem performChecksStep_eq_ok {context : CheckContext} {config : ReportConfig}
    {results results' : PyDict String SingleCheckResult} {check : ReportCheck} :
    svc.performChecksStep context config results check = .ok results' ↔
      ∃ r, svc.performCheck check config context = .ok r ∧ results' = results.insert check.id r := by
  rw [performChecksStep, Except.bind_eq_ok]
  exact exists_congr fun r => and_congr_right fun _ => Except.pure_eq_ok.trans eq_comm

/-! ## Assembling the result tree -/

/-- The check results of `to_result(cc)`: one for each listed id of a known check. -/
def checkResults (checkById : PyDict String ReportCheck)
    (results : PyDict String SingleCheckResult) (cids : List String) : List CheckResult :=
  cids.filterMap fun cid => (checkById.get? cid).map fun check =>
    let result := (results.get? cid).getD ∅
    ⟨check, result.mapValues List.length, result⟩

mutual

/-- `to_result(cc)` of `__to_result`. -/
def toResult (checkById : PyDict String ReportCheck) (results : PyDict String SingleCheckResult) :
    CheckCollection → CheckCollectionResult
  | ⟨title, description, documentation, checks, children⟩ =>
    ⟨title, description, documentation, checkResults checkById results checks,
      toResultOf checkById results children⟩
termination_by structural cc => cc

/-- `[to_result(c) for c in children]`. -/
def toResultOf (checkById : PyDict String ReportCheck) (results : PyDict String SingleCheckResult) :
    List CheckCollection → List CheckCollectionResult
  | [] => []
  | c :: cs => toResult checkById results c :: toResultOf checkById results cs
termination_by structural cs => cs

end

/-- `__to_result(benchmark, check_by_id, results, context)`. -/
def toResultAux (benchmark : Benchmark) (checkById : PyDict String ReportCheck)
    (results : PyDict String SingleCheckResult) (context : CheckContext) : BenchmarkResult :=
  let top := (toResult checkById results benchmark.toCheckCollection).filterResult context.onlyFailed
  { title := benchmark.title, description := benchmark.description
    framework := benchmark.framework, version := benchmark.version
    documentation := benchmark.documentation, checks := top.checks, children := top.children
    accounts := context.accounts, onlyFailed := context.onlyFailed
    severity := context.severity, id := benchmark.id }

/-! ## The security section -/

/-- `resource["node_id"]`; a resource that is no object has no `node_id` either. -/
def nodeIdOf (resource : Json) : Except PyError Json :=
  match resource.get? "node_id" with
  | some nodeId => .ok nodeId
  | none => .error (.keyError "node_id")

/-- `node_result[resource["node_id"]].append(context)` for an entry `(resource, context)`. -/
def appendNode (nodeResult : PyDict Json (List (BenchmarkResult × CheckResult)))
    (entry : Json × (BenchmarkResult × CheckResult)) :
    Except PyError (PyDict Json (List (BenchmarkResult × CheckResult))) := do
  let nodeId ← nodeIdOf entry.1
  pure (nodeResult.appendAt nodeId entry.2)

mutual

/-- `walk_collection(collection, parent)` on `node_result`. -/
def walkCollection (parent : BenchmarkResult)
    (nodeResult : PyDict Json (List (BenchmarkResult × CheckResult))) :
    CheckCollectionResult → Except PyError (PyDict Json (List (BenchmarkResult × CheckResult)))
  | ⟨_, _, _, checks, children⟩ => do
    let nodeResult ← checks.foldlM (fun nodeResult check =>
      -- the two inner loops, over the resources of each account in turn
      check.failingResources.foldlM
        (fun nodeResult resource => appendNode nodeResult (resource, (parent, check))) nodeResult)
      nodeResult
    walkCollectionOf parent nodeResult children
termination_by structural c => c

/-- `for child in collection.children: walk_collection(child, parent)`. -/
def walkCollectionOf (parent : BenchmarkResult)
    (nodeResult : PyDict Json (List (BenchmarkResult × CheckResult))) :
    List CheckCollectionResult → Except PyError (PyDict Json (List (BenchmarkResult × CheckResult)))
  | [] => pure nodeResult
  | c :: cs => do
    let nodeResult ← walkCollection parent nodeResult c
    walkCollectionOf parent nodeResult cs
termination_by structural cs => cs

end

/-- The issue `iterate_nodes` makes of one context of a node. -/
def securityIssue (context : BenchmarkResult × CheckResult) : SecurityIssue :=
  ⟨context.2.check.id, context.2.check.severity, [context.1.id]⟩

/-- `__benchmarks_to_security_iterator(results)`: the `(node_id, issues)` pairs the returned
iterator yields. `node_result` is built before the iterator is returned, so a resource
without a `node_id` raises in the call. -/
def benchmarksToSecurityIteratorAux (results : PyDict String BenchmarkResult) :
    Except PyError (List (Json × List SecurityIssue)) := do
  let nodeResult ← results.values.foldlM
    (fun nodeResult result => walkCollection result nodeResult result.toCheckCollectionResult) ∅
  pure (nodeResult.items.map fun (nodeId, contexts) => (nodeId, contexts.map securityIssue))

/-! ## Validating a check -/

/-- `__validate_check(check)`. The `try` ends at the first exception, of the template
expander or of the CLI, with its one message, and a manual check returns before any rule:
only after a detection that goes through are the other rules all checked. -/
def validateCheck (check : ReportCheck) : List String :=
  let invalid (e : PyError) : List String := ["Check " ++ check.id ++ " is invalid: " ++ e.str]
  match check.detectValue "resoto", check.detectValue "resoto_cmd" with
  | some search, _ =>
    match svc.parseQuery search "reported" check.defaultEnv with
    | .ok _ => check.ruleErrors search
    | .error e => invalid e
  | none, some cmd =>
    match svc.evaluateCliCommand cmd check.defaultEnv with
    | .ok _ => check.ruleErrors cmd
    | .error e => invalid e
  | none, none =>
    if check.manual then []
    else ("Check " ++ check.id ++ " neither has a resoto, resoto_cmd or manual defined") ::
      check.ruleErrors ""

/-! ## The entry points -/

/-- `perform_benchmarks(graph, benchmark_names, …)`, the checks completing in the order
`schedule` gives them. -/
def performBenchmarks (schedule : List ReportCheck → List ReportCheck)
    (benchmarkNames : List String) (accounts : Option (List String) := none)
    (severity : Option ReportSeverity := none) (onlyFailing : Bool := false)
    (syncSecuritySection : Bool := false) : Except PyError (PyDict String BenchmarkResult) := do
  let context : CheckContext := { accounts := accounts, severity := severity, onlyFailed := onlyFailing }
  let config := svc.reportConfig
  let benchmarks := svc.benchmarksAux benchmarkNames
  let checkIds := (benchmarks.values.flatMap fun b => b.nestedChecks.filter config.checkAllowed).eraseDups
  let checks := svc.listChecks { checkIds := some checkIds, context := some context }
  let checkLookup := PyDict.ofList (checks.map fun c => (c.id, c))
  let results ← svc.performChecksAux context config (schedule checks)
  let result := PyDict.ofList (benchmarks.items.map fun (name, b) =>
    (name, toResultAux b checkLookup results context))
  if syncSecuritySection then
    let issues ← benchmarksToSecurityIteratorAux result
    svc.updateSecuritySection issues accounts
  pure result

/-- `__list_accounts(benchmark, graph)`: the reported ids of the accounts, in the
benchmark's clouds if it names any. The cursor is read outside any `try`. Account ids are
strings in the graph; a value that is not one is dropped with the missing ones. -/
def listAccountsAux (benchmark : Benchmark) : Except PyError (List String) := do
  let query := Query.«by» (.kind "account")
  let query ← match benchmark.clouds with
    | some (c :: cs) =>
      query.combine (Query.«by» (.term ((P.single "ancestors.cloud.reported.id").isIn ((c :: cs).map .str))))
    | _ => pure query
  match svc.searchList query with
  | (_, some e) => .error e
  | (rows, none) => pure (rows.filterMap fun a =>
      match valueInPath a NodePath.reportedId with
      | some (.str aid) => some aid
      | _ => none)

/-- `f"{name}_" if name else ""` of `perform_checks`. -/
def titlePart (name : Option String) : String :=
  if truthyStr name then name.getD "" ++ "_" else ""

/-- `perform_checks(graph, …)`: an on-demand benchmark of the matching checks, run on the
given accounts or else on every account of the graph. -/
def performChecks (schedule : List ReportCheck → List ReportCheck)
    (provider service category kind : Option String := none)
    (checkIds : Option (List String) := none) (accounts : Option (List String) := none)
    (severity : Option ReportSeverity := none) (onlyFailing : Bool := false) :
    Except PyError BenchmarkResult := do
  let context : CheckContext := { accounts := accounts, severity := severity, onlyFailed := onlyFailing }
  let config := svc.reportConfig
  let checks := svc.listChecks
    { provider := provider, service := service, category := category, kind := kind
      checkIds := checkIds, context := some context, ignoreChecks := config.ignoreChecks }
  let checkIdName := match checkIds with
    | some (c :: _) => c ++ "_"
    | _ => ""
  let title := titlePart provider ++ titlePart service ++ titlePart category ++ titlePart kind ++
    checkIdName ++ "benchmark"
  let benchmark : Benchmark :=
    { id := title, title := title, description := "On demand benchmark"
      documentation := some "On demand benchmark", framework := "resoto", version := "1.0"
      checks := checks.map (·.id), children := [] }
  let context ← match context.accounts with
    | none => do
      let accounts ← svc.listAccountsAux benchmark
      pure { context with accounts := some accounts }
    | some _ => pure context
  let checksToPerform := svc.listChecks { checkIds := some benchmark.nestedChecks, context := some context }
  let checkById := PyDict.ofList (checksToPerform.map fun c => (c.id, c))
  let results ← svc.performChecksAux context config (schedule checksToPerform)
  pure (toResultAux benchmark checkById results context)

end InspectorService

end Resoto
