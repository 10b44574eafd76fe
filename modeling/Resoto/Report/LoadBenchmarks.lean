import Resoto.Report.ResultTree

/-!
# Loading the results of benchmarks from the security sections

`load_benchmarks` rebuilds the results of benchmarks from one search: each issue of a node
with a truthy account id that names a truthy check adds the node's projection under that
check and account (`loadCheckResults`). The two dict subscripts hash their keys as Python
does: `True` is the key `1`, and a list or a dict raises `TypeError` (`pyHash`).
`loadCheckResults_spec` says when the loop returns and what it then holds.
-/

namespace Resoto

/-- Modelled from the spec: `NodePath.security_issues`, the issues field of a node. -/
def NodePath.securityIssues : List String := ["security", "issues"]

/-- Modelled from the spec: `value_in_path_get(js, path, [])` (core.util, not under src/):
the list at the path, `[]` when there is none or the value there is no list. -/
def valueInPathList (js : Json) (path : List String) : List Json :=
  match valueInPath js path with
  | some (.arr xs) => xs
  | _ => []

/-- `type(js).__name__` of a JSON value. -/
def Json.pyTypeName : Json → String
  | .null => "NoneType"
  | .bool _ => "bool"
  | .num _ => "int"
  | .str _ => "str"
  | .arr _ => "list"
  | .obj _ => "dict"

/-- Whether a JSON value is a dict. -/
def Json.isObj : Json → Bool
  | .obj _ => true
  | _ => false

/-- `issue.get("check")`: the check an issue names. A value that is no dict has no `get`. -/
def issueCheck (issue : Json) : Except PyError (Option Json) :=
  match issue with
  | .obj kvs => pure (kvs.lookup "check")
  | other => .error (.attributeError
      ("\x27" ++ other.pyTypeName ++ "\x27 object has no attribute \x27get\x27"))

/-- Whether Python can hash a JSON value: a list or a dict it cannot. -/
def Json.hashable : Json → Bool
  | .arr _ | .obj _ => false
  | _ => true

/-- The key a dict keeps a JSON value under: Python's `True == 1` and `False == 0` hash alike. -/
def Json.hashKey : Json → Json
  | .bool b => .num (if b then 1 else 0)
  | j => j

/-- `d[key]` hashes `key` first. -/
def pyHash (key : Json) : Except PyError Json :=
  match key with
  | .arr _ => .error (.typeError "unhashable type: \x27list\x27")
  | .obj _ => .error (.typeError "unhashable type: \x27dict\x27")
  | key => .ok key.hashKey

theorem pyHash_of_hashable {key : Json} (h : key.hashable = true) : pyHash key = .ok key.hashKey := by
  cases key <;> first | rfl | cases h

theorem pyHash_ne_ok {key : Json} (h : key.hashable = false) (t : Json) : pyHash key ≠ .ok t := by
  cases key with
  | arr _ | obj _ => exact fun h => nomatch h
  | _ => cases h

namespace InspectorService

/-- `check_results[check][account_id].append(mapped)`, on a `defaultdict` of
`defaultdict(list)`s, for hashed keys. -/
def appendCheckResult (checkResults : PyDict Json SingleCheckResult)
    (check accountId mapped : Json) : PyDict Json SingleCheckResult :=
  checkResults.insert check (((checkResults.get? check).getD ∅).appendAt accountId mapped)

/-- One issue of an entry of the account `accountId`, the entry projected as `mapped`. -/
def issueStep (accountId mapped : Json) (checkResults : PyDict Json SingleCheckResult)
    (issue : Json) : Except PyError (PyDict Json SingleCheckResult) := do
  match ← issueCheck issue with
  | some check =>
    if check.truthy then
      let check ← pyHash check
      let accountId ← pyHash accountId
      pure (appendCheckResult checkResults check accountId mapped)
    else pure checkResults
  | none => pure checkResults

/-- One entry the search yields. -/
def entryStep (checkResults : PyDict Json SingleCheckResult) (entry : Json) :
    Except PyError (PyDict Json SingleCheckResult) :=
  match valueInPath entry NodePath.ancestorAccountId with
  | some accountId =>
    if accountId.truthy then
      (valueInPathList entry NodePath.securityIssues).foldlM
        (issueStep accountId (bendResourceData entry)) checkResults
    else pure checkResults
  | none => pure checkResults

/-- The loop of `load_benchmarks` over the entries the search yields, `rows.1`, and what the
cursor raises after them, `rows.2`. -/
def loadCheckResults (rows : List Json × Option PyError) :
    Except PyError (PyDict Json SingleCheckResult) := do
  let checkResults ← rows.1.foldlM entryStep ∅
  match rows.2 with
  | some e => .error e
  | none => pure checkResults

/-- What `results.get(cid, {})` of `__to_result` reads of a dict keyed by JSON values: the
id `cid` finds the entry under the string `cid` (`get?_strKeyed`). -/
def strKeyed (d : PyDict Json SingleCheckResult) : PyDict String SingleCheckResult :=
  PyDict.ofList (d.items.filterMap fun e =>
    match e.1 with
    | .str s => some (s, e.2)
    | _ => none)

variable (svc : InspectorService)

/-- `load_benchmarks(graph, benchmark_names, …)`; the search, whose term uses `P.context`, is
given by what it yields and raises, `rows`. -/
def loadBenchmarks (rows : List Json × Option PyError) (benchmarkNames : List String)
    (accounts : Option (List String) := none) (severity : Option ReportSeverity := none)
    (onlyFailing : Bool := false) : Except PyError (PyDict String BenchmarkResult) := do
  let context : CheckContext :=
    { accounts := accounts, severity := severity, onlyFailed := onlyFailing }
  let config := svc.reportConfig
  let benchmarks := svc.benchmarksAux benchmarkNames
  let checkIds :=
    (benchmarks.values.flatMap fun b => b.nestedChecks.filter config.checkAllowed).eraseDups
  let checks := svc.listChecks { checkIds := some checkIds, context := some context }
  let checkLookup := PyDict.ofList (checks.map fun c => (c.id, c))
  let checkResults ← loadCheckResults rows
  pure (PyDict.ofList (benchmarks.items.map fun (name, b) =>
    (name, toResultAux b checkLookup (strKeyed checkResults) context)))

/-! ## The loop without its errors -/

/-- What one issue that goes through adds. -/
def issueAdd (accountId mapped : Json) (checkResults : PyDict Json SingleCheckResult)
    (issue : Json) : PyDict Json SingleCheckResult :=
  match issue.get? "check" with
  | some check =>
    if check.truthy then appendCheckResult checkResults check.hashKey accountId.hashKey mapped
    else checkResults
  | none => checkResults

/-- Whether an issue names a truthy check that hashes as the key `c`. -/
def namesCheck (c : Json) (issue : Json) : Bool :=
  match issue.get? "check" with
  | some check => check.truthy && decide (check.hashKey = c)
  | none => false

/-- Whether an entry's account id is truthy and hashes as the key `a`. -/
def accountKeyOf (a : Json) (entry : Json) : Bool :=
  match valueInPath entry NodePath.ancestorAccountId with
  | some accountId => accountId.truthy && decide (accountId.hashKey = a)
  | none => false

/-- An issue of the account `accountId` the loop goes through: a dict, whose truthy check
and the account id are hashable. -/
def IssueOk (accountId issue : Json) : Prop :=
  issue.isObj = true ∧
    ∀ check, issue.get? "check" = some check → check.truthy = true →
      check.hashable = true ∧ accountId.hashable = true

/-- An entry the loop goes through: every issue of a truthy account id goes through. -/
def EntryOk (entry : Json) : Prop :=
  ∀ a, valueInPath entry NodePath.ancestorAccountId = some a → a.truthy = true →
    ∀ issue ∈ valueInPathList entry NodePath.securityIssues, IssueOk a issue

/-- What one entry adds when it goes through. -/
def entryAdd (checkResults : PyDict Json SingleCheckResult) (entry : Json) :
    PyDict Json SingleCheckResult :=
  match valueInPath entry NodePath.ancestorAccountId with
  | some accountId =>
    if accountId.truthy then
      (valueInPathList entry NodePath.securityIssues).foldl
        (issueAdd accountId (bendResourceData entry)) checkResults
    else checkResults
  | none => checkResults

/-- The failing resources the map holds for a check and an account. -/
def failing (d : PyDict Json SingleCheckResult) (c a : Json) : List Json :=
  (((d.get? c).getD ∅).get? a).getD []

theorem issueStep_eq {a m : Json} {d : PyDict Json SingleCheckResult} {issue : Json}
    (h : IssueOk a issue) : issueStep a m d issue = .ok (issueAdd a m d issue) := by
  obtain ⟨hobj, hhash⟩ := h
  cases issue with
  | obj kvs =>
    rw [issueStep, show issueCheck (.obj kvs) = .ok (kvs.lookup "check") from rfl, Except.ok_bind,
      issueAdd, show (Json.obj kvs).get? "check" = kvs.lookup "check" from rfl]
    rcases hc : kvs.lookup "check" with _ | check
    · rfl
    · by_cases ht : check.truthy = true
      · obtain ⟨hc', ha⟩ := hhash check hc ht
        simp [ht, pyHash_of_hashable hc', pyHash_of_hashable ha]
      · simp [ht]
  | _ => cases hobj

theorem issueStep_ne {a m : Json} {d : PyDict Json SingleCheckResult} {issue : Json}
    (h : ¬IssueOk a issue) (t : PyDict Json SingleCheckResult) : issueStep a m d issue ≠ .ok t := by
  cases issue with
  | obj kvs =>
    obtain ⟨check, hc, ht, hbad⟩ : ∃ check, kvs.lookup "check" = some check ∧ check.truthy = true ∧
        ¬(check.hashable = true ∧ a.hashable = true) := by
      simpa [IssueOk, Json.isObj, Json.get?] using h
    intro heq
    rw [issueStep, show issueCheck (.obj kvs) = .ok (kvs.lookup "check") from rfl, hc,
      Except.ok_bind] at heq
    dsimp only at heq
    rw [if_pos ht] at heq
    obtain ⟨c, hpc, heq⟩ := Except.bind_eq_ok.mp heq
    obtain ⟨a', hpa, -⟩ := Except.bind_eq_ok.mp heq
    cases hch : check.hashable
    · exact pyHash_ne_ok hch c hpc
    · exact pyHash_ne_ok (by simpa [hch] using hbad) a' hpa
  | _ => exact fun h => nomatch h

theorem entryStep_eq_ok {d t : PyDict Json SingleCheckResult} {entry : Json} :
    entryStep d entry = .ok t ↔ EntryOk entry ∧ t = entryAdd d entry := by
  unfold entryStep entryAdd EntryOk
  rcases valueInPath entry NodePath.ancestorAccountId with _ | a
  · dsimp only
    rw [Except.pure_eq_ok, eq_comm]
    exact ⟨fun h => ⟨(fun _ h' => nomatch h'), h⟩, And.right⟩
  · dsimp only
    by_cases ha : a.truthy = true
    · have hok : (∀ a', some a = some a' → a'.truthy = true →
          ∀ issue ∈ valueInPathList entry NodePath.securityIssues, IssueOk a' issue) ↔
          ∀ issue ∈ valueInPathList entry NodePath.securityIssues, IssueOk a issue :=
        ⟨fun h => h a rfl ha, fun h _ h' _ => by cases h'; exact h⟩
      rw [if_pos ha, if_pos ha, hok]
      exact Except.foldlM_eq_ok (IssueOk a) (fun _ _ h => issueStep_eq h) (fun _ _ h => issueStep_ne h)
    · rw [if_neg ha, if_neg ha, Except.pure_eq_ok, eq_comm]
      exact ⟨fun h => ⟨fun _ h' ht => by cases h'; exact absurd ht ha, h⟩, And.right⟩

/-- The loop of `load_benchmarks` returns iff every entry goes through and the cursor raises
nothing, and then it returns the loop of `entryAdd`. -/
theorem loadCheckResults_eq_ok {rows : List Json × Option PyError}
    {d : PyDict Json SingleCheckResult} :
    loadCheckResults rows = .ok d ↔
      rows.2 = none ∧ (∀ entry ∈ rows.1, EntryOk entry) ∧ d = rows.1.foldl entryAdd ∅ := by
  have hloop : ∀ {t}, rows.1.foldlM entryStep ∅ = .ok t ↔
      (∀ entry ∈ rows.1, EntryOk entry) ∧ t = rows.1.foldl entryAdd ∅ :=
    Except.foldlM_eq_ok EntryOk (fun _ _ h => entryStep_eq_ok.mpr ⟨h, rfl⟩)
      (fun _ _ h _ ht => h (entryStep_eq_ok.mp ht).1)
  unfold loadCheckResults
  rcases rows with ⟨entries, _ | e⟩
  · simp only [Except.bind_eq_ok, Except.pure_eq_ok, hloop, true_and]
    constructor
    · rintro ⟨_, ⟨h, rfl⟩, rfl⟩
      exact ⟨h, rfl⟩
    · rintro ⟨h, rfl⟩
      exact ⟨_, ⟨h, rfl⟩, rfl⟩
  · simp [Except.bind_eq_ok]

/-! ## What the loop holds -/

theorem failing_appendCheckResult (d : PyDict Json SingleCheckResult) (c' a' m c a : Json) :
    failing (appendCheckResult d c' a' m) c a =
      if c' = c ∧ a' = a then failing d c a ++ [m] else failing d c a := by
  unfold failing appendCheckResult
  rw [PyDict.get?_insert]
  by_cases hc : c' = c
  · subst hc
    by_cases ha : a' = a <;> simp [ha, PyDict.get?_appendAt]
  · simp [hc]

theorem failing_issueAdd (a₀ m : Json) (d : PyDict Json SingleCheckResult) (issue c a : Json) :
    failing (issueAdd a₀ m d issue) c a =
      failing d c a ++ if a₀.hashKey = a ∧ namesCheck c issue = true then [m] else [] := by
  unfold issueAdd namesCheck
  rcases issue.get? "check" with _ | c'
  · simp
  · by_cases ht : c'.truthy = true
    · by_cases hc : c'.hashKey = c <;> by_cases ha : a₀.hashKey = a <;>
        simp [ht, hc, ha, failing_appendCheckResult]
    · simp [ht]

theorem failing_foldl_issueAdd (a₀ m c a : Json) (issues : List Json) :
    ∀ d : PyDict Json SingleCheckResult, failing (issues.foldl (issueAdd a₀ m) d) c a =
      failing d c a ++ if a₀.hashKey = a then (issues.filter (namesCheck c)).map fun _ => m else [] := by
  induction issues with
  | nil => intro d; split <;> simp
  | cons issue issues ih =>
    intro d
    rw [List.foldl_cons, ih, failing_issueAdd]
    by_cases ha : a₀.hashKey = a <;> by_cases hn : namesCheck c issue = true <;> simp [ha, hn]

theorem failing_foldl_entryAdd (c a : Json) (entries : List Json) :
    ∀ d : PyDict Json SingleCheckResult, failing (entries.foldl entryAdd d) c a =
      failing d c a ++ (entries.filter (accountKeyOf a)).flatMap fun entry =>
        ((valueInPathList entry NodePath.securityIssues).filter (namesCheck c)).map
          fun _ => bendResourceData entry := by
  induction entries with
  | nil => intro d; simp
  | cons entry entries ih =>
    intro d
    rw [List.foldl_cons, ih, List.filter_cons]
    unfold entryAdd accountKeyOf
    rcases valueInPath entry NodePath.ancestorAccountId with _ | a₀
    · simp
    · dsimp only
      by_cases ht : a₀.truthy = true
      · rw [if_pos ht, failing_foldl_issueAdd]
        by_cases ha : a₀.hashKey = a <;> simp [ht, ha]
      · simp [ht]

/-- **`load_benchmarks` counts a node once per issue naming the check**, and returns iff the
cursor raises nothing and every entry goes through. -/
theorem loadCheckResults_spec (rows : List Json × Option PyError) :
    ((∃ d, loadCheckResults rows = .ok d) ↔ rows.2 = none ∧ ∀ entry ∈ rows.1, EntryOk entry) ∧
    ∀ d, loadCheckResults rows = .ok d → ∀ c a, failing d c a =
      (rows.1.filter (accountKeyOf a)).flatMap fun entry =>
        ((valueInPathList entry NodePath.securityIssues).filter (namesCheck c)).map
          fun _ => bendResourceData entry := by
  refine ⟨⟨fun ⟨_, h⟩ => (loadCheckResults_eq_ok.mp h).imp_right And.left,
    fun ⟨h2, h1⟩ => ⟨_, loadCheckResults_eq_ok.mpr ⟨h2, h1, rfl⟩⟩⟩, fun d h c a => ?_⟩
  obtain ⟨-, -, rfl⟩ := loadCheckResults_eq_ok.mp h
  rw [failing_foldl_entryAdd]
  rfl

/-- An entry of the account `"123"` with the given issues. -/
def issuesEntry (issues : List Json) : Json :=
  .obj [("ancestors", .obj [("account", .obj [("reported", .obj [("id", .str "123")])])]),
    ("security", .obj [("issues", .arr issues)])]

/-- An issue naming a list of checks makes the loop raise. -/
example : loadCheckResults ([issuesEntry [.obj [("check", .arr [.str "c"])]]], none) =
    .error (.typeError "unhashable type: \x27list\x27") := by
  rfl

/-- The checks `True` and `1` fill one list. -/
example : (loadCheckResults ([issuesEntry [.obj [("check", .bool true)], .obj [("check", .num 1)]]],
    none)).map (fun d => (failing d (.num 1) (.str "123")).length) = .ok 2 := by
  rfl

/-! ## Reading the map by check id -/

/-- The string key of a JSON key. -/
def strKey : Json → Option String
  | .str s => some s
  | _ => none

theorem findValue_filterMap_str (s : String) (items : List (Json × SingleCheckResult)) :
    findValue s (items.filterMap fun e =>
      match e.1 with
      | .str s => some (s, e.2)
      | _ => none) = findValue (.str s) items := by
  induction items with
  | nil => rfl
  | cons e es ih =>
    obtain ⟨k, v⟩ := e
    cases k with
    | str s' => by_cases h : s' = s <;> simp [findValue_cons, h, ih]
    | _ => simp [findValue_cons, ih]

theorem get?_strKeyed (d : PyDict Json SingleCheckResult) (s : String) :
    (strKeyed d).get? s = d.get? (.str s) := by
  have hkeys : ((d.items.filterMap fun e =>
      match e.1 with
      | .str s => some (s, e.2)
      | _ => none).map Prod.fst) = (d.items.map Prod.fst).filterMap strKey := by
    rw [List.map_filterMap, List.filterMap_map]
    congr 1
    funext e
    obtain ⟨k, v⟩ := e
    cases k <;> rfl
  have hnodup := hkeys ▸ d.nodup.filterMap fun j j' s hj hj' => by
    cases j <;> cases j' <;> simp_all [strKey]
  rw [strKeyed, PyDict.get?_ofList, ← findValue_perm hnodup (List.reverse_perm _).symm,
    findValue_filterMap_str]
  rfl

end InspectorService

end Resoto
