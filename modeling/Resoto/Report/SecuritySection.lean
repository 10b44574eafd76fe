import Resoto.Report.CompletionOrder

/-!
# The security section: one entry per failing node, one issue per occurrence

`__benchmarks_to_security_iterator` walks every result tree in one loop
(`foldlM_walkCollection`) and yields each failing node once, with one issue per occurrence
of the node in a tree, in walk order (`benchmarksToSecurityIteratorAux_issues`). The issues
repeat when a check occurs twice in one benchmark (`benchmarksToSecurityIteratorAux_duplicate`).
-/

namespace Resoto

/-! ## The occurrences of a node -/

mutual

/-- The check results of a result tree, in the order `walk_collection` visits them. -/
def CheckCollectionResult.allChecks : CheckCollectionResult → List CheckResult
  | ⟨_, _, _, checks, children⟩ => checks ++ CheckCollectionResult.allChecksOf children
termination_by structural c => c

/-- The check results of a list of trees. -/
def CheckCollectionResult.allChecksOf : List CheckCollectionResult → List CheckResult
  | [] => []
  | c :: cs => c.allChecks ++ CheckCollectionResult.allChecksOf cs
termination_by structural cs => cs

end

/-- The entries `walk_collection` appends for one check result of the tree of `parent`. -/
def CheckResult.entries (parent : BenchmarkResult) (check : CheckResult) :
    List (Json × (BenchmarkResult × CheckResult)) :=
  check.failingResources.map fun resource => (resource, (parent, check))

/-- The entries of a whole result tree. -/
def BenchmarkResult.entries (result : BenchmarkResult) :
    List (Json × (BenchmarkResult × CheckResult)) :=
  result.allChecks.flatMap (CheckResult.entries result)

/-- The occurrences of the node `n` in the result trees: `(b, c)` once for each failing
resource of the check result `c` of the tree `b` whose `node_id` is `n`, in walk order. -/
def occurrences (results : List BenchmarkResult) (n : Json) : List (BenchmarkResult × CheckResult) :=
  results.flatMap fun b => b.allChecks.flatMap fun c =>
    (c.failingResources.filter fun r => r.get? "node_id" = some n).map fun _ => (b, c)

/-- The `(node_id, context)` pairs of the entries whose resource has a `node_id`. -/
def nodeEntries (entries : List (Json × (BenchmarkResult × CheckResult))) :
    List (Json × (BenchmarkResult × CheckResult)) :=
  entries.filterMap fun e => (e.1.get? "node_id").map (·, e.2)

namespace InspectorService

/-! ## The walk is one loop -/

theorem foldlM_flatMap {α β γ : Type} (f : α → List β) (g : γ → β → Except PyError γ)
    (l : List α) (init : γ) :
    (l.flatMap f).foldlM g init = l.foldlM (fun acc a => (f a).foldlM g acc) init := by
  induction l generalizing init with
  | nil => rfl
  | cons a l ih => simp [ih]

mutual

theorem walkCollection_eq (parent : BenchmarkResult) : ∀ (c : CheckCollectionResult) nodeResult,
    walkCollection parent nodeResult c =
      (c.allChecks.flatMap (CheckResult.entries parent)).foldlM appendNode nodeResult
  | ⟨_, _, _, checks, children⟩, nodeResult => by
    simp only [walkCollection, CheckCollectionResult.allChecks, List.flatMap_append,
      List.foldlM_append, foldlM_flatMap, CheckResult.entries, List.foldlM_map,
      walkCollectionOf_eq parent children]
termination_by structural c => c

theorem walkCollectionOf_eq (parent : BenchmarkResult) : ∀ (cs : List CheckCollectionResult) nodeResult,
    walkCollectionOf parent nodeResult cs =
      ((CheckCollectionResult.allChecksOf cs).flatMap (CheckResult.entries parent)).foldlM
        appendNode nodeResult
  | [], _ => rfl
  | c :: cs, nodeResult => by
    simp only [walkCollectionOf, CheckCollectionResult.allChecksOf, List.flatMap_append,
      List.foldlM_append, walkCollection_eq parent c, walkCollectionOf_eq parent cs]
termination_by structural cs => cs

end

/-- The outer loop of `__benchmarks_to_security_iterator` over the result trees. -/
theorem foldlM_walkCollection (results : List BenchmarkResult) nodeResult :
    results.foldlM (fun nodeResult result => walkCollection result nodeResult result.toCheckCollectionResult)
        nodeResult =
      (results.flatMap BenchmarkResult.entries).foldlM appendNode nodeResult := by
  simp only [foldlM_flatMap, BenchmarkResult.entries, walkCollection_eq]

/-- When every resource has a `node_id`, the loop raises nothing and appends each pair. -/
theorem foldlM_appendNode (entries : List (Json × (BenchmarkResult × CheckResult)))
    (h : ∀ e ∈ entries, (e.1.get? "node_id").isSome) nodeResult :
    entries.foldlM appendNode nodeResult =
      .ok ((nodeEntries entries).foldl (fun d e => d.appendAt e.1 e.2) nodeResult) := by
  induction entries generalizing nodeResult with
  | nil => rfl
  | cons e es ih =>
    obtain ⟨n, hn⟩ := Option.isSome_iff_exists.mp (h e (List.mem_cons_self _ _))
    rw [List.foldlM_cons]
    simp [appendNode, nodeIdOf, nodeEntries, hn, ih fun e he => h e (List.mem_cons_of_mem _ he)]

/-- The pairs of a node: one per failing resource of that node in a check result of a tree. -/
theorem mem_nodeEntries {results : List BenchmarkResult} {n : Json}
    {context : BenchmarkResult × CheckResult} :
    (n, context) ∈ nodeEntries (results.flatMap BenchmarkResult.entries) ↔
      ∃ b ∈ results, ∃ c ∈ b.allChecks, ∃ r ∈ c.failingResources,
        r.get? "node_id" = some n ∧ context = (b, c) := by
  simp only [nodeEntries, List.mem_filterMap, List.mem_flatMap, BenchmarkResult.entries,
    CheckResult.entries, List.mem_map, Option.map_eq_some', Prod.mk.injEq]
  constructor
  · rintro ⟨_, ⟨b, hb, c, hc, r, hr, rfl⟩, n', hn', rfl, rfl⟩
    exact ⟨b, hb, c, hc, r, hr, hn', rfl⟩
  · rintro ⟨b, hb, c, hc, r, hr, hn, rfl⟩
    exact ⟨_, ⟨b, hb, c, hc, r, hr, rfl⟩, n, hn, rfl, rfl⟩

theorem nodeEntries_filter (entries : List (Json × (BenchmarkResult × CheckResult))) (n : Json) :
    ((nodeEntries entries).filter (·.1 = n)).map Prod.snd =
      (entries.filter fun e => e.1.get? "node_id" = some n).map Prod.snd := by
  induction entries with
  | nil => rfl
  | cons e es ih =>
    rcases h : e.1.get? "node_id" with _ | n'
    · simpa [nodeEntries, h] using ih
    · by_cases hn : n' = n <;> simp_all [nodeEntries]

/-- The contexts of a node, one per occurrence. -/
theorem nodeEntries_occurrences (results : List BenchmarkResult) (n : Json) :
    ((nodeEntries (results.flatMap BenchmarkResult.entries)).filter (·.1 = n)).map Prod.snd =
      occurrences results n := by
  simp [nodeEntries_filter, occurrences, BenchmarkResult.entries, CheckResult.entries, List.filter_flatMap,
    List.map_flatMap, List.filter_map, Function.comp_def]

/-- What `__benchmarks_to_security_iterator` returns when every failing resource has a
`node_id`: the node entries of all trees grouped by node. -/
theorem benchmarksToSecurityIteratorAux_eq (results : PyDict String BenchmarkResult)
    (hid : ∀ b ∈ results.values, ∀ c ∈ b.allChecks, ∀ r ∈ c.failingResources,
      (r.get? "node_id").isSome) :
    benchmarksToSecurityIteratorAux results =
      .ok (((nodeEntries (results.values.flatMap BenchmarkResult.entries)).foldl
        (fun d e => d.appendAt e.1 e.2) (∅ : PyDict Json (List (BenchmarkResult × CheckResult)))).items.map
          fun (nodeId, contexts) => (nodeId, contexts.map securityIssue)) := by
  have hE : ∀ e ∈ results.values.flatMap BenchmarkResult.entries, (e.1.get? "node_id").isSome := by
    simp only [List.mem_flatMap, BenchmarkResult.entries, CheckResult.entries, List.mem_map]
    rintro _ ⟨b, hb, c, hc, r, hr, rfl⟩
    exact hid b hb c hc r hr
  simp only [benchmarksToSecurityIteratorAux, foldlM_walkCollection, foldlM_appendNode _ hE]
  rfl

/-- **Each failing node once, with one issue per occurrence.** When every failing resource
has a `node_id`, the iterator yields each node id once, exactly the node ids of failing
resources of check results in the result trees, and for each node the issue
`(check, severity, {benchmark})` of each of its occurrences, in walk order. -/
theorem benchmarksToSecurityIteratorAux_issues (results : PyDict String BenchmarkResult)
    (hid : ∀ b ∈ results.values, ∀ c ∈ b.allChecks, ∀ r ∈ c.failingResources,
      (r.get? "node_id").isSome) :
    ∃ out, benchmarksToSecurityIteratorAux results = .ok out ∧ (out.map Prod.fst).Nodup ∧
      (∀ n, n ∈ out.map Prod.fst ↔ ∃ b ∈ results.values, ∃ c ∈ b.allChecks,
        ∃ r ∈ c.failingResources, r.get? "node_id" = some n) ∧
      ∀ n issues, (n, issues) ∈ out → issues = (occurrences results.values n).map
        fun o => ⟨o.2.check.id, o.2.check.severity, [o.1.id]⟩ := by
  rw [benchmarksToSecurityIteratorAux_eq results hid]
  set d : PyDict Json (List (BenchmarkResult × CheckResult)) :=
    (nodeEntries (results.values.flatMap BenchmarkResult.entries)).foldl (fun d e => d.appendAt e.1 e.2) ∅
  have hkeys : (d.items.map fun (nodeId, contexts) => (nodeId, contexts.map securityIssue)).map
      Prod.fst = d.keys := by simp [PyDict.keys, Function.comp_def]
  refine ⟨_, rfl, hkeys ▸ d.nodup, fun n => ?_, fun n issues hmem => ?_⟩
  · rw [hkeys, PyDict.mem_keys_foldl_appendAt]
    simp only [PyDict.keys, PyDict.items_empty, List.map_nil, List.not_mem_nil, false_or, List.mem_map]
    constructor
    · rintro ⟨⟨_, context⟩, he, rfl⟩
      obtain ⟨b, hb, c, hc, r, hr, hn, -⟩ := mem_nodeEntries.mp he
      exact ⟨b, hb, c, hc, r, hr, hn⟩
    · rintro ⟨b, hb, c, hc, r, hr, hn⟩
      exact ⟨_, mem_nodeEntries.mpr ⟨b, hb, c, hc, r, hr, hn, rfl⟩, rfl⟩
  · obtain ⟨⟨n, contexts⟩, hitem, ⟨⟩⟩ := List.mem_map.mp hmem
    rw [PyDict.mem_items_foldl_appendAt hitem, nodeEntries_occurrences]
    rfl

/-! ## A check in two sections -/

/-- A benchmark listing the check `search` in two sections. -/
def sharedBenchmark : Benchmark :=
  { title := "shared", description := "Shared check"
    children := [{ title := "one", description := "", checks := ["search"], children := [] },
      { title := "two", description := "", checks := ["search"], children := [] }]
    id := "shared", framework := "resoto", version := "1.0" }

/-- `twoChecksService` with `sharedBenchmark` predefined. -/
def sharedService : InspectorService :=
  { twoChecksService with benchmarksFromFile := PyDict.ofList [("shared", sharedBenchmark)] }

/-- What `perform_benchmarks(["shared"])` returns on `sharedService`: one result tree,
both sections holding the result of `search`. -/
def sharedResults : PyDict String BenchmarkResult :=
  PyDict.ofList [("shared", toResultAux sharedBenchmark (PyDict.ofList [("search", searchCheck)])
    (PyDict.ofList [("search", groupByAccount [instanceRow])]) {})]

theorem benchmarksToSecurityIteratorAux_issues_shared :
    ∃ out, benchmarksToSecurityIteratorAux sharedResults = .ok out ∧ (out.map Prod.fst).Nodup :=
  have ⟨out, h, hn, _⟩ := benchmarksToSecurityIteratorAux_issues sharedResults (by decide)
  ⟨out, h, hn⟩

/-- **A node gets an issue once per occurrence.** `perform_benchmarks(["shared"])` finds
node `n1` failing `search`, which `shared` lists twice: the node's issues repeat
`(search, high, {shared})`. -/
theorem benchmarksToSecurityIteratorAux_duplicate :
    sharedService.performBenchmarks id ["shared"] = .ok sharedResults ∧
      benchmarksToSecurityIteratorAux sharedResults =
        .ok [(.str "n1", [⟨"search", .high, ["shared"]⟩, ⟨"search", .high, ["shared"]⟩])] :=
  ⟨rfl, rfl⟩

end InspectorService

end Resoto
