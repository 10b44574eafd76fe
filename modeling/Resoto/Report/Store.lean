import Resoto.Report.Overrides

/-!
# The stores of user-defined benchmarks and checks

`update_benchmark`, `delete_benchmark`, `update_check` and `delete_check` write the
`benchmark_db` and the `report_check_db`; `benchmark`, `list_benchmarks` and `filter_checks`
read them over the predefined tables. A request that raises leaves the stores as they were
(`step`), and `run_invariant` is the one induction over runs of requests. Every run keeps the
predefined benchmarks (`run_benchmark_predefined`), valid stored checks (`run_checksValid`) and,
when no deleted check is still named, stored benchmarks that name existing checks
(`run_benchmarksValid`).
-/

namespace Resoto

/-- `s.rsplit(".", 1)[-1]`: what follows the last dot of `s`, all of `s` when it has none. -/
def rsplitLast (s : String) : String :=
  ⟨(s.data.reverse.takeWhile (· != '.')).reverse⟩

example : rsplitLast "resoto.report.benchmark.aws_cis_1_5" = "aws_cis_1_5" := by decide

/-- `{"errors": errors} if errors else None`. -/
def errorsOrNone (errors : List String) : Option Json :=
  if errors.isEmpty then none else some (.obj [("errors", .arr (errors.map .str))])

/-- Modelled from the spec: the stores of user-defined checks and benchmarks, each entity
under its id. -/
structure ReportStore where
  checks : PyDict String ReportCheck
  benchmarks : PyDict String Benchmark
  checks_keyed : checks.KeyedBy ReportCheck.id
  benchmarks_keyed : benchmarks.KeyedBy Benchmark.id

namespace ReportStore

/-- Empty stores. -/
instance : EmptyCollection ReportStore :=
  ⟨⟨∅, ∅, fun e h => absurd h (List.not_mem_nil e), fun e h => absurd h (List.not_mem_nil e)⟩⟩

/-- `report_check_db.update(check)`. -/
def updateCheckDb (st : ReportStore) (check : ReportCheck) : ReportStore :=
  { st with
    checks := st.checks.insert check.id check
    checks_keyed := PyDict.keyedBy_insert st.checks_keyed check }

/-- `report_check_db.delete(check_id)`. -/
def deleteCheckDb (st : ReportStore) (checkId : String) : ReportStore :=
  { st with
    checks := st.checks.erase checkId
    checks_keyed := PyDict.keyedBy_erase st.checks_keyed checkId }

/-- `benchmark_db.update(benchmark)`. -/
def updateBenchmarkDb (st : ReportStore) (benchmark : Benchmark) : ReportStore :=
  { st with
    benchmarks := st.benchmarks.insert benchmark.id benchmark
    benchmarks_keyed := PyDict.keyedBy_insert st.benchmarks_keyed benchmark }

/-- `benchmark_db.delete(bid)`. -/
def deleteBenchmarkDb (st : ReportStore) (bid : String) : ReportStore :=
  { st with
    benchmarks := st.benchmarks.erase bid
    benchmarks_keyed := PyDict.keyedBy_erase st.benchmarks_keyed bid }

variable (st : ReportStore)

@[simp] theorem updateCheckDb_checks (c : ReportCheck) :
    (st.updateCheckDb c).checks = st.checks.insert c.id c := rfl

@[simp] theorem updateCheckDb_benchmarks (c : ReportCheck) :
    (st.updateCheckDb c).benchmarks = st.benchmarks := rfl

@[simp] theorem deleteCheckDb_checks (k : String) :
    (st.deleteCheckDb k).checks = st.checks.erase k := rfl

@[simp] theorem deleteCheckDb_benchmarks (k : String) :
    (st.deleteCheckDb k).benchmarks = st.benchmarks := rfl

@[simp] theorem updateBenchmarkDb_checks (b : Benchmark) :
    (st.updateBenchmarkDb b).checks = st.checks := rfl

@[simp] theorem updateBenchmarkDb_benchmarks (b : Benchmark) :
    (st.updateBenchmarkDb b).benchmarks = st.benchmarks.insert b.id b := rfl

@[simp] theorem deleteBenchmarkDb_checks (k : String) :
    (st.deleteBenchmarkDb k).checks = st.checks := rfl

@[simp] theorem deleteBenchmarkDb_benchmarks (k : String) :
    (st.deleteBenchmarkDb k).benchmarks = st.benchmarks.erase k := rfl

end ReportStore

namespace InspectorService

variable (svc : InspectorService)

/-- The service reading its check db and benchmark db from the stores `st`. -/
def withStore (st : ReportStore) : InspectorService :=
  { svc with checkDb := st.checks.values, benchmarkDb := st.benchmarks.get? }

/-- `list_benchmarks()`: the predefined benchmarks by id, each replaced by the stored one of
its id, then the other stored ones. -/
def listBenchmarks (st : ReportStore) : List Benchmark :=
  (st.benchmarks.values.foldl (fun result b => result.insert b.id b)
    (PyDict.ofList (svc.benchmarksFromFile.values.map fun b => (b.id, b)))).values

/-- `__validate_benchmark(benchmark)`: a message for each check of the benchmark whose id
`filter_checks()` does not return. -/
def validateBenchmarkAux (benchmark : Benchmark) : List String :=
  let allChecks := (svc.filterChecks none).map (·.id)
  (benchmark.nestedChecks.filter fun check => !allChecks.contains check).map fun check =>
    "Check " ++ check ++ " is defined in the benchmark but does not exist."

/-- `delete_benchmark(bid)`. -/
def deleteBenchmark (st : ReportStore) (bid : String) : Except PyError ReportStore :=
  if bid ∈ svc.benchmarksFromFile.keys then
    .error (.valueError ("Deleting a predefined benchmark is not allowed: " ++ bid))
  else pure (st.deleteBenchmarkDb bid)

/-- `update_benchmark(benchmark)`: the stores after it, and the benchmark the db returns. -/
def updateBenchmark (st : ReportStore) (benchmark : Benchmark) :
    Except PyError (ReportStore × Benchmark) :=
  if benchmark.id ∈ svc.benchmarksFromFile.keys then
    .error (.valueError ("Changing a predefined benchmark is not allowed: " ++ benchmark.id))
  else match (svc.withStore st).validateBenchmarkAux benchmark with
    | [] => pure (st.updateBenchmarkDb benchmark, benchmark)
    | invalid => .error (.valueError
        ("Benchmark " ++ benchmark.id ++ " is invalid: " ++ ", ".intercalate invalid))

/-- `delete_check(check_id)`. -/
def deleteCheck (st : ReportStore) (checkId : String) : ReportStore :=
  st.deleteCheckDb checkId

@[simp] theorem validateCheck_withStore (st : ReportStore) :
    (svc.withStore st).validateCheck = svc.validateCheck := rfl

/-- `update_check(check)`: the stores after it, and the check the db returns. -/
def updateCheck (st : ReportStore) (check : ReportCheck) :
    Except PyError (ReportStore × ReportCheck) :=
  match (svc.withStore st).validateCheck check with
  | [] => pure (st.updateCheckDb check, check)
  | invalid => .error (.valueError
      ("Check " ++ check.id ++ " is invalid: " ++ ", ".intercalate invalid))

/-- `validate_benchmark_config(cfg_id, json)`, with `BenchmarkConfig.from_config` reading the
benchmark of the config, or raising. -/
def validateBenchmarkConfig (fromConfig : Json → Except PyError Benchmark) (cfgId : String)
    (json : Json) : Option Json :=
  errorsOrNone <| match fromConfig json with
    | .ok benchmark =>
      let bid := rsplitLast cfgId
      (if benchmark.id != bid then
        ["Benchmark id should be " ++ bid ++ " (same as the config name). Got " ++ benchmark.id]
      else []) ++ svc.validateBenchmarkAux benchmark
    | .error e => ["Can not digest benchmark: " ++ e.str]

/-- `validate_check_collection_config(json)`, with `ReportCheckCollectionConfig.from_config`
reading the checks of the config, or raising. -/
def validateCheckCollectionConfig (fromConfig : Json → Except PyError (List ReportCheck))
    (json : Json) : Option Json :=
  errorsOrNone <| match fromConfig json with
    | .ok checks => checks.flatMap svc.validateCheck
    | .error e => ["Can not digest check collection: " ++ e.str]

/-! ## Runs of requests -/

/-- A request that writes the stores. -/
inductive StoreRequest where
  | updateBenchmark (benchmark : Benchmark)
  | deleteBenchmark (bid : String)
  | updateCheck (check : ReportCheck)
  | deleteCheck (checkId : String)

/-- Serving one request: the stores after it, or what it raises. -/
def serve (st : ReportStore) : StoreRequest → Except PyError ReportStore
  | .updateBenchmark benchmark => Prod.fst <$> svc.updateBenchmark st benchmark
  | .deleteBenchmark bid => svc.deleteBenchmark st bid
  | .updateCheck check => Prod.fst <$> svc.updateCheck st check
  | .deleteCheck checkId => pure (deleteCheck st checkId)

/-- The stores after a request: the ones it leaves, or the same ones when it raises. -/
def step (st : ReportStore) (request : StoreRequest) : ReportStore :=
  match svc.serve st request with
  | .ok st' => st'
  | .error _ => st

/-- The stores after a run of requests, each served on the stores the ones before left. -/
def run (st : ReportStore) (requests : List StoreRequest) : ReportStore :=
  requests.foldl svc.step st

/-- Each request of a run meets `P` on the stores it is served on. -/
def RunAll (P : ReportStore → StoreRequest → Prop) : ReportStore → List StoreRequest → Prop
  | _, [] => True
  | st, r :: rs => P st r ∧ RunAll P (svc.step st r) rs

variable {svc}

/-- An invariant that every request keeps when it is served holds after every run. -/
theorem run_invariant (I : ReportStore → Prop) {P : ReportStore → StoreRequest → Prop}
    (hserve : ∀ st r st', I st → P st r → svc.serve st r = .ok st' → I st') :
    ∀ {st : ReportStore} {requests : List StoreRequest}, I st → svc.RunAll P st requests →
      I (svc.run st requests)
  | _, [], hst, _ => hst
  | st, r :: rs, hst, ⟨hr, hrs⟩ => by
    have hstep : I (svc.step st r) := by
      unfold step
      split
      · exact hserve st r _ hst hr ‹_›
      · exact hst
    exact (run_invariant I hserve hstep hrs :)

/-- Every run meets the condition that always holds. -/
theorem runAll_true : ∀ (st : ReportStore) (requests : List StoreRequest),
    svc.RunAll (fun _ _ => True) st requests
  | _, [] => trivial
  | _, _ :: rs => ⟨trivial, runAll_true _ rs⟩

/-! ## What a request can do -/

theorem updateBenchmark_eq_ok {st : ReportStore} {b : Benchmark} {p : ReportStore × Benchmark} :
    svc.updateBenchmark st b = .ok p ↔ b.id ∉ svc.benchmarksFromFile.keys ∧
      (svc.withStore st).validateBenchmarkAux b = [] ∧ p = (st.updateBenchmarkDb b, b) := by
  unfold updateBenchmark
  by_cases hb : b.id ∈ svc.benchmarksFromFile.keys
  · simp [hb]
  · cases (svc.withStore st).validateBenchmarkAux b <;> simp [hb, @eq_comm _ p]

theorem deleteBenchmark_eq_ok {st st' : ReportStore} {bid : String} :
    svc.deleteBenchmark st bid = .ok st' ↔
      bid ∉ svc.benchmarksFromFile.keys ∧ st' = st.deleteBenchmarkDb bid := by
  unfold deleteBenchmark
  by_cases hb : bid ∈ svc.benchmarksFromFile.keys <;> simp [hb, @eq_comm _ st']

theorem updateCheck_eq_ok {st : ReportStore} {c : ReportCheck} {p : ReportStore × ReportCheck} :
    svc.updateCheck st c = .ok p ↔ svc.validateCheck c = [] ∧ p = (st.updateCheckDb c, c) := by
  unfold updateCheck
  rw [validateCheck_withStore]
  cases svc.validateCheck c <;> simp [@eq_comm _ p]

/-- What a request that goes through does to the stores. -/
theorem serve_eq_ok {st st' : ReportStore} {r : StoreRequest} (h : svc.serve st r = .ok st') :
    (∃ b, r = .updateBenchmark b ∧ b.id ∉ svc.benchmarksFromFile.keys ∧
        (svc.withStore st).validateBenchmarkAux b = [] ∧ st' = st.updateBenchmarkDb b) ∨
      (∃ bid, r = .deleteBenchmark bid ∧ bid ∉ svc.benchmarksFromFile.keys ∧
        st' = st.deleteBenchmarkDb bid) ∨
      (∃ c, r = .updateCheck c ∧ svc.validateCheck c = [] ∧ st' = st.updateCheckDb c) ∨
      (∃ cid, r = .deleteCheck cid ∧ st' = st.deleteCheckDb cid) := by
  cases r with
  | updateBenchmark b =>
    obtain ⟨p, hp, rfl⟩ := Except.map_eq_ok.mp h
    obtain ⟨hb, hv, rfl⟩ := updateBenchmark_eq_ok.mp hp
    exact .inl ⟨b, rfl, hb, hv, rfl⟩
  | deleteBenchmark bid =>
    obtain ⟨hb, rfl⟩ := deleteBenchmark_eq_ok.mp h
    exact .inr (.inl ⟨bid, rfl, hb, rfl⟩)
  | updateCheck c =>
    obtain ⟨p, hp, rfl⟩ := Except.map_eq_ok.mp h
    obtain ⟨hv, rfl⟩ := updateCheck_eq_ok.mp hp
    exact .inr (.inr (.inl ⟨c, rfl, hv, rfl⟩))
  | deleteCheck cid => exact .inr (.inr (.inr ⟨cid, rfl, (Except.ok.inj h).symm⟩))

/-! ## Predefined benchmarks never change -/

/-- No predefined benchmark is stored. -/
def NoPredefinedStored (st : ReportStore) : Prop :=
  ∀ bid ∈ svc.benchmarksFromFile.keys, bid ∉ st.benchmarks.keys

theorem serve_noPredefinedStored {st st' : ReportStore} {r : StoreRequest}
    (hst : svc.NoPredefinedStored st) (h : svc.serve st r = .ok st') :
    svc.NoPredefinedStored st' := by
  intro bid hbid
  rcases serve_eq_ok h with ⟨b, -, hb, -, rfl⟩ | ⟨k, -, -, rfl⟩ | ⟨c, -, -, rfl⟩ | ⟨k, -, rfl⟩
  · rw [ReportStore.updateBenchmarkDb_benchmarks, PyDict.mem_keys_insert, not_or]
    exact ⟨fun e => hb (e ▸ hbid), hst bid hbid⟩
  · exact fun hk => hst bid hbid ((PyDict.mem_keys_erase _ _ _).mp hk).2
  · exact hst bid hbid
  · exact hst bid hbid

/-- **Predefined benchmarks never change**: after every run, `benchmark(bid)` of a predefined
`bid` returns the predefined benchmark. -/
theorem run_benchmark_predefined (st : ReportStore) (requests : List StoreRequest)
    (hst : svc.NoPredefinedStored st) {bid : String} (hbid : bid ∈ svc.benchmarksFromFile.keys) :
    (svc.withStore (svc.run st requests)).benchmark bid = svc.benchmarksFromFile.get? bid := by
  have hrun := run_invariant svc.NoPredefinedStored
    (fun _ _ _ hst _ h => serve_noPredefinedStored hst h) hst (runAll_true st requests)
  show ((svc.run st requests).benchmarks.get? bid).or _ = _
  rw [PyDict.get?_eq_none.mpr (hrun bid hbid), Option.none_or]
  rfl

theorem run_benchmark_predefined_twoChecks :
    twoChecksService.NoPredefinedStored ∅ ∧ "test" ∈ twoChecksService.benchmarksFromFile.keys ∧
      (twoChecksService.withStore (twoChecksService.run ∅
        [.updateBenchmark { testBenchmark with checks := ["cmd"] },
          .deleteBenchmark "test"])).benchmark "test" = some testBenchmark :=
  have hst : twoChecksService.NoPredefinedStored ∅ := fun _ _ h => List.not_mem_nil _ h
  have hbid : "test" ∈ twoChecksService.benchmarksFromFile.keys := by decide
  ⟨hst, hbid, run_benchmark_predefined ∅ _ hst hbid⟩

/-! ## Stored checks are valid -/

/-- Every stored check passes `__validate_check`. -/
def ChecksValid (st : ReportStore) : Prop :=
  ∀ c ∈ st.checks.values, svc.validateCheck c = []

theorem serve_checksValid {st st' : ReportStore} {r : StoreRequest}
    (hst : svc.ChecksValid st) (h : svc.serve st r = .ok st') : svc.ChecksValid st' := by
  intro c' hc'
  rcases serve_eq_ok h with ⟨b, -, -, -, rfl⟩ | ⟨k, -, -, rfl⟩ | ⟨c, -, hc, rfl⟩ | ⟨k, -, rfl⟩
  · exact hst c' hc'
  · exact hst c' hc'
  · rcases PyDict.mem_values_insert hc' with rfl | hc'
    exacts [hc, hst c' hc']
  · exact hst c' (PyDict.mem_values_erase hc')

/-- **Stored checks stay valid** under `__validate_check` over every run. -/
theorem run_checksValid (st : ReportStore) (requests : List StoreRequest)
    (hst : svc.ChecksValid st) : svc.ChecksValid (svc.run st requests) :=
  run_invariant svc.ChecksValid (fun _ _ _ hst _ h => serve_checksValid hst h) hst
    (runAll_true st requests)

theorem run_checksValid_twoChecks :
    twoChecksService.ChecksValid ∅ ∧
      twoChecksService.ChecksValid (twoChecksService.run ∅
        [.updateCheck { searchCheck with resultKinds := [] }, .updateCheck cmdCheck]) :=
  have hst : twoChecksService.ChecksValid ∅ := fun _ h => (List.not_mem_nil _ h).elim
  ⟨hst, run_checksValid ∅ _ hst⟩

/-! ## Stored benchmarks name existing checks -/

/-- The ids `filter_checks()` returns: those of the stored checks and of the predefined ones. -/
theorem mem_keys_foldl_overrideStep (cs : List ReportCheck) (k : String) :
    ∀ d : PyDict String ReportCheck, k ∈ (cs.foldl (overrideStep fun _ => true) d).keys ↔
      k ∈ cs.map (·.id) ∨ k ∈ d.keys := by
  induction cs with
  | nil => simp
  | cons c cs ih =>
    intro d
    rw [List.foldl_cons, ih, overrideStep, if_pos rfl, PyDict.mem_keys_insert,
      PyDict.mem_keys_erase, List.map_cons, List.mem_cons]
    by_cases h : k = c.id <;> simp [h]

theorem mem_filterChecks_ids (svc : InspectorService) (k : String) :
    k ∈ (svc.filterChecks none).map (·.id) ↔
      k ∈ svc.checkDb.map (·.id) ∨ k ∈ svc.checksFromFile.values.map (·.id) := by
  rw [filterChecks_eq]
  simp only [Option.all_none, List.filter_true]
  have hkeyed : KeyedById (svc.checkDb.foldl (overrideStep fun _ => true)
      (PyDict.ofList (svc.checksFromFile.values.map fun c => (c.id, c)))) :=
    keyedById_foldl (fun _ => true) svc.checkDb (keyedById_ofList _)
  rw [map_id_values hkeyed, mem_keys_foldl_overrideStep, PyDict.mem_keys_ofList, List.map_map]
  rfl

theorem mem_checkIds_withStore (st : ReportStore) (k : String) :
    k ∈ ((svc.withStore st).filterChecks none).map (·.id) ↔
      k ∈ st.checks.keys ∨ k ∈ svc.checksFromFile.values.map (·.id) := by
  rw [mem_filterChecks_ids, ← PyDict.map_values_keyedBy st.checks_keyed]
  rfl

theorem validateBenchmarkAux_eq_nil_iff (svc : InspectorService) (b : Benchmark) :
    svc.validateBenchmarkAux b = [] ↔
      ∀ check ∈ b.nestedChecks, check ∈ (svc.filterChecks none).map (·.id) := by
  simp [validateBenchmarkAux, List.filter_eq_nil_iff]

/-- Every stored benchmark passes `__validate_benchmark`: the checks it names exist. -/
def BenchmarksValid (st : ReportStore) : Prop :=
  ∀ b ∈ st.benchmarks.values, (svc.withStore st).validateBenchmarkAux b = []

/-- A request that removes no check a stored benchmark names, unless a predefined one. -/
def SafeDelete (st : ReportStore) : StoreRequest → Prop
  | .deleteCheck checkId => checkId ∈ svc.checksFromFile.values.map (·.id) ∨
      ∀ b ∈ st.benchmarks.values, checkId ∉ b.nestedChecks
  | _ => True

theorem benchmarksValid_iff (st : ReportStore) :
    svc.BenchmarksValid st ↔ ∀ b ∈ st.benchmarks.values, ∀ check ∈ b.nestedChecks,
      check ∈ st.checks.keys ∨ check ∈ svc.checksFromFile.values.map (·.id) := by
  simp only [BenchmarksValid, validateBenchmarkAux_eq_nil_iff, mem_checkIds_withStore]

theorem serve_benchmarksValid {st st' : ReportStore} {r : StoreRequest}
    (hst : svc.BenchmarksValid st) (hr : svc.SafeDelete st r) (h : svc.serve st r = .ok st') :
    svc.BenchmarksValid st' := by
  rw [benchmarksValid_iff] at hst ⊢
  rcases serve_eq_ok h with ⟨b, -, -, hv, rfl⟩ | ⟨k, -, -, rfl⟩ | ⟨c, -, -, rfl⟩ | ⟨k, rfl, rfl⟩
  · intro b' hb'
    simp only [ReportStore.updateBenchmarkDb_benchmarks, ReportStore.updateBenchmarkDb_checks]
      at hb' ⊢
    rcases PyDict.mem_values_insert hb' with rfl | hb'
    exacts [fun check hc => (mem_checkIds_withStore st check).mp
      ((validateBenchmarkAux_eq_nil_iff _ _).mp hv check hc), hst b' hb']
  · exact fun b' hb' => hst b' (PyDict.mem_values_erase hb')
  · intro b' hb' check hc
    simp only [ReportStore.updateCheckDb_checks, PyDict.mem_keys_insert]
    exact (hst b' hb' check hc).imp_left .inr
  · intro b' hb' check hc
    simp only [ReportStore.deleteCheckDb_checks, PyDict.mem_keys_erase]
    by_cases hk : check = k
    · subst hk
      exact .inr (hr.resolve_right fun hn => hn b' hb' hc)
    · exact (hst b' hb' check hc).imp_left (⟨hk, ·⟩)

/-- **Stored benchmarks name existing checks** after every run of safe deletes: `delete_check`
itself looks at no benchmark. -/
theorem run_benchmarksValid (st : ReportStore) (requests : List StoreRequest)
    (hst : svc.BenchmarksValid st) (hrun : svc.RunAll svc.SafeDelete st requests) :
    svc.BenchmarksValid (svc.run st requests) :=
  run_invariant svc.BenchmarksValid (fun _ _ _ hst hr h => serve_benchmarksValid hst hr h) hst hrun

theorem run_benchmarksValid_twoChecks :
    twoChecksService.BenchmarksValid ∅ ∧
      twoChecksService.RunAll twoChecksService.SafeDelete ∅
        [.updateBenchmark { testBenchmark with id := "mine" }, .deleteCheck "search"] ∧
      twoChecksService.BenchmarksValid (twoChecksService.run ∅
        [.updateBenchmark { testBenchmark with id := "mine" }, .deleteCheck "search"]) :=
  have hst : twoChecksService.BenchmarksValid ∅ := fun _ h => (List.not_mem_nil _ h).elim
  have hrun : twoChecksService.RunAll twoChecksService.SafeDelete ∅
      [.updateBenchmark { testBenchmark with id := "mine" }, .deleteCheck "search"] :=
    ⟨trivial, .inl (by decide), trivial⟩
  ⟨hst, hrun, run_benchmarksValid ∅ _ hst hrun⟩

/-! ## Listing and reading benchmarks -/

/-- `list_benchmarks()` merges the stored benchmarks into the predefined table, when each
predefined benchmark sits under its id. -/
theorem listBenchmarks_eq (hfile : svc.benchmarksFromFile.KeyedBy Benchmark.id)
    (st : ReportStore) :
    svc.listBenchmarks st = (svc.benchmarksFromFile.merge st.benchmarks).values := by
  rw [listBenchmarks, PyDict.ofList_keyed_values hfile, PyDict.merge,
    ← PyDict.map_keyed_values st.benchmarks_keyed, List.foldl_map]

theorem nodup_listBenchmarks_ids (hfile : svc.benchmarksFromFile.KeyedBy Benchmark.id)
    (st : ReportStore) : ((svc.listBenchmarks st).map Benchmark.id).Nodup := by
  rw [listBenchmarks_eq hfile, PyDict.map_values_keyedBy (PyDict.keyedBy_merge hfile st.benchmarks_keyed)]
  exact PyDict.nodup _

theorem mem_listBenchmarks_iff (hfile : svc.benchmarksFromFile.KeyedBy Benchmark.id)
    (st : ReportStore) (b : Benchmark) :
    b ∈ svc.listBenchmarks st ↔ (svc.withStore st).benchmark b.id = some b := by
  rw [listBenchmarks_eq hfile,
    PyDict.mem_values_iff (PyDict.keyedBy_merge hfile st.benchmarks_keyed), PyDict.get?_merge]
  rfl

/-- **`list_benchmarks` and `benchmark` agree**: distinct ids, and a benchmark is listed iff
`benchmark` returns it for its id. -/
theorem listBenchmarks_agree (hfile : svc.benchmarksFromFile.KeyedBy Benchmark.id)
    (st : ReportStore) :
    ((svc.listBenchmarks st).map Benchmark.id).Nodup ∧
      ∀ b, b ∈ svc.listBenchmarks st ↔ (svc.withStore st).benchmark b.id = some b :=
  ⟨nodup_listBenchmarks_ids hfile st, mem_listBenchmarks_iff hfile st⟩

theorem listBenchmarks_agree_twoChecks :
    twoChecksService.benchmarksFromFile.KeyedBy Benchmark.id ∧
      ((twoChecksService.listBenchmarks ∅).map Benchmark.id).Nodup ∧
      ∀ b, b ∈ twoChecksService.listBenchmarks ∅ ↔
        (twoChecksService.withStore ∅).benchmark b.id = some b :=
  have hfile : twoChecksService.benchmarksFromFile.KeyedBy Benchmark.id :=
    PyDict.keyedBy_ofList Benchmark.id [testBenchmark]
  ⟨hfile, listBenchmarks_agree hfile ∅⟩

/-- **Updating and deleting a user benchmark show in both reads**, `benchmark` and
`list_benchmarks`. -/
theorem listBenchmarks_update_delete (hfile : svc.benchmarksFromFile.KeyedBy Benchmark.id)
    (st : ReportStore) :
    (∀ b st' b', svc.updateBenchmark st b = .ok (st', b') →
      b' = b ∧ (svc.withStore st').benchmark b.id = some b ∧ b ∈ svc.listBenchmarks st') ∧
    (∀ bid st', svc.deleteBenchmark st bid = .ok st' →
      (svc.withStore st').benchmark bid = none ∧
        bid ∉ (svc.listBenchmarks st').map Benchmark.id) := by
  refine ⟨fun b st' b' h => ?_, fun bid st' h => ?_⟩
  · obtain ⟨-, -, h⟩ := updateBenchmark_eq_ok.mp h
    obtain ⟨rfl, hb'⟩ := Prod.mk.inj h
    subst b'
    have hget : (svc.withStore (st.updateBenchmarkDb b)).benchmark b.id = some b := by
      show ((st.benchmarks.insert b.id b).get? b.id).or _ = _
      rw [PyDict.get?_insert, if_pos rfl, Option.or_some]
    exact ⟨rfl, hget, (mem_listBenchmarks_iff hfile _ b).mpr hget⟩
  · obtain ⟨hb, rfl⟩ := deleteBenchmark_eq_ok.mp h
    have hget : (svc.withStore (st.deleteBenchmarkDb bid)).benchmark bid = none := by
      show ((st.benchmarks.erase bid).get? bid).or (svc.benchmarksFromFile.get? bid) = _
      rw [PyDict.get?_erase, if_pos rfl, Option.none_or, PyDict.get?_eq_none]
      exact hb
    refine ⟨hget, fun hmem => ?_⟩
    obtain ⟨b, hmem, rfl⟩ := List.mem_map.mp hmem
    rw [(mem_listBenchmarks_iff hfile _ b).mp hmem] at hget
    exact Option.some_ne_none _ hget

theorem listBenchmarks_update_delete_twoChecks :
    twoChecksService.benchmarksFromFile.KeyedBy Benchmark.id ∧
    (∀ b st' b', twoChecksService.updateBenchmark ∅ b = .ok (st', b') →
      b' = b ∧ (twoChecksService.withStore st').benchmark b.id = some b ∧
        b ∈ twoChecksService.listBenchmarks st') ∧
    (∀ bid st', twoChecksService.deleteBenchmark ∅ bid = .ok st' →
      (twoChecksService.withStore st').benchmark bid = none ∧
        bid ∉ (twoChecksService.listBenchmarks st').map Benchmark.id) :=
  have hfile : twoChecksService.benchmarksFromFile.KeyedBy Benchmark.id :=
    PyDict.keyedBy_ofList Benchmark.id [testBenchmark]
  ⟨hfile, listBenchmarks_update_delete hfile ∅⟩

end InspectorService

end Resoto
