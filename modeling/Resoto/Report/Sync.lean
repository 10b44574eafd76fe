import Resoto.Report.SecuritySection

/-!
# `perform_benchmarks` with `sync_security_section`

`__benchmarks_to_security_iterator` raises a `KeyError` on a failing resource without a
`node_id`, but the results of `perform_benchmarks` hold none: every failing resource is a
`ReportResourceData` projection, made by `__perform_check`, kept by `__perform_checks`,
and copied into the result trees by `__to_result`, and a projection always has the key
(`NodeIdsOf`). So with `sync_security_section` the call returns the results of the run
without it exactly when the write of their security issues succeeds
(`performBenchmarks_sync`).
-/

namespace Resoto

namespace InspectorService

/-! ## Every failing resource is a projection -/

/-- Every resource of a per-account map has a `node_id`. -/
def NodeIdsOf (resources : PyDict Json (List Json)) : Prop :=
  ∀ rs ∈ resources.values, ∀ r ∈ rs, (r.get? "node_id").isSome

theorem nodeIdsOf_empty : NodeIdsOf ∅ := by simp [NodeIdsOf, PyDict.values]

theorem bendResourceData_nodeId (row : Json) : ((bendResourceData row).get? "node_id").isSome := rfl

theorem nodeIdsOf_appendAt {d : PyDict Json (List Json)} (hd : NodeIdsOf d) (k : Json)
    {r : Json} (hr : (r.get? "node_id").isSome) : NodeIdsOf (d.appendAt k r) := by
  intro rs hrs x hx
  rcases PyDict.mem_values_insert hrs with rfl | hrs
  · rcases List.mem_append.mp hx with hx | hx
    · cases hget : d.get? k with
      | none => simp [hget] at hx
      | some l =>
        rw [hget, Option.getD_some] at hx
        exact hd l (List.mem_map_of_mem Prod.snd (findValue_mem hget)) x hx
    · rw [List.mem_singleton.mp hx]
      exact hr
  · exact hd rs hrs x hx

theorem nodeIdsOf_groupByAccount (rows : List Json) : NodeIdsOf (groupByAccount rows) := by
  suffices ∀ d, NodeIdsOf d → NodeIdsOf (rows.foldl (fun resourcesByAccount resource =>
      match valueInPath resource NodePath.ancestorAccountId with
      | some accountId =>
        if accountId.truthy then resourcesByAccount.appendAt accountId (bendResourceData resource)
        else resourcesByAccount
      | none => resourcesByAccount) d) from this ∅ nodeIdsOf_empty
  induction rows with
  | nil => exact fun _ => id
  | cons row rows ih =>
    refine fun d hd => ih _ ?_
    dsimp only
    split
    · split
      exacts [nodeIdsOf_appendAt hd _ (bendResourceData_nodeId row), hd]
    · exact hd

variable (svc : InspectorService) (context : CheckContext) (config : ReportConfig)

theorem nodeIdsOf_performCheck {check : ReportCheck} {r : SingleCheckResult}
    (h : svc.performCheck check config context = .ok r) : NodeIdsOf r := by
  obtain ⟨rows, -, hr⟩ := Except.bind_eq_ok.mp h
  rw [← Except.pure_eq_ok.mp hr]
  exact nodeIdsOf_groupByAccount rows

/-- Every result `__perform_checks` returns is one of `__perform_check`. -/
theorem nodeIdsOf_performChecksAux {completed : List ReportCheck}
    {results : PyDict String SingleCheckResult}
    (h : svc.performChecksAux context config completed = .ok results) :
    ∀ v ∈ results.values, NodeIdsOf v := by
  suffices ∀ d : PyDict String SingleCheckResult, (∀ v ∈ d.values, NodeIdsOf v) →
      completed.foldlM (svc.performChecksStep context config) d = .ok results →
      ∀ v ∈ results.values, NodeIdsOf v from this ∅ (by simp [PyDict.values]) h
  clear h
  induction completed with
  | nil => exact fun d hd h => Except.ok.inj h ▸ hd
  | cons c cs ih =>
    intro d hd h
    obtain ⟨d₁, h₁, h⟩ := Except.bind_eq_ok.mp h
    obtain ⟨r, hr, rfl⟩ := (performChecksStep_eq_ok svc).mp h₁
    refine ih _ (fun v hv => ?_) h
    rcases PyDict.mem_values_insert hv with rfl | hv
    exacts [svc.nodeIdsOf_performCheck context config hr, hd v hv]

/-! ## The result trees copy the results -/

section Trees

variable {checkById : PyDict String ReportCheck} {results : PyDict String SingleCheckResult}

theorem nodeIdsOf_checkResults (hr : ∀ v ∈ results.values, NodeIdsOf v) (cids : List String) :
    ∀ c ∈ checkResults checkById results cids, NodeIdsOf c.resourcesFailingByAccount := by
  intro c hc
  obtain ⟨cid, -, hc⟩ := List.mem_filterMap.mp hc
  obtain ⟨check, -, rfl⟩ := Option.map_eq_some'.mp hc
  cases hget : results.get? cid with
  | none => exact nodeIdsOf_empty
  | some v => exact hr v (List.mem_map_of_mem Prod.snd (findValue_mem hget))

mutual

theorem nodeIdsOf_toResult (hr : ∀ v ∈ results.values, NodeIdsOf v) :
    ∀ cc, ∀ c ∈ (toResult checkById results cc).allChecks, NodeIdsOf c.resourcesFailingByAccount
  | ⟨_, _, _, checks, children⟩, c, hc => by
    rw [toResult, CheckCollectionResult.allChecks, List.mem_append] at hc
    exact hc.elim (nodeIdsOf_checkResults hr checks c) (nodeIdsOf_toResultOf hr children c)
termination_by structural cc => cc

theorem nodeIdsOf_toResultOf (hr : ∀ v ∈ results.values, NodeIdsOf v) :
    ∀ cs, ∀ c ∈ CheckCollectionResult.allChecksOf (toResultOf checkById results cs),
      NodeIdsOf c.resourcesFailingByAccount
  | [], c, hc => by simp [toResultOf, CheckCollectionResult.allChecksOf] at hc
  | cc :: cs, c, hc => by
    rw [toResultOf, CheckCollectionResult.allChecksOf, List.mem_append] at hc
    exact hc.elim (nodeIdsOf_toResult hr cc c) (nodeIdsOf_toResultOf hr cs c)
termination_by structural cs => cs

end

mutual

/-- `filter_result` keeps a subset of the check results. -/
theorem allChecks_onlyFailing :
    ∀ (t : CheckCollectionResult), ∀ c ∈ t.onlyFailing.allChecks, c ∈ t.allChecks
  | ⟨_, _, _, checks, children⟩, c, hc => by
    rw [CheckCollectionResult.onlyFailing, CheckCollectionResult.allChecks, List.mem_append] at hc
    rw [CheckCollectionResult.allChecks, List.mem_append]
    exact hc.imp (List.mem_of_mem_filter) (allChecks_onlyFailingOf children c)
termination_by structural t => t

theorem allChecks_onlyFailingOf : ∀ (ts : List CheckCollectionResult),
    ∀ c ∈ CheckCollectionResult.allChecksOf (CheckCollectionResult.onlyFailingOf ts),
      c ∈ CheckCollectionResult.allChecksOf ts
  | [], c, hc => by simp [CheckCollectionResult.onlyFailingOf, CheckCollectionResult.allChecksOf] at hc
  | t :: ts, c, hc => by
    rw [CheckCollectionResult.allChecksOf, List.mem_append]
    rw [CheckCollectionResult.onlyFailingOf] at hc
    split at hc
    · exact .inr (allChecks_onlyFailingOf ts c hc)
    · rw [CheckCollectionResult.allChecksOf, List.mem_append] at hc
      exact hc.imp (allChecks_onlyFailing t c) (allChecks_onlyFailingOf ts c)
termination_by structural ts => ts

end

theorem nodeIdsOf_toResultAux (hr : ∀ v ∈ results.values, NodeIdsOf v) (benchmark : Benchmark) :
    ∀ c ∈ (toResultAux benchmark checkById results context).allChecks,
      NodeIdsOf c.resourcesFailingByAccount := by
  intro c hc
  have htop : ∀ c ∈ ((toResult checkById results benchmark.toCheckCollection).filterResult
      context.onlyFailed).allChecks, NodeIdsOf c.resourcesFailingByAccount := by
    unfold CheckCollectionResult.filterResult
    split
    · exact fun c hc => nodeIdsOf_toResult hr _ c (allChecks_onlyFailing _ c hc)
    · exact nodeIdsOf_toResult hr _
  revert hc
  unfold toResultAux
  generalize (toResult checkById results benchmark.toCheckCollection).filterResult context.onlyFailed = top at htop
  cases top
  exact htop c

end Trees

/-! ## The write of the security section -/

/-- **With `sync_security_section`, `perform_benchmarks` returns its results exactly when
their security issues are written.** Whatever the order in which the checks complete, when
the run without the write returns `results`, the iterator over them raises nothing, and the
run with the write returns `results` iff `update_security_section` accepts the issues. -/
theorem performBenchmarks_sync (schedule : List ReportCheck → List ReportCheck)
    (benchmarkNames : List String) (accounts : Option (List String))
    (severity : Option ReportSeverity) (onlyFailing : Bool) {results : PyDict String BenchmarkResult}
    (h : svc.performBenchmarks schedule benchmarkNames accounts severity onlyFailing false = .ok results) :
    ∃ issues, benchmarksToSecurityIteratorAux results = .ok issues ∧
      svc.performBenchmarks schedule benchmarkNames accounts severity onlyFailing true =
        (svc.updateSecuritySection issues accounts).map fun _ => results := by
  unfold performBenchmarks at h ⊢
  obtain ⟨a, ha, _, -, hres⟩ := by simpa only [Except.bind_eq_ok, if_false, Bool.false_eq_true] using h
  have hid : ∀ b ∈ results.values, ∀ c ∈ b.allChecks, ∀ r ∈ c.failingResources,
      (r.get? "node_id").isSome := by
    rw [← Except.pure_eq_ok.mp hres]
    intro b hb c hc r hr
    obtain ⟨_, hx, rfl⟩ := List.mem_map.mp (PyDict.mem_values_ofList hb)
    obtain ⟨⟨name, bench⟩, -, rfl⟩ := List.mem_map.mp hx
    obtain ⟨rs, hrs, hr⟩ := List.mem_flatten.mp hr
    exact nodeIdsOf_toResultAux _ (svc.nodeIdsOf_performChecksAux _ _ ha) bench c hc rs hrs r hr
  refine ⟨_, benchmarksToSecurityIteratorAux_eq results hid, ?_⟩
  simp only [ha, if_true, bind, Except.bind, Except.pure_eq_ok.mp hres,
    benchmarksToSecurityIteratorAux_eq results hid]
  cases svc.updateSecuritySection _ accounts <;> rfl

theorem performBenchmarks_sync_test :
    ∃ results issues, twoChecksService.performBenchmarks id ["test"] none none false false = .ok results ∧
      benchmarksToSecurityIteratorAux results = .ok issues ∧
      twoChecksService.performBenchmarks id ["test"] none none false true =
        (twoChecksService.updateSecuritySection issues none).map fun _ => results :=
  have ⟨issues, h₁, h₂⟩ := performBenchmarks_sync twoChecksService id ["test"] none none false rfl
  ⟨_, issues, rfl, h₁, h₂⟩

end InspectorService

end Resoto
