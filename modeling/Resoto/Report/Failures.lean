import Resoto.Report.CompletionOrder

/-!
# A failing check aborts the run

The spec asks that a failure of one check's evaluation be logged and demoted to an empty
result. In `__list_failing_resources` only the search itself sits in a `try`:
`parse_query` in `perform_search`, and `execute_cli_command` in `perform_cmd`, are awaited
outside it. What they raise leaves `__perform_check`, which has no `try` either, ends the
stream of `__perform_checks`, and leaves `perform_benchmarks` and `perform_checks`
(`performChecksAux_raises_of_parseQuery`). And where the `try` does catch, after the
cursor has yielded rows, the rows yielded so far stay the check's result.
-/

namespace Resoto

namespace InspectorService

variable (svc : InspectorService) (context : CheckContext) (config : ReportConfig)

/-- A check whose `resoto` search `parse_query` rejects raises in its evaluation. -/
theorem performCheck_of_parseQuery {check : ReportCheck} {search : String}
    (hs : check.detectValue "resoto" = some search) {e : PyError}
    (he : svc.parseQuery search "reported" (check.environment config.overrideValues) = .error e) :
    svc.performCheck check config context = .error e := by
  simp only [performCheck, listFailingResourcesAux, hs, performSearch, he]
  rfl

/-- **A detection that does not parse aborts the batch.** If one of the checks whose
evaluations complete in the order `completed` has a `resoto` search that `parse_query`
rejects, `__perform_checks` raises, whatever the other checks do. -/
theorem performChecksAux_raises_of_parseQuery {completed : List ReportCheck}
    (hn : (completed.map (·.id)).Nodup) {check : ReportCheck} (hc : check ∈ completed)
    {search : String} (hs : check.detectValue "resoto" = some search) {e : PyError}
    (he : svc.parseQuery search "reported" (check.environment config.overrideValues) = .error e) :
    ∃ e', svc.performChecksAux context config completed = .error e' := by
  cases h : svc.performChecksAux context config completed with
  | error e' => exact ⟨e', rfl⟩
  | ok d =>
    obtain ⟨r, hr⟩ := (svc.foldlM_performChecksStep context config hn).1.mp ⟨d, h⟩ check hc
    rw [svc.performCheck_of_parseQuery context config hs he] at hr
    cases hr

/-- The service of `performChecksAux_completion_order_twoChecks` whose template expander
rejects every search. -/
def parseFailsService : InspectorService :=
  { twoChecksService with parseQuery := fun _ _ _ => .error (.exception "parse error") }

theorem performChecksAux_raises_of_parseQuery_parseFails :
    ∃ e', parseFailsService.performChecksAux {} {} [cmdCheck, searchCheck] = .error e' :=
  performChecksAux_raises_of_parseQuery parseFailsService {} {} (by decide)
    (List.mem_cons_of_mem _ (List.mem_singleton_self _)) rfl rfl

/-- **A failing check aborts `perform_benchmarks`, and a failing cursor keeps its rows.**
On the benchmark `test` of a search check and a command check: a template expander that
rejects the search, or a CLI that raises on the command, makes `perform_benchmarks` raise
instead of returning the other check's result; and a cursor that raises after yielding
`instanceRow` leaves that row, under account `acc1`, as the search check's result. -/
theorem performBenchmarks_failing_check :
    parseFailsService.performBenchmarks id ["test"] = .error (.exception "parse error") ∧
    { twoChecksService with executeCliCommand := fun _ _ => .error (.exception "cli error") }.performBenchmarks
        id ["test"] = .error (.exception "cli error") ∧
    ∃ results, { twoChecksService with searchList := fun _ => ([instanceRow], some (.exception "cursor")) }.performChecksAux
        {} {} [searchCheck, cmdCheck] = .ok results ∧
      results.get? "search" = some (groupByAccount [instanceRow]) ∧
      (groupByAccount [instanceRow]).keys = [.str "acc1"] :=
  ⟨rfl, rfl, _, rfl, rfl, rfl⟩

end InspectorService

end Resoto
