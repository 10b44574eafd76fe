import Resoto.Report.CompletionOrder

/-!
# Stored checks override the predefined ones

`filter_checks(f)` starts from the predefined checks that pass `f`; for each check the check
db streams, it pops the check's id and sets it again when the check passes. The spec:
"user-defined entries, stored via the configuration store, override predefined ones by id".
The entry of an id is so the last stored check of that id, else the predefined one
(`effectiveCheck`), and `filter_checks(f)` returns the entries that pass `f`:

* one step of the loop commutes with filtering the dict (`overrideStep_filterValues`), so
  filtering while overriding is overriding first and filtering after;
* after the loop without a filter, each id holds its effective check
  (`get?_foldl_overrideStep`).

The pop before the filter is what makes this hold: a stored check that fails `f` still
removes the predefined check of its id.
-/

namespace Resoto

/-- Every check of `checks_from_file()` sits under its own id. -/
theorem keyedById_checksFromFile (collections : List (List ReportCheck)) :
    InspectorService.KeyedById (checksFromFile collections) := by
  suffices ∀ d, InspectorService.KeyedById d → InspectorService.KeyedById
      (collections.foldl (fun result checks =>
        checks.foldl (fun result check => result.insert check.id check) result) d) from
    this ∅ fun _ h => by simp at h
  induction collections with
  | nil => exact fun _ => id
  | cons checks collections ih =>
    refine fun d hd => ih _ ?_
    induction checks generalizing d with
    | nil => exact hd
    | cons c cs ihc => exact ihc _ (InspectorService.keyedById_insert hd c)

theorem getLast?_cons_eq_or {α : Type} (c : α) (l : List α) :
    (c :: l).getLast? = l.getLast?.or (some c) := by
  cases l with
  | nil => rfl
  | cons b l =>
    rw [List.getLast?_cons_cons]
    cases h : (b :: l).getLast? with
    | none => simp at h
    | some x => rfl

namespace InspectorService

variable (svc : InspectorService)

/-! ## The loop over the stored checks -/

/-- One check `c` of `report_check_db.all()` in `filter_checks`: `result.pop(c.id, None)`,
then `result[c.id] = c` when `c` passes. -/
def overrideStep (passes : ReportCheck → Bool) (result : PyDict String ReportCheck)
    (c : ReportCheck) : PyDict String ReportCheck :=
  let result := result.erase c.id
  if passes c then result.insert c.id c else result

theorem filterChecks_eq (reportFilter : Option (ReportCheck → Bool)) :
    svc.filterChecks reportFilter =
      (svc.checkDb.foldl (overrideStep fun c => reportFilter.all fun f => f c)
        (PyDict.ofList ((svc.checksFromFile.values.filter fun c => reportFilter.all fun f => f c).map
          fun c => (c.id, c)))).values := rfl

/-- The step lemma: overriding in the filtered dict is filtering the overridden one. -/
theorem overrideStep_filterValues (f : ReportCheck → Bool) (d : PyDict String ReportCheck)
    (c : ReportCheck) :
    overrideStep f (d.filterValues f) c = (overrideStep (fun _ => true) d c).filterValues f := by
  simp only [overrideStep, if_true, PyDict.filterValues_insert_erase, PyDict.filterValues_erase]

theorem foldl_overrideStep_filterValues (f : ReportCheck → Bool) (cs : List ReportCheck) :
    ∀ d : PyDict String ReportCheck, cs.foldl (overrideStep f) (d.filterValues f) =
      (cs.foldl (overrideStep fun _ => true) d).filterValues f := by
  induction cs with
  | nil => exact fun _ => rfl
  | cons c cs ih => exact fun d => by rw [List.foldl_cons, overrideStep_filterValues, ih, List.foldl_cons]

/-- After the loop, an id holds the last stored check of that id, else what it held. -/
theorem get?_foldl_overrideStep (cs : List ReportCheck) (k : String) :
    ∀ d : PyDict String ReportCheck, (cs.foldl (overrideStep fun _ => true) d).get? k =
      ((cs.filter (·.id == k)).getLast?).or (d.get? k) := by
  induction cs with
  | nil => exact fun _ => rfl
  | cons c cs ih =>
    intro d
    rw [List.foldl_cons, ih, overrideStep, if_pos rfl, PyDict.get?_insert, PyDict.get?_erase]
    by_cases hc : c.id = k
    · simp only [hc, if_true, List.filter_cons, beq_self_eq_true, getLast?_cons_eq_or]
      cases (cs.filter (·.id == k)).getLast? <;> rfl
    · simp [hc]

/-! ## Effective checks -/

/-- Modelled from the spec: the effective check of an id, "user-defined entries … override
predefined ones by id": the last check of that id the check db streams, else the
predefined one. -/
def effectiveCheck (k : String) : Option ReportCheck :=
  ((svc.checkDb.filter (·.id == k)).getLast?).or (svc.checksFromFile.get? k)

variable {svc}

/-- The predefined checks, unfiltered, rebuilt by the comprehension of `filter_checks`. -/
theorem ofList_filter_checksFromFile (hfile : KeyedById svc.checksFromFile) (f : ReportCheck → Bool) :
    PyDict.ofList ((svc.checksFromFile.values.filter f).map fun c => (c.id, c)) =
      svc.checksFromFile.filterValues f := by
  rw [← PyDict.values_filterValues]
  exact PyDict.ofList_keyed_values (PyDict.keyedBy_filterValues hfile f)

theorem filterChecks_none (hfile : KeyedById svc.checksFromFile) :
    svc.filterChecks none =
      (svc.checkDb.foldl (overrideStep fun _ => true) svc.checksFromFile).values := by
  rw [filterChecks_eq]
  simp only [Option.all_none]
  rw [List.filter_true, PyDict.ofList_keyed_values hfile]

theorem filterChecks_some (hfile : KeyedById svc.checksFromFile) (f : ReportCheck → Bool) :
    svc.filterChecks (some f) = (svc.filterChecks none).filter f := by
  rw [filterChecks_eq, filterChecks_none hfile]
  simp only [Option.all_some]
  rw [ofList_filter_checksFromFile hfile, foldl_overrideStep_filterValues,
    PyDict.values_filterValues]

theorem mem_filterChecks_none (hfile : KeyedById svc.checksFromFile) (c : ReportCheck) :
    c ∈ svc.filterChecks none ↔ svc.effectiveCheck c.id = some c := by
  have hkeyed : PyDict.KeyedBy ReportCheck.id
      (svc.checkDb.foldl (overrideStep fun _ => true) svc.checksFromFile) :=
    keyedById_foldl (fun _ => true) svc.checkDb hfile
  rw [filterChecks_none hfile, PyDict.mem_values_iff hkeyed]
  exact Eq.congr_left (get?_foldl_overrideStep _ _ _)

/-- `list_checks(context=CheckContext(severity=S))` asks for the severities from `S` up. -/
theorem inspectionMatches_severity (S : ReportSeverity) (c : ReportCheck) :
    ListChecksArgs.inspectionMatches { context := some { severity := some S } } c =
      decide (S.prio ≤ c.severity.prio) := by
  simp [ListChecksArgs.inspectionMatches, CheckContext.includesSeverity]

/-- **`filter_checks(f)` returns the effective checks that pass `f`.** For every table
`checks_from_file()` builds from the check collections of the files, every stream of stored
checks and every `f`: the ids returned are distinct; a check is returned iff it is the
effective check of its id and passes `f`; so filtering while overriding is overriding and
then filtering; and `list_checks(context=CheckContext(severity=S))` returns the effective
checks of a severity from `S` up. -/
theorem filterChecks_effective (collections : List (List ReportCheck))
    (hfile : svc.checksFromFile = Resoto.checksFromFile collections) (f : ReportCheck → Bool) :
    ((svc.filterChecks (some f)).map (·.id)).Nodup ∧
    (∀ c, c ∈ svc.filterChecks (some f) ↔ svc.effectiveCheck c.id = some c ∧ f c = true) ∧
    svc.filterChecks (some f) = (svc.filterChecks none).filter f ∧
    ∀ (S : ReportSeverity) (c : ReportCheck),
      c ∈ svc.listChecks { context := some { severity := some S } } ↔
        svc.effectiveCheck c.id = some c ∧ S.prio ≤ c.severity.prio := by
  have hkeyed : KeyedById svc.checksFromFile := hfile ▸ keyedById_checksFromFile collections
  have hmem : ∀ g c, c ∈ svc.filterChecks (some g) ↔ svc.effectiveCheck c.id = some c ∧ g c = true :=
    fun g c => by rw [filterChecks_some hkeyed, List.mem_filter, mem_filterChecks_none hkeyed]
  refine ⟨svc.filterChecks_nodup _, hmem f, filterChecks_some hkeyed f, fun S c => ?_⟩
  rw [listChecks, hmem, inspectionMatches_severity, decide_eq_true_iff]

/-- The predefined checks with the search check stored again at a low severity. -/
def overriddenService : InspectorService :=
  { twoChecksService with
    checksFromFile := Resoto.checksFromFile [[searchCheck, cmdCheck]]
    checkDb := [{ searchCheck with severity := .low }] }

theorem filterChecks_effective_overridden :
    overriddenService.checksFromFile = Resoto.checksFromFile [[searchCheck, cmdCheck]] ∧
    ((overriddenService.filterChecks (some fun c => decide (3 ≤ c.severity.prio))).map (·.id)).Nodup ∧
    (∀ c, c ∈ overriddenService.filterChecks (some fun c => decide (3 ≤ c.severity.prio)) ↔
      overriddenService.effectiveCheck c.id = some c ∧ decide (3 ≤ c.severity.prio) = true) ∧
    overriddenService.filterChecks (some fun c => decide (3 ≤ c.severity.prio)) =
      (overriddenService.filterChecks none).filter (fun c => decide (3 ≤ c.severity.prio)) ∧
    ∀ (S : ReportSeverity) (c : ReportCheck),
      c ∈ overriddenService.listChecks { context := some { severity := some S } } ↔
        overriddenService.effectiveCheck c.id = some c ∧ S.prio ≤ c.severity.prio :=
  ⟨rfl, filterChecks_effective [[searchCheck, cmdCheck]] rfl _⟩

/-- The stored low-severity search check hides the predefined high one from a filter on high
severity. -/
example : (overriddenService.filterChecks (some fun c => decide (3 ≤ c.severity.prio))).map (·.id) =
    ["cmd"] := by
  rfl

end InspectorService

end Resoto
