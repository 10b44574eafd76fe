import Resoto.Report.Inspector

/-!
# The results of a run do not depend on the order in which the checks complete

`__perform_checks` evaluates the checks concurrently and folds the `(check.id, result)`
pairs into a dict in the order they complete. The fold keeps the last result of an id, so
the order could decide which result stays if two checks shared an id. `filter_checks`
returns the values of a dict keyed by check id, so no two of its checks do
(`filterChecks_nodup`), and then the fold holds, under each id, the result of the one
check of that id (`get?_performChecksAux`), whatever the order. `__to_result` reads the map
only through `get`, so the result trees are the same too.
-/

namespace Resoto

namespace InspectorService

variable (svc : InspectorService)

/-! ## `filter_checks` returns one check per id -/

/-- Every check of the dict sits under its own id. -/
def KeyedById (d : PyDict String ReportCheck) : Prop := ∀ e ∈ d.items, e.2.id = e.1

theorem keyedById_insert {d : PyDict String ReportCheck} (hd : KeyedById d) (c : ReportCheck) :
    KeyedById (d.insert c.id c) := fun e he => by
  rcases PyDict.mem_items_insert he with rfl | he
  exacts [rfl, hd e he]

theorem keyedById_erase {d : PyDict String ReportCheck} (hd : KeyedById d) (k : String) :
    KeyedById (d.erase k) := fun e he => hd e (List.mem_of_mem_filter he)

theorem keyedById_ofList (cs : List ReportCheck) :
    KeyedById (PyDict.ofList (cs.map fun c => (c.id, c))) := by
  suffices ∀ d : PyDict String ReportCheck, KeyedById d →
      KeyedById ((cs.map fun c => (c.id, c)).foldl (fun d e => d.insert e.1 e.2) d) from
    this ∅ (by simp [KeyedById])
  induction cs with
  | nil => exact fun d hd => hd
  | cons c cs ih => exact fun d hd => ih _ (keyedById_insert hd c)

theorem map_id_values {d : PyDict String ReportCheck} (hd : KeyedById d) :
    d.values.map (·.id) = d.keys := by
  simp only [PyDict.values, PyDict.keys, List.map_map]
  exact List.map_congr_left fun e he => hd e he

/-- The loop of `filter_checks` over the stored checks keeps every check under its id. -/
theorem keyedById_foldl (passes : ReportCheck → Bool) (cs : List ReportCheck) :
    ∀ {d : PyDict String ReportCheck}, KeyedById d →
    KeyedById (cs.foldl (fun result c =>
      let result := result.erase c.id
      if passes c then result.insert c.id c else result) d) := by
  induction cs with
  | nil => exact id
  | cons c cs ih =>
    intro d hd
    have := keyedById_erase hd c.id
    refine ih ?_
    dsimp only
    split
    exacts [keyedById_insert this c, this]

/-- **`filter_checks` returns checks with pairwise distinct ids.** -/
theorem filterChecks_nodup (reportFilter : Option (ReportCheck → Bool)) :
    ((svc.filterChecks reportFilter).map (·.id)).Nodup := by
  simp only [filterChecks]
  rw [map_id_values (keyedById_foldl _ _ (keyedById_ofList _))]
  exact PyDict.nodup _

/-! ## The fold of `__perform_checks` -/

variable (context : CheckContext) (config : ReportConfig)

/-- The fold from any dict: it succeeds iff every evaluation does, and then it holds each
check's result under the check's id and leaves every other id alone. -/
theorem foldlM_performChecksStep {cs : List ReportCheck} (hn : (cs.map (·.id)).Nodup) :
    ∀ {d₀ : PyDict String SingleCheckResult},
    ((∃ d, cs.foldlM (svc.performChecksStep context config) d₀ = .ok d) ↔
      ∀ c ∈ cs, ∃ r, svc.performCheck c config context = .ok r) ∧
    ∀ {d}, cs.foldlM (svc.performChecksStep context config) d₀ = .ok d →
      (∀ c ∈ cs, ∃ r, svc.performCheck c config context = .ok r ∧ d.get? c.id = some r) ∧
      ∀ k ∉ cs.map (·.id), d.get? k = d₀.get? k := by
  induction cs with
  | nil => simp
  | cons c cs ih =>
    intro d₀
    rw [List.map_cons, List.nodup_cons] at hn
    have hcons : ∀ {d}, (c :: cs).foldlM (svc.performChecksStep context config) d₀ = .ok d ↔
        ∃ r, svc.performCheck c config context = .ok r ∧
          cs.foldlM (svc.performChecksStep context config) (d₀.insert c.id r) = .ok d := by
      intro d
      simp only [List.foldlM_cons, Except.bind_eq_ok, performChecksStep_eq_ok]
      exact ⟨fun ⟨_, ⟨r, hr, he⟩, hd⟩ => ⟨r, hr, he ▸ hd⟩, fun ⟨r, hr, hd⟩ => ⟨_, ⟨r, hr, rfl⟩, hd⟩⟩
    refine ⟨⟨fun ⟨d, hd⟩ => ?_, fun hall => ?_⟩, fun hd => ?_⟩
    · obtain ⟨r, hr, hd⟩ := hcons.mp hd
      exact List.forall_mem_cons.mpr ⟨⟨r, hr⟩, (ih hn.2).1.mp ⟨d, hd⟩⟩
    · obtain ⟨⟨r, hr⟩, hcs⟩ := List.forall_mem_cons.mp hall
      obtain ⟨d, hd⟩ := (ih hn.2).1.mpr hcs
      exact ⟨d, hcons.mpr ⟨r, hr, hd⟩⟩
    · obtain ⟨r, hr, hd⟩ := hcons.mp hd
      obtain ⟨hcs, hrest⟩ := (ih hn.2).2 hd
      refine ⟨List.forall_mem_cons.mpr ⟨⟨r, hr, ?_⟩, hcs⟩, fun k hk => ?_⟩
      · rw [hrest c.id hn.1, PyDict.get?_insert, if_pos rfl]
      · rw [List.map_cons, List.mem_cons, not_or] at hk
        rw [hrest k hk.2, PyDict.get?_insert, if_neg (Ne.symm hk.1)]

/-- What `__perform_checks` returns, for checks of distinct ids: under each key, the result
of the check of that id. -/
theorem get?_performChecksAux {completed : List ReportCheck} (hn : (completed.map (·.id)).Nodup)
    {d : PyDict String SingleCheckResult} (h : svc.performChecksAux context config completed = .ok d)
    (k : String) (r : SingleCheckResult) :
    d.get? k = some r ↔ ∃ c ∈ completed, c.id = k ∧ svc.performCheck c config context = .ok r := by
  obtain ⟨hcs, hrest⟩ := (svc.foldlM_performChecksStep context config hn).2 h
  constructor
  · intro hk
    by_cases hmem : k ∈ completed.map (·.id)
    · obtain ⟨c, hc, rfl⟩ := List.mem_map.mp hmem
      obtain ⟨r', hr', hget⟩ := hcs c hc
      exact ⟨c, hc, rfl, by rw [hr', ← Option.some.inj (hget.symm.trans hk)]⟩
    · simp [hrest k hmem] at hk
  · rintro ⟨c, hc, rfl, hr⟩
    obtain ⟨r', hr', hget⟩ := hcs c hc
    rw [hget, ← Except.ok.inj (hr'.symm.trans hr)]

/-! ## The result trees -/

section Congr

variable {checkById : PyDict String ReportCheck} {r₁ r₂ : PyDict String SingleCheckResult}

mutual

/-- `to_result` reads the results only through `get`. -/
theorem toResult_congr (h : r₁.get? = r₂.get?) :
    ∀ cc, toResult checkById r₁ cc = toResult checkById r₂ cc
  | ⟨_, _, _, checks, children⟩ => by
    simp only [toResult, checkResults, h, toResultOf_congr h children]
termination_by structural cc => cc

theorem toResultOf_congr (h : r₁.get? = r₂.get?) :
    ∀ cs, toResultOf checkById r₁ cs = toResultOf checkById r₂ cs
  | [] => rfl
  | c :: cs => by simp only [toResultOf, toResult_congr h c, toResultOf_congr h cs]
termination_by structural cs => cs

end

end Congr

/-- **The completion order does not change the results.** The checks `list_checks`
returns have distinct ids, so each is evaluated once. For any two orders in which their
evaluations complete, `__perform_checks` raises in both or in neither; otherwise each map
holds, under each check's id, that check's result and nothing else, the two maps agree
under every key, and `__to_result` builds the same result tree from both. -/
theorem performChecksAux_completion_order (args : ListChecksArgs)
    {completed₁ completed₂ : List ReportCheck} (h₁ : completed₁.Perm (svc.listChecks args))
    (h₂ : completed₂.Perm (svc.listChecks args)) :
    ((svc.listChecks args).map (·.id)).Nodup ∧
    ((∃ d, svc.performChecksAux context config completed₁ = .ok d) ↔
      ∃ d, svc.performChecksAux context config completed₂ = .ok d) ∧
    ∀ {d₁ d₂}, svc.performChecksAux context config completed₁ = .ok d₁ →
      svc.performChecksAux context config completed₂ = .ok d₂ →
      (∀ k r, d₁.get? k = some r ↔
        ∃ c ∈ svc.listChecks args, c.id = k ∧ svc.performCheck c config context = .ok r) ∧
      (∀ k, d₁.get? k = d₂.get? k) ∧
      ∀ benchmark checkById,
        toResultAux benchmark checkById d₁ context = toResultAux benchmark checkById d₂ context := by
  have hn := svc.filterChecks_nodup (some args.inspectionMatches)
  have hn₁ := (h₁.map (·.id)).nodup_iff.mpr hn
  have hn₂ := (h₂.map (·.id)).nodup_iff.mpr hn
  refine ⟨hn, ?_, fun {d₁ d₂} hd₁ hd₂ => ?_⟩
  · rw [performChecksAux, performChecksAux, (svc.foldlM_performChecksStep context config hn₁).1,
      (svc.foldlM_performChecksStep context config hn₂).1]
    exact forall_congr' fun c => by rw [h₁.mem_iff, h₂.mem_iff]
  · have hget₁ : ∀ k r, d₁.get? k = some r ↔
        ∃ c ∈ svc.listChecks args, c.id = k ∧ svc.performCheck c config context = .ok r :=
      fun k r => by simp only [get?_performChecksAux svc context config hn₁ hd₁, h₁.mem_iff]
    have hget : ∀ k, d₁.get? k = d₂.get? k := fun k => Option.ext fun r => by
      simp only [Option.mem_def, hget₁, get?_performChecksAux svc context config hn₂ hd₂, h₂.mem_iff]
    refine ⟨hget₁, hget, fun benchmark checkById => ?_⟩
    unfold toResultAux
    rw [toResult_congr (funext hget)]

/-! ## A run of two checks -/

/-- A row of the graph: node `n1`, an instance of account `acc1`. -/
def instanceRow : Json :=
  .obj [("id", .str "n1"),
    ("reported", .obj [("id", .str "i-1"), ("kind", .str "aws_ec2_instance")]),
    ("ancestors", .obj [("account", .obj [("reported", .obj [("id", .str "acc1")])])])]

/-- A check of the instances by search. -/
def searchCheck : ReportCheck :=
  { id := "search", provider := "aws", service := "ec2", title := "Search", categories := []
    resultKinds := ["aws_ec2_instance"], severity := .high, risk := "risk"
    remediation := ⟨"text", "url"⟩, detect := [("resoto", .str "is(aws_ec2_instance)")] }

/-- A check of the instances by command. -/
def cmdCheck : ReportCheck :=
  { searchCheck with
    id := "cmd", title := "Cmd", detect := [("resoto_cmd", .str "search is(aws_ec2_instance)")] }

/-- A predefined benchmark with one section per check. -/
def testBenchmark : Benchmark :=
  { title := "test", description := "Test benchmark"
    children := [{ title := "search section", description := "", checks := ["search"], children := [] },
      { title := "cmd section", description := "", checks := ["cmd"], children := [] }]
    id := "test", framework := "resoto", version := "1.0" }

/-- The two checks and the benchmark predefined, nothing stored, and a graph whose
searches and commands all return `instanceRow`. -/
def twoChecksService : InspectorService where
  checksFromFile := PyDict.ofList [("search", searchCheck), ("cmd", cmdCheck)]
  checkDb := []
  benchmarksFromFile := PyDict.ofList [("test", testBenchmark)]
  benchmarkDb := fun _ => none
  storedReportConfig := .ok none
  parseQuery := fun _ _ _ => .ok (Query.«by» (.kind "aws_ec2_instance"))
  searchList := fun _ => ([instanceRow], none)
  executeCliCommand := fun _ _ => .ok [[instanceRow]]
  evaluateCliCommand := fun _ _ => .ok ()
  updateSecuritySection := fun _ _ => .ok ()

theorem performChecksAux_completion_order_twoChecks :
    twoChecksService.listChecks {} = [searchCheck, cmdCheck] ∧
      ∃ d₁ d₂, twoChecksService.performChecksAux {} {} [searchCheck, cmdCheck] = .ok d₁ ∧
        twoChecksService.performChecksAux {} {} [cmdCheck, searchCheck] = .ok d₂ ∧
        ∀ k, d₁.get? k = d₂.get? k :=
  have hlist : twoChecksService.listChecks {} = [searchCheck, cmdCheck] := rfl
  ⟨hlist, _, _, rfl, rfl, ((performChecksAux_completion_order twoChecksService {} {} {}
    (show [searchCheck, cmdCheck].Perm _ by rw [hlist])
    (show [cmdCheck, searchCheck].Perm _ by rw [hlist]; exact List.Perm.swap _ _ _)).2.2 rfl rfl).2.1⟩

end InspectorService

end Resoto
