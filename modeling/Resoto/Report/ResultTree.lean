import Resoto.Report.Inspector

/-!
# What one check finds, and the tree of results

`__perform_check` groups the rows of a check's detection by the account id of each row,
dropping the rows without a truthy one, and projects each row with `ReportResourceData`
(`mem_keys_groupByAccount`, `getD_get?_groupByAccount`). `__to_result` then builds, before
`filter_result`, a result tree of the shape of the benchmark's collection tree (`Mirrors`):
one check result for each id of a collection that `check_by_id` knows, in order, counting
the failing resources of each account.
-/

namespace Resoto

namespace InspectorService

/-! ## Grouping by account -/

/-- One row of the loop of `__perform_check`. -/
def accountStep (resourcesByAccount : SingleCheckResult) (resource : Json) : SingleCheckResult :=
  match valueInPath resource NodePath.ancestorAccountId with
  | some accountId =>
    if accountId.truthy then resourcesByAccount.appendAt accountId (bendResourceData resource)
    else resourcesByAccount
  | none => resourcesByAccount

theorem groupByAccount_eq (rows : List Json) : groupByAccount rows = rows.foldl accountStep ∅ := rfl

/-- Whether a row counts for the account `a`: its account id is `a`, and `a` is truthy. -/
def accountOf (a : Json) (row : Json) : Bool :=
  decide (valueInPath row NodePath.ancestorAccountId = some a) && a.truthy

/-- The step lemma: a row adds its account, and its projection under it. -/
theorem accountStep_get? (d : SingleCheckResult) (row a : Json) :
    (accountStep d row).get? a =
      if accountOf a row then some ((d.get? a).getD [] ++ [bendResourceData row]) else d.get? a := by
  unfold accountStep accountOf
  rcases valueInPath row NodePath.ancestorAccountId with _ | b
  · simp
  · by_cases ha : b = a
    · subst ha
      by_cases hb : b.truthy = true <;> simp [hb, PyDict.get?_appendAt]
    · by_cases hb : b.truthy = true <;> simp [hb, ha, PyDict.get?_appendAt]

theorem mem_keys_foldl_accountStep (rows : List Json) (a : Json) :
    ∀ d : SingleCheckResult, a ∈ (rows.foldl accountStep d).keys ↔
      a ∈ d.keys ∨ ∃ row ∈ rows, accountOf a row = true := by
  induction rows with
  | nil => simp
  | cons row rows ih =>
    intro d
    have hkeys : ∀ d : SingleCheckResult, a ∈ d.keys ↔ d.get? a ≠ none := fun d => by
      rw [Ne, PyDict.get?_eq_none, not_not]
    rw [List.foldl_cons, ih, hkeys, hkeys, accountStep_get?]
    by_cases hrow : accountOf a row <;> simp [hrow]

theorem getD_get?_foldl_accountStep (rows : List Json) (a : Json) :
    ∀ d : SingleCheckResult, ((rows.foldl accountStep d).get? a).getD [] =
      (d.get? a).getD [] ++ (rows.filter (accountOf a)).map bendResourceData := by
  induction rows with
  | nil => simp
  | cons row rows ih =>
    intro d
    rw [List.foldl_cons, ih, accountStep_get?]
    by_cases hrow : accountOf a row <;> simp [hrow]

/-- The accounts `__perform_check` reports: the truthy account ids among the rows. -/
theorem mem_keys_groupByAccount (rows : List Json) (a : Json) :
    a ∈ (groupByAccount rows).keys ↔
      ∃ row ∈ rows, valueInPath row NodePath.ancestorAccountId = some a ∧ a.truthy = true := by
  rw [groupByAccount_eq, mem_keys_foldl_accountStep]
  simp [PyDict.keys, accountOf]

/-- The resources `__perform_check` reports for an account: the projections of the rows of
that account, in row order. -/
theorem getD_get?_groupByAccount (rows : List Json) (a : Json) :
    ((groupByAccount rows).get? a).getD [] = (rows.filter (accountOf a)).map bendResourceData := by
  rw [groupByAccount_eq, getD_get?_foldl_accountStep]
  rfl

/-! ## The result tree -/

section Tree

variable (checkById : PyDict String ReportCheck) (results : PyDict String SingleCheckResult)

/-- Modelled from the spec: a check result mirrors the id `cid` of a collection: its check
is `check_by_id[cid]`, its failing resources are `results.get(cid, {})`, and it counts them
by account. -/
def CheckMirrors (cid : String) (r : CheckResult) : Prop :=
  checkById.get? cid = some r.check ∧ r.resourcesFailingByAccount = (results.get? cid).getD ∅ ∧
    ∀ a, r.countByAccount.get? a = (r.resourcesFailingByAccount.get? a).map List.length

mutual

/-- Modelled from the spec: a result tree mirrors a collection: the same title, description
and documentation, a check result for each id of the collection that `check_by_id` knows,
in order, and the children one to one. -/
def Mirrors : CheckCollection → CheckCollectionResult → Prop
  | ⟨title, description, documentation, checks, children⟩, r =>
    r.title = title ∧ r.description = description ∧ r.documentation = documentation ∧
      List.Forall₂ (CheckMirrors checkById results)
        (checks.filter fun cid => (checkById.get? cid).isSome) r.checks ∧
      MirrorsOf children r.children
termination_by structural cc => cc

/-- The children of a collection, one to one. -/
def MirrorsOf : List CheckCollection → List CheckCollectionResult → Prop
  | [], rs => rs = []
  | c :: cs, rs => ∃ r rs', rs = r :: rs' ∧ Mirrors c r ∧ MirrorsOf cs rs'
termination_by structural cs => cs

end

theorem checkResults_mirrors (cids : List String) :
    List.Forall₂ (CheckMirrors checkById results)
      (cids.filter fun cid => (checkById.get? cid).isSome) (checkResults checkById results cids) := by
  induction cids with
  | nil => exact .nil
  | cons cid cids ih =>
    cases h : checkById.get? cid with
    | none => simpa [checkResults, h] using ih
    | some check =>
      simp only [checkResults, List.filter_cons, h, Option.isSome_some, if_true,
        List.filterMap_cons, Option.map_some']
      exact .cons ⟨h, rfl, fun a => PyDict.get?_mapValues _ _ a⟩ ih

mutual

theorem toResult_mirrors : ∀ cc, Mirrors checkById results cc (toResult checkById results cc)
  | ⟨_, _, _, checks, children⟩ =>
    ⟨rfl, rfl, rfl, checkResults_mirrors checkById results checks, toResultOf_mirrors children⟩
termination_by structural cc => cc

theorem toResultOf_mirrors : ∀ cs, MirrorsOf checkById results cs (toResultOf checkById results cs)
  | [] => rfl
  | c :: cs => ⟨_, _, rfl, toResult_mirrors c, toResultOf_mirrors cs⟩
termination_by structural cs => cs

end

end Tree

variable (svc : InspectorService)

/-- **`__perform_check` groups the rows by account, and `__to_result` mirrors the
benchmark.** The result of a check is its rows grouped by account: the keys are the truthy
account ids of the rows, and each account holds the projections of exactly its rows, in
row order. The result tree of a collection, before `filter_result`, mirrors the collection:
check results for the ids `check_by_id` knows, in order, each counting its failing resources
by account, and the children one to one. -/
theorem performCheck_toResult_mirrors :
    (∀ inspection config context, svc.performCheck inspection config context =
      groupByAccount <$> svc.listFailingResourcesAux inspection config context) ∧
    (∀ rows a, a ∈ (groupByAccount rows).keys ↔
      ∃ row ∈ rows, valueInPath row NodePath.ancestorAccountId = some a ∧ a.truthy = true) ∧
    (∀ rows a, ((groupByAccount rows).get? a).getD [] =
      (rows.filter fun row => decide (valueInPath row NodePath.ancestorAccountId = some a) &&
        a.truthy).map bendResourceData) ∧
    ∀ checkById results cc, Mirrors checkById results cc (toResult checkById results cc) :=
  ⟨fun inspection config context => by
    unfold performCheck
    cases svc.listFailingResourcesAux inspection config context <;> rfl,
  mem_keys_groupByAccount, getD_get?_groupByAccount, toResult_mirrors⟩

end InspectorService

end Resoto
