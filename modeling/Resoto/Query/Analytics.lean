import Resoto.Query.RewriteSound

/-!
# The query model — `Query.predicates` and `Query.analytics`

`predicates` lists the predicates of the terms of a query's parts: it walks into `and`/`or`
terms, `not` terms and the pre- and post-filter of a merge term, and not into merge queries
or with clauses.

`analytics` counts what a query uses, in two `defaultdict`s that the whole walk shares,
`counters` and `names`. It visits the terms of every part, of every with clause and of every
merge query, and walks into `and`/`or` terms only: a predicate under a `not`, or a merge term
below the top of a part's term, counts as one term of its class and no more.

The walk keeps three balances from any state of the two dicts (`queryAnalytics_balance`):
every merge query it visits is named once and counted once, as an ancestor merge or as
another merge; every predicate it visits is counted once and named once; and each aggregate
counter grows by the number of names it adds. On a query of plain filters, the predicate names
it lists are those of the predicates `predicates` returns (`analytics_predicateNames`).
-/

namespace Resoto

/-! ## The two `defaultdict`s -/

/-- The `counters` and `names` of `analytics`, a `defaultdict(lambda: 0)` and a
`defaultdict(list)`. -/
structure QueryAnalytics where
  counters : PyDict String Int
  names : PyDict String (List String)

namespace QueryAnalytics

instance : EmptyCollection QueryAnalytics := ⟨⟨∅, ∅⟩⟩

/-- `counters[key]`. -/
def count (a : QueryAnalytics) (key : String) : Int := (a.counters.get? key).getD 0

/-- `names[key]`. -/
def namesOf (a : QueryAnalytics) (key : String) : List String := (a.names.get? key).getD []

/-- `counters[key] += n`. -/
def bumpBy (a : QueryAnalytics) (key : String) (n : Int) : QueryAnalytics :=
  { a with counters := a.counters.insert key (a.count key + n) }

/-- `counters[key] += 1`. -/
def bump (a : QueryAnalytics) (key : String) : QueryAnalytics := a.bumpBy key 1

/-- `names[key].extend(xs)`. -/
def extend (a : QueryAnalytics) (key : String) (xs : List String) : QueryAnalytics :=
  { a with names := a.names.insert key (a.namesOf key ++ xs) }

/-- `names[key].append(x)`. -/
def append (a : QueryAnalytics) (key x : String) : QueryAnalytics := a.extend key [x]

/-- `counters["navigation_until_max"] = max(counters["navigation_until_max"], v)`. -/
def untilMax (a : QueryAnalytics) (v : Int) : QueryAnalytics :=
  { a with counters :=
      a.counters.insert "navigation_until_max" (max (a.count "navigation_until_max") v) }

@[simp] theorem count_empty (key : String) : (∅ : QueryAnalytics).count key = 0 := rfl

@[simp] theorem namesOf_empty (key : String) : (∅ : QueryAnalytics).namesOf key = [] := rfl

theorem count_bumpBy (a : QueryAnalytics) (key key' : String) (n : Int) :
    (a.bumpBy key n).count key' = if key = key' then a.count key' + n else a.count key' := by
  unfold count bumpBy
  rw [PyDict.get?_insert]
  by_cases h : key = key' <;> simp [h, count]

@[simp] theorem namesOf_bumpBy (a : QueryAnalytics) (key key' : String) (n : Int) :
    (a.bumpBy key n).namesOf key' = a.namesOf key' := rfl

@[simp] theorem count_extend (a : QueryAnalytics) (key key' : String) (xs : List String) :
    (a.extend key xs).count key' = a.count key' := rfl

theorem namesOf_extend (a : QueryAnalytics) (key key' : String) (xs : List String) :
    (a.extend key xs).namesOf key' = if key = key' then a.namesOf key' ++ xs else a.namesOf key' := by
  unfold namesOf extend
  rw [PyDict.get?_insert]
  by_cases h : key = key' <;> simp [h, namesOf]

@[simp] theorem namesOf_untilMax (a : QueryAnalytics) (v : Int) (key : String) :
    (a.untilMax v).namesOf key = a.namesOf key := rfl

theorem count_untilMax (a : QueryAnalytics) (v : Int) (key : String) :
    (a.untilMax v).count key =
      if "navigation_until_max" = key then max (a.count key) v else a.count key := by
  unfold count untilMax
  rw [PyDict.get?_insert]
  by_cases h : "navigation_until_max" = key <;> simp [h, count]

end QueryAnalytics

open QueryAnalytics

/-! ## The walk of `analytics` -/

/-- `type(term).__name__.lower()`: the class name of a term, lower-cased. -/
def Term.classKey : Term → String
  | .allTerm => "allterm"
  | .notTerm _ => "notterm"
  | .predicate .. => "predicate"
  | .combinedTerm .. => "combinedterm"
  | .idTerm _ => "idterm"
  | .isTerm _ => "isterm"
  | .functionTerm .. => "functionterm"
  | .mergeTerm .. => "mergeterm"

/-- `term_analytics(term)`. -/
def termAnalytics (a : QueryAnalytics) : Term → QueryAnalytics
  | .predicate name op value args =>
    ((a.bump ("term_" ++ (Term.predicate name op value args).classKey)).bump
      ("op_" ++ op)).append "predicate_names" name
  | .combinedTerm left op right =>
    termAnalytics (termAnalytics (a.bump ("term_" ++ (Term.combinedTerm left op right).classKey))
      left) right
  | term => a.bump ("term_" ++ term.classKey)

/-- `navigation_analytics(navigation)`. -/
def navigationAnalytics (a : QueryAnalytics) (navigation : Navigation) : QueryAnalytics :=
  (((a.bump "navigation").bump ("navigation_" ++ navigation.direction)).bump
    ("navigation_" ++ navigation.edgeType)).untilMax navigation.until

/-- `if term: term_analytics(term)`: a term is truthy. -/
def termAnalyticsOpt (a : QueryAnalytics) : Option Term → QueryAnalytics
  | some t => termAnalytics a t
  | none => a

mutual

/-- `with_clause_analytics(clause)`. Its navigation is always visited: a `Navigation` is
truthy. -/
def withClauseAnalytics (a : QueryAnalytics) : WithClause → QueryAnalytics
  | ⟨_, navigation, term, withClause⟩ =>
    withClauseAnalyticsOpt
      (navigationAnalytics (termAnalyticsOpt (a.bump "with_clause") term) navigation) withClause
termination_by structural w => w

/-- `if clause: with_clause_analytics(clause)`. -/
def withClauseAnalyticsOpt (a : QueryAnalytics) : Option WithClause → QueryAnalytics
  | some w => withClauseAnalytics a w
  | none => a
termination_by structural w => w

end

/-- `str(v)` of an `AggregateVariableName`. -/
def AggregateVariableName.str (v : AggregateVariableName) : String := v.name

/-- `str(v)` of an `AggregateVariableCombined`: the parts in quotes, each variable name in
braces. -/
def AggregateVariableCombined.str (v : AggregateVariableCombined) : String :=
  "\"" ++ String.join (v.parts.map fun
    | .inl s => s
    | .inr n => "\x7b" ++ n.str ++ "\x7d") ++ "\""

/-- `str(gb.name)` of a grouping variable. -/
def AggregateVariable.nameStr (v : AggregateVariable) : String :=
  match v.name with
  | .inl n => n.str
  | .inr c => c.str

/-- `str(gb.name)` of an aggregate function: its variable, or its number. -/
def AggregateFunction.nameStr (f : AggregateFunction) : String :=
  match f.name with
  | .inl s => s
  | .inr i => toString i

/-- The preamble keys of `query_analytics(q)`; an empty preamble is falsy. -/
def preambleAnalytics (a : QueryAnalytics) (preamble : PyDict String Json) : QueryAnalytics :=
  if preamble.items.isEmpty then a else a.extend "preamble_keys" preamble.keys

/-- The aggregate of `query_analytics(q)`: the names of its groups and of its functions, each
list counted by its length. An `Aggregate` is truthy, its empty lists are not. -/
def aggregateAnalytics (a : QueryAnalytics) : Option Aggregate → QueryAnalytics
  | some aggregate =>
    let a := if aggregate.groupBy.isEmpty then a
      else (a.extend "aggregate_by" (aggregate.groupBy.map AggregateVariable.nameStr)).bumpBy
        "aggregate_by" aggregate.groupBy.length
    if aggregate.groupFunc.isEmpty then a
    else (a.extend "aggregate_func" (aggregate.groupFunc.map AggregateFunction.nameStr)).bumpBy
      "aggregate_func" aggregate.groupFunc.length
  | none => a

/-- `is_ancestor_merge(q)`: two parts and no aggregate, the second part walking inbound more
than one step from a first part that selects by kind. -/
def isAncestorMerge (q : Query) : Bool :=
  match q.rest with
  | [second] =>
    q.aggregate.isNone &&
      (match second.navigation with
        | some n => n.direction == Direction.inbound && decide (1 < n.until)
        | none => false) &&
      (match q.current.term with
        | .isTerm _ => true
        | _ => false)
  | _ => false

/-- The counter of a merge query. -/
def mergeCounter (q : Query) : String :=
  if isAncestorMerge q then "merge_ancestors_by_kind" else "merge_other"

/-- `if part.limit: counters["limits"] += 1`; a limit of `0` is falsy. -/
def limitAnalytics (a : QueryAnalytics) (limit : Option Int) : QueryAnalytics :=
  if limit.getD 0 = 0 then a else a.bump "limits"

/-- `if part.sort:` count the sort and list the names it sorts by. -/
def sortAnalytics (a : QueryAnalytics) (sort : List SortBy) : QueryAnalytics :=
  if sort.isEmpty then a else (a.bump "sorts").extend "sort_names" (sort.map (·.name))

/-- `if part.navigation: navigation_analytics(part.navigation)`. -/
def navigationAnalyticsOpt (a : QueryAnalytics) : Option Navigation → QueryAnalytics
  | some n => navigationAnalytics a n
  | none => a

/-- The limit, sort, navigation and with clause of a part, after its term. -/
def partRestAnalytics (a : QueryAnalytics) (p : Part) : QueryAnalytics :=
  withClauseAnalyticsOpt
    (navigationAnalyticsOpt (sortAnalytics (limitAnalytics a p.limit) p.sort) p.navigation)
    p.withClause

mutual

/-- `query_analytics(q)`. -/
def queryAnalytics (a : QueryAnalytics) : Query → QueryAnalytics
  | ⟨current, rest, preamble, aggregate⟩ =>
    partsAnalytics (partAnalytics (aggregateAnalytics (preambleAnalytics a preamble) aggregate)
      current) rest
termination_by structural q => q

/-- The loop of `query_analytics` over the parts. -/
def partsAnalytics (a : QueryAnalytics) : List Part → QueryAnalytics
  | [] => a
  | p :: ps => partsAnalytics (partAnalytics a p) ps
termination_by structural ps => ps

/-- One part of the loop of `query_analytics`. -/
def partAnalytics (a : QueryAnalytics) : Part → QueryAnalytics
  | ⟨term, tag, withClause, sort, limit, navigation⟩ =>
    partRestAnalytics (partTermAnalytics a term) ⟨term, tag, withClause, sort, limit, navigation⟩
termination_by structural p => p

/-- The term of a part: a merge term is walked with its merge queries, any other term by
`term_analytics`. -/
def partTermAnalytics (a : QueryAnalytics) : Term → QueryAnalytics
  | .mergeTerm preFilter merge postFilter =>
    termAnalyticsOpt (mergesAnalytics ((termAnalytics a preFilter).bump "merge_terms") merge)
      postFilter
  | .allTerm => termAnalytics a .allTerm
  | .notTerm t => termAnalytics a (.notTerm t)
  | .predicate name op value args => termAnalytics a (.predicate name op value args)
  | .combinedTerm left op right => termAnalytics a (.combinedTerm left op right)
  | .idTerm id => termAnalytics a (.idTerm id)
  | .isTerm kinds => termAnalytics a (.isTerm kinds)
  | .functionTerm fn propertyPath args => termAnalytics a (.functionTerm fn propertyPath args)
termination_by structural t => t

/-- The loop over the merge queries of a merge term. -/
def mergesAnalytics (a : QueryAnalytics) : List MergeQuery → QueryAnalytics
  | [] => a
  | ⟨name, query, _⟩ :: merges =>
    mergesAnalytics ((queryAnalytics (a.append "merge_names" name) query).bump
      (mergeCounter query)) merges
termination_by structural merges => merges

end

/-- `Query.analytics()`: the counters and the names of a query. -/
def Query.analytics (q : Query) : QueryAnalytics := queryAnalytics ∅ q

/-! ## The balances the walk keeps -/

namespace QueryAnalytics

/-- The keys the balances read, in `counters` or in `names`. -/
def balanceKeys : List String :=
  ["merge_ancestors_by_kind", "merge_other", "merge_names", "term_predicate", "predicate_names",
    "aggregate_by", "aggregate_func"]

/-- The merge queries counted less those named, the predicates counted less those named, and
each aggregate counter less its names. -/
def balance (a : QueryAnalytics) : Int × Int × Int × Int :=
  (a.count "merge_ancestors_by_kind" + a.count "merge_other" - (a.namesOf "merge_names").length,
    a.count "term_predicate" - (a.namesOf "predicate_names").length,
    a.count "aggregate_by" - (a.namesOf "aggregate_by").length,
    a.count "aggregate_func" - (a.namesOf "aggregate_func").length)

variable {a : QueryAnalytics} {key : String}

theorem balance_bumpBy (hkey : key ∉ balanceKeys) (n : Int) :
    (a.bumpBy key n).balance = a.balance := by
  simp only [balanceKeys, List.mem_cons, List.not_mem_nil, or_false, not_or] at hkey
  simp [balance, count_bumpBy, hkey]

theorem balance_bump (hkey : key ∉ balanceKeys) : (a.bump key).balance = a.balance :=
  balance_bumpBy hkey 1

theorem balance_extend (hkey : key ∉ balanceKeys) (xs : List String) :
    (a.extend key xs).balance = a.balance := by
  simp only [balanceKeys, List.mem_cons, List.not_mem_nil, or_false, not_or] at hkey
  simp [balance, namesOf_extend, hkey]

@[simp] theorem balance_untilMax (v : Int) : (a.untilMax v).balance = a.balance := by
  simp [balance, count_untilMax]

/-- A key whose first letter starts no balance key is none of them. -/
theorem not_mem_balanceKeys (c : Char) (hkey : key.data.head? = some c)
    (hc : c ∉ ['m', 't', 'p', 'a']) : key ∉ balanceKeys := by
  simp only [balanceKeys, List.mem_cons, List.not_mem_nil, or_false]
  rintro (rfl | rfl | rfl | rfl | rfl | rfl | rfl) <;> cases hkey <;> simp at hc

theorem opKey_not_mem (op : String) : "op_" ++ op ∉ balanceKeys :=
  not_mem_balanceKeys 'o' rfl (by decide)

theorem termKey_not_mem {t : Term} (h : t.classKey ≠ "predicate") :
    "term_" ++ t.classKey ∉ balanceKeys := by
  cases t <;> simp [Term.classKey, balanceKeys] at h ⊢

theorem navigationKey_not_mem (s : String) : "navigation_" ++ s ∉ balanceKeys :=
  not_mem_balanceKeys 'n' rfl (by decide)

/-- A predicate is counted once and named once. -/
theorem balance_predicate (op name : String) :
    (((a.bump "term_predicate").bump ("op_" ++ op)).append "predicate_names" name).balance =
      a.balance := by
  have hop := opKey_not_mem op
  simp only [balanceKeys, List.mem_cons, List.not_mem_nil, or_false, not_or] at hop
  simp only [balance, append, bump, count_extend, namesOf_extend, count_bumpBy, namesOf_bumpBy,
    hop, String.reduceEq, ite_true, ite_false, List.length_append, List.length_singleton,
    Prod.mk.injEq, true_and, and_true]
  omega

/-- A group list is counted by its length and named name by name. -/
theorem balance_aggregate (hkey : key = "aggregate_by" ∨ key = "aggregate_func")
    (xs : List String) : ((a.extend key xs).bumpBy key xs.length).balance = a.balance := by
  rcases hkey with rfl | rfl <;>
    simp only [balance, count_bumpBy, namesOf_extend, count_extend, namesOf_bumpBy,
      String.reduceEq, ite_true, ite_false, List.length_append, Prod.mk.injEq, true_and,
      and_true] <;> omega

/-- A merge query is named once, walked, and counted once. -/
theorem balance_merge {b : QueryAnalytics} {name : String} (q : Query)
    (h : b.balance = (a.append "merge_names" name).balance) :
    (b.bump (mergeCounter q)).balance = a.balance := by
  unfold mergeCounter
  split <;>
    simp only [balance, bump, append, count_bumpBy, namesOf_bumpBy, count_extend, namesOf_extend,
      String.reduceEq, ite_true, ite_false, List.length_append, List.length_singleton,
      Prod.mk.injEq] at h ⊢ <;>
    omega

end QueryAnalytics

open QueryAnalytics

theorem termAnalytics_balance : ∀ (a : QueryAnalytics) (t : Term),
    (termAnalytics a t).balance = a.balance
  | a, .predicate _ op _ _ => balance_predicate op _
  | a, .combinedTerm left _ right => by
    show (termAnalytics (termAnalytics (a.bump ("term_" ++ "combinedterm")) left) right).balance = _
    rw [termAnalytics_balance _ right, termAnalytics_balance _ left, balance_bump (by decide)]
  | a, .allTerm | a, .notTerm _ | a, .idTerm _ | a, .isTerm _ | a, .functionTerm .. | a, .mergeTerm .. =>
    balance_bump (termKey_not_mem (by simp [Term.classKey]))
termination_by structural _ t => t

theorem termAnalyticsOpt_balance (a : QueryAnalytics) :
    ∀ t : Option Term, (termAnalyticsOpt a t).balance = a.balance
  | some t => termAnalytics_balance a t
  | none => rfl

theorem navigationAnalytics_balance (a : QueryAnalytics) (n : Navigation) :
    (navigationAnalytics a n).balance = a.balance := by
  rw [navigationAnalytics, balance_untilMax, balance_bump (navigationKey_not_mem _),
    balance_bump (navigationKey_not_mem _), balance_bump (by decide)]

mutual

theorem withClauseAnalytics_balance : ∀ (a : QueryAnalytics) (w : WithClause),
    (withClauseAnalytics a w).balance = a.balance
  | a, ⟨_, navigation, term, withClause⟩ =>
    (withClauseAnalyticsOpt_balance _ withClause).trans <|
      (navigationAnalytics_balance _ navigation).trans <|
        (termAnalyticsOpt_balance _ term).trans (balance_bump (by decide))
termination_by structural _ w => w

theorem withClauseAnalyticsOpt_balance : ∀ (a : QueryAnalytics) (w : Option WithClause),
    (withClauseAnalyticsOpt a w).balance = a.balance
  | a, some w => withClauseAnalytics_balance a w
  | _, none => rfl
termination_by structural _ w => w

end

theorem partRestAnalytics_balance (a : QueryAnalytics) (p : Part) :
    (partRestAnalytics a p).balance = a.balance := by
  have hlimit : (limitAnalytics a p.limit).balance = a.balance := by
    unfold limitAnalytics
    split
    · rfl
    · exact balance_bump (by decide)
  have hsort : ∀ b : QueryAnalytics, (sortAnalytics b p.sort).balance = b.balance := fun b => by
    unfold sortAnalytics
    split
    · rfl
    · rw [balance_extend (by decide), balance_bump (by decide)]
  have hnav : ∀ b : QueryAnalytics, (navigationAnalyticsOpt b p.navigation).balance = b.balance
    | b => by
      cases p.navigation
      · rfl
      · exact navigationAnalytics_balance _ _
  rw [partRestAnalytics, withClauseAnalyticsOpt_balance, hnav, hsort, hlimit]

theorem preambleAnalytics_balance (a : QueryAnalytics) (preamble : PyDict String Json) :
    (preambleAnalytics a preamble).balance = a.balance := by
  unfold preambleAnalytics
  split
  · rfl
  · exact balance_extend (by decide) _

theorem aggregateAnalytics_balance (a : QueryAnalytics) :
    ∀ aggregate : Option Aggregate, (aggregateAnalytics a aggregate).balance = a.balance
  | none => rfl
  | some aggregate => by
    have hby : (if aggregate.groupBy.isEmpty then a
        else (a.extend "aggregate_by" (aggregate.groupBy.map AggregateVariable.nameStr)).bumpBy
          "aggregate_by" aggregate.groupBy.length).balance = a.balance := by
      split
      · rfl
      · simpa using balance_aggregate (.inl rfl) (aggregate.groupBy.map AggregateVariable.nameStr)
    show balance (if aggregate.groupFunc.isEmpty then _ else _) = _
    split
    · exact hby
    · rw [← hby]
      simpa using balance_aggregate (.inr rfl) (aggregate.groupFunc.map AggregateFunction.nameStr)

mutual

/-- The walk of a query keeps the balances, from any state of the two dicts. -/
theorem queryAnalytics_balance : ∀ (a : QueryAnalytics) (q : Query),
    (queryAnalytics a q).balance = a.balance
  | a, ⟨current, rest, preamble, aggregate⟩ =>
    (partsAnalytics_balance _ rest).trans <| (partAnalytics_balance _ current).trans <|
      (aggregateAnalytics_balance _ aggregate).trans (preambleAnalytics_balance a preamble)
termination_by structural _ q => q

theorem partsAnalytics_balance : ∀ (a : QueryAnalytics) (ps : List Part),
    (partsAnalytics a ps).balance = a.balance
  | _, [] => rfl
  | a, p :: ps => (partsAnalytics_balance _ ps).trans (partAnalytics_balance a p)
termination_by structural _ ps => ps

theorem partAnalytics_balance : ∀ (a : QueryAnalytics) (p : Part),
    (partAnalytics a p).balance = a.balance
  | a, ⟨term, _, _, _, _, _⟩ =>
    (partRestAnalytics_balance _ _).trans (partTermAnalytics_balance a term)
termination_by structural _ p => p

theorem partTermAnalytics_balance : ∀ (a : QueryAnalytics) (t : Term),
    (partTermAnalytics a t).balance = a.balance
  | a, .mergeTerm preFilter merge postFilter =>
    (termAnalyticsOpt_balance _ postFilter).trans <| (mergesAnalytics_balance _ merge).trans <|
      (balance_bump (by decide)).trans (termAnalytics_balance a preFilter)
  | a, .allTerm | a, .notTerm _ | a, .predicate .. | a, .combinedTerm .. | a, .idTerm _
  | a, .isTerm _ | a, .functionTerm .. => termAnalytics_balance a _
termination_by structural _ t => t

theorem mergesAnalytics_balance : ∀ (a : QueryAnalytics) (merges : List MergeQuery),
    (mergesAnalytics a merges).balance = a.balance
  | _, [] => rfl
  | _, ⟨_, query, _⟩ :: merges =>
    (mergesAnalytics_balance _ merges).trans
      (balance_merge query (queryAnalytics_balance _ query))
termination_by structural _ merges => merges

end

/-- **`analytics` keeps its counts and its names in step.** For every query: the merge queries
counted as ancestor merges or as other merges are as many as the merge names listed, the
predicates counted as many as the predicate names, and each aggregate counter is the number of
names listed under it, through merge queries at any depth. -/
theorem analytics_balanced (q : Query) :
    q.analytics.count "merge_ancestors_by_kind" + q.analytics.count "merge_other" =
        (q.analytics.namesOf "merge_names").length ∧
      q.analytics.count "term_predicate" = (q.analytics.namesOf "predicate_names").length ∧
      q.analytics.count "aggregate_by" = (q.analytics.namesOf "aggregate_by").length ∧
      q.analytics.count "aggregate_func" = (q.analytics.namesOf "aggregate_func").length := by
  have h := queryAnalytics_balance ∅ q
  simp only [balance, count_empty, namesOf_empty, List.length_nil, Prod.mk.injEq] at h
  refine ⟨?_, ?_, ?_, ?_⟩ <;> unfold Query.analytics <;> omega

/-! ## `Query.predicates` -/

mutual

/-- `walk(term)` of `Query.predicates`: the predicates of a term, left to right. -/
def Term.predicates : Term → List Term
  | .predicate name op value args => [.predicate name op value args]
  | .combinedTerm left _ right => left.predicates ++ right.predicates
  | .mergeTerm preFilter _ postFilter => preFilter.predicates ++ Term.predicatesOpt postFilter
  | .notTerm term => term.predicates
  | _ => []
termination_by structural t => t

/-- The predicates of a post-filter, when there is one. -/
def Term.predicatesOpt : Option Term → List Term
  | some t => t.predicates
  | none => []
termination_by structural t => t

end

/-- `Query.predicates`: the predicates of the terms of the parts. -/
def Query.predicates (q : Query) : List Term := q.parts.flatMap (·.term.predicates)


/-! ## `predicates` and `change_variable` -/

mutual

theorem Term.changeVariable_predicates (fn : String → String) :
    ∀ t : Term, (t.changeVariable fn).predicates = t.predicates.map (Term.changeVariable fn)
  | .combinedTerm left _ right => by
    show (left.changeVariable fn).predicates ++ (right.changeVariable fn).predicates = _
    rw [Term.changeVariable_predicates fn left, Term.changeVariable_predicates fn right]
    exact (List.map_append ..).symm
  | .mergeTerm preFilter _ postFilter => by
    show (preFilter.changeVariable fn).predicates ++
      Term.predicatesOpt (Term.changeVariableOpt fn postFilter) = _
    rw [Term.changeVariable_predicates fn preFilter,
      Term.changeVariableOpt_predicatesOpt fn postFilter]
    exact (List.map_append ..).symm
  | .notTerm term => Term.changeVariable_predicates fn term
  | .predicate .. | .allTerm | .idTerm _ | .isTerm _ | .functionTerm .. => rfl
termination_by structural t => t

theorem Term.changeVariableOpt_predicatesOpt (fn : String → String) :
    ∀ t : Option Term,
      Term.predicatesOpt (Term.changeVariableOpt fn t) = (Term.predicatesOpt t).map (Term.changeVariable fn)
  | some t => Term.changeVariable_predicates fn t
  | none => rfl
termination_by structural t => t

end

@[simp] theorem Part.changeVariable_term (fn : String → String) (p : Part) :
    (Part.changeVariable fn p).term = p.term.changeVariable fn := by
  cases p; rfl

/-- **`predicates` and `change_variable` commute.** Renaming the variables of a query renames
the predicates `predicates` lists, each in its place, and adds or drops none. -/
theorem Query.predicates_changeVariable (fn : String → String) (q : Query) :
    (q.changeVariable fn).predicates = q.predicates.map (Term.changeVariable fn) := by
  obtain ⟨current, rest, preamble, aggregate⟩ := q
  show ((Part.changeVariable fn current :: Part.changeVariables fn rest).flatMap
    (·.term.predicates)) = ((current :: rest).flatMap (·.term.predicates)).map _
  simp only [Part.changeVariables_eq_map, List.flatMap_cons, List.flatMap_map,
    Part.changeVariable_term, Term.changeVariable_predicates, List.map_append, List.map_flatMap]

/-! ## The ancestor/descendant rewrite keeps the predicates -/

section Rewrite

variable (resolved : List String)

/-- The predicates of the two accumulators of `walk_term`. -/
def MergeSplit.predicates (s : MergeSplit) : List Term :=
  s.beforeMerge.predicates ++ s.afterMerge.predicates

theorem Term.andTerm_predicates (s t : Term) :
    (s.andTerm t).predicates = s.predicates ++ t.predicates := by
  by_cases hs : s = .allTerm
  · subst hs
    rw [Term.allTerm_andTerm]
    rfl
  by_cases ht : t = .allTerm
  · subst ht
    rw [Term.andTerm_allTerm]
    exact (List.append_nil _).symm
  rw [Term.andTerm_of_ne hs ht]
  rfl

/-- A term joining the after-merge filter adds its predicates. -/
theorem MergeSplit.predicates_after (s : MergeSplit) (t : Term) :
    ({ s with afterMerge := s.afterMerge.andTerm t } : MergeSplit).predicates =
      s.predicates ++ t.predicates := by
  simp only [MergeSplit.predicates, Term.andTerm_predicates, List.append_assoc]

/-- A term joining the before-merge filter adds its predicates, in another place. -/
theorem MergeSplit.predicates_before (s : MergeSplit) (t : Term) :
    ({ s with beforeMerge := s.beforeMerge.andTerm t } : MergeSplit).predicates.Perm
      (s.predicates ++ t.predicates) := by
  simp only [MergeSplit.predicates, Term.andTerm_predicates, List.append_assoc]
  exact List.perm_append_left_iff _ |>.mpr List.perm_append_comm

theorem walkConjunction_predicates {left right : Term}
    {walkLeft walkRight : MergeSplit → Except PyError MergeSplit}
    (hl : ∀ {s s'}, walkLeft s = .ok s' → s'.predicates.Perm (s.predicates ++ left.predicates))
    (hr : ∀ {s s'}, walkRight s = .ok s' → s'.predicates.Perm (s.predicates ++ right.predicates))
    {s s' : MergeSplit} (h : walkConjunction resolved left right walkLeft walkRight s = .ok s') :
    s'.predicates.Perm (s.predicates ++ (left.predicates ++ right.predicates)) := by
  unfold walkConjunction at h
  by_cases hboth : hasAncestorDescendant resolved left ∧ hasAncestorDescendant resolved right
  · rw [if_pos hboth] at h
    obtain ⟨s₁, h₁, h₂⟩ := Except.bind_eq_ok.mp h
    rw [← List.append_assoc]
    exact (hr h₂).trans ((hl h₁).append_right _)
  rw [if_neg hboth] at h
  by_cases hleft : hasAncestorDescendant resolved left
  · rw [if_pos hleft] at h
    refine (hl h).trans ?_
    refine ((MergeSplit.predicates_before s right).append_right _).trans ?_
    rw [List.append_assoc]
    exact List.perm_append_left_iff _ |>.mpr List.perm_append_comm
  rw [if_neg hleft] at h
  by_cases hright : hasAncestorDescendant resolved right
  · rw [if_pos hright] at h
    refine (hr h).trans ?_
    refine ((MergeSplit.predicates_before s left).append_right _).trans ?_
    rw [List.append_assoc]
  · rw [if_neg hright] at h
    cases h

mutual

theorem walkTerm_predicates : ∀ (t : Term) {s s' : MergeSplit}, walkTerm resolved t s = .ok s' →
    s'.predicates.Perm (s.predicates ++ t.predicates)
  | .combinedTerm left op right, s, s', h => by
    by_cases hop : op = "or"
    · rw [walkTerm_combinedTerm, if_pos hop] at h
      obtain rfl := Except.ok.inj h
      rw [MergeSplit.predicates_after]
    · rw [walkTerm_combinedTerm, if_neg hop] at h
      exact walkConjunction_predicates resolved (walkTerm_predicates left)
        (walkTerm_predicates right) h
  | .mergeTerm preFilter _ postFilter, s, s', h => by
    rw [walkTerm_mergeTerm] at h
    exact walkMergeTerm_predicates preFilter postFilter (walkTerm_predicates preFilter) h
  | .allTerm, s, s', h | .notTerm _, s, s', h | .predicate .., s, s', h | .idTerm _, s, s', h
  | .isTerm _, s, s', h | .functionTerm .., s, s', h => by
    obtain rfl := Except.ok.inj h
    rw [MergeSplit.predicates_after]
termination_by structural t => t

theorem walkMergeTerm_predicates (preFilter : Term) : ∀ (postFilter : Option Term)
    {walkPre : MergeSplit → Except PyError MergeSplit}
    (_ : ∀ {s s'}, walkPre s = .ok s' → s'.predicates.Perm (s.predicates ++ preFilter.predicates))
    {s s' : MergeSplit}, walkMergeTerm resolved preFilter postFilter walkPre s = .ok s' →
    s'.predicates.Perm (s.predicates ++ (preFilter.predicates ++ Term.predicatesOpt postFilter))
  | some postFilter, _, hpre, _, _, h =>
    walkConjunction_predicates resolved hpre (walkTerm_predicates postFilter) h
  | none, _, hpre, _, _, h => by
    rw [Term.predicatesOpt, List.append_nil]
    exact hpre h
termination_by structural t => t

end

/-- **The ancestor/descendant rewrite moves predicates and never drops or copies one.** The
term of a rewritten part has the predicates of the original term, each as often, in the
pre-filter or in the post-filter of the merge. -/
theorem rewriteForAncestorsDescendants_predicates {p p' : Part}
    (h : p.rewriteForAncestorsDescendants resolved = .ok p') :
    p'.term.predicates.Perm p.term.predicates := by
  rcases rewriteForAncestorsDescendants_ok resolved h with ⟨-, rfl⟩ | ⟨-, s, hs, _, -, rfl⟩
  · exact List.Perm.refl _
  · exact walkTerm_predicates resolved _ hs

theorem rewriteForAncestorsDescendants_predicates_vpcFilterPart :
    ∃ p', vpcFilterPart.rewriteForAncestorsDescendants resolvedPropertyNames = .ok p' ∧
      p'.term.predicates.Perm vpcFilterPart.term.predicates :=
  ⟨_, rfl, rewriteForAncestorsDescendants_predicates resolvedPropertyNames rfl⟩

end Rewrite

/-! ## `predicates` and `combine` -/

/-- **`combine` keeps every predicate of both queries, each as often.** -/
theorem Query.combine_predicates {a b r : Query} (h : a.combine b = .ok r) :
    r.predicates.Perm (b.predicates ++ a.predicates) := by
  obtain ⟨-, -, ⟨-, hparts⟩ | ⟨-, hparts⟩⟩ := Query.combine_ok h
  · rw [Query.predicates, hparts, List.flatMap_append]
    rfl
  · have hb : b.predicates = b.parts.dropLast.flatMap (·.term.predicates) ++
        (b.parts.getLast (List.cons_ne_nil _ _)).term.predicates := by
      conv_lhs => rw [Query.predicates,
        ← List.dropLast_append_getLast (show b.parts ≠ [] from List.cons_ne_nil _ _)]
      rw [List.flatMap_append, List.flatMap_singleton]
    have hfuse : (Query.fuse a.current (b.parts.getLast (List.cons_ne_nil _ _))).term.predicates =
        a.current.term.predicates ++ (b.parts.getLast (List.cons_ne_nil _ _)).term.predicates :=
      Term.andTerm_predicates _ _
    rw [hb, Query.predicates, hparts, Query.predicates, QueryOf.parts_eq a]
    simp only [List.flatMap_append, List.flatMap_cons, hfuse, List.append_assoc]
    refine List.Perm.append_left _ ?_
    rw [← List.append_assoc, ← List.append_assoc]
    exact List.perm_append_comm.append_right _

theorem Query.combine_predicates_twoFilters :
    ∃ r, (Query.«by» (.term ((P.single "name").eq (.str "a")))).combine
        (Query.«by» (.term ((P.single "kind").eq (.str "k")))) = .ok r ∧
      r.predicates.Perm ((Query.«by» (.term ((P.single "kind").eq (.str "k")))).predicates ++
        (Query.«by» (.term ((P.single "name").eq (.str "a")))).predicates) :=
  ⟨_, rfl, Query.combine_predicates rfl⟩

/-! ## The predicate names of plain filters -/

/-- A term built by `and`/`or` from terms other than `not` and merge terms: `term_analytics`
walks all of it. -/
def Term.andOrOnly : Term → Bool
  | .combinedTerm left _ right => left.andOrOnly && right.andOrOnly
  | .notTerm _ | .mergeTerm .. => false
  | .allTerm | .predicate .. | .idTerm _ | .isTerm _ | .functionTerm .. => true

/-- A query whose parts filter by such terms, without with clauses. -/
def Query.PlainFilters (q : Query) : Prop :=
  ∀ p ∈ q.parts, p.term.andOrOnly = true ∧ p.withClause.isNone = true

instance (q : Query) : Decidable q.PlainFilters :=
  inferInstanceAs (Decidable (∀ p ∈ q.parts, _))

/-- The name of a predicate. -/
def Term.predicateName? : Term → Option String
  | .predicate name .. => some name
  | _ => none

theorem termAnalytics_predicateNames :
    ∀ (a : QueryAnalytics) (t : Term), t.andOrOnly = true →
      (termAnalytics a t).namesOf "predicate_names" =
        a.namesOf "predicate_names" ++ t.predicates.filterMap Term.predicateName?
  | a, .predicate name .., _ => by
    show (((a.bump _).bump _).extend "predicate_names" [name]).namesOf _ = _ ++ [name]
    rw [namesOf_extend, if_pos rfl]
    rfl
  | a, .combinedTerm left _ right, h => by
    obtain ⟨hl, hr⟩ := Bool.and_eq_true_iff.mp h
    show (termAnalytics (termAnalytics _ left) right).namesOf _ =
      _ ++ (left.predicates ++ right.predicates).filterMap _
    rw [termAnalytics_predicateNames _ right hr, termAnalytics_predicateNames _ left hl,
      List.filterMap_append, List.append_assoc]
    rfl
  | a, .allTerm, _ | a, .idTerm _, _ | a, .isTerm _, _ | a, .functionTerm .., _ =>
    (List.append_nil _).symm
termination_by structural _ t => t

theorem withClauseAnalyticsOpt_none (a : QueryAnalytics) : withClauseAnalyticsOpt a none = a := rfl

theorem partRestAnalytics_predicateNames (a : QueryAnalytics) {p : Part}
    (hp : p.withClause.isNone = true) :
    (partRestAnalytics a p).namesOf "predicate_names" = a.namesOf "predicate_names" := by
  rw [partRestAnalytics, Option.isNone_iff_eq_none.mp hp, withClauseAnalyticsOpt_none]
  have hnav : ∀ b : QueryAnalytics, (navigationAnalyticsOpt b p.navigation).namesOf
      "predicate_names" = b.namesOf "predicate_names" := fun b => by
    cases p.navigation <;> rfl
  rw [hnav]
  unfold sortAnalytics limitAnalytics
  split <;> split <;> simp [bump, namesOf_extend]

theorem partsAnalytics_predicateNames :
    ∀ (a : QueryAnalytics) (ps : List Part),
      (∀ p ∈ ps, p.term.andOrOnly = true ∧ p.withClause.isNone = true) →
      (partsAnalytics a ps).namesOf "predicate_names" =
        a.namesOf "predicate_names" ++ ps.flatMap fun p => p.term.predicates.filterMap Term.predicateName?
  | a, [], _ => (List.append_nil _).symm
  | a, p :: ps, h => by
    obtain ⟨hterm, hwith⟩ := h p (List.mem_cons_self _ _)
    have hpart : (partAnalytics a p).namesOf "predicate_names" =
        a.namesOf "predicate_names" ++ p.term.predicates.filterMap Term.predicateName? := by
      obtain ⟨term, tag, withClause, sort, limit, navigation⟩ := p
      show (partRestAnalytics (partTermAnalytics a term) _).namesOf _ = _
      rw [partRestAnalytics_predicateNames _ hwith]
      cases term <;> first
        | exact termAnalytics_predicateNames a _ hterm
        | exact absurd hterm (by simp [Term.andOrOnly])
    rw [show partsAnalytics a (p :: ps) = partsAnalytics (partAnalytics a p) ps from rfl,
      partsAnalytics_predicateNames _ ps fun p' hp' => h p' (List.mem_cons_of_mem _ hp'), hpart,
      List.flatMap_cons, List.append_assoc]

theorem preambleAnalytics_predicateNames (a : QueryAnalytics) (preamble : PyDict String Json) :
    (preambleAnalytics a preamble).namesOf "predicate_names" = a.namesOf "predicate_names" := by
  unfold preambleAnalytics
  split <;> simp [namesOf_extend]

theorem aggregateAnalytics_predicateNames (a : QueryAnalytics) :
    ∀ aggregate : Option Aggregate,
      (aggregateAnalytics a aggregate).namesOf "predicate_names" = a.namesOf "predicate_names"
  | none => rfl
  | some aggregate => by
    show namesOf (if aggregate.groupFunc.isEmpty then _ else _) _ = _
    split <;> split <;> simp [namesOf_extend]

/-- **On plain filters, `analytics` names the predicates that `predicates` lists.** For a query
whose parts filter by terms built by `and`/`or` from terms other than `not` and merge terms,
and have no with clause, the predicate names of `analytics` are the names of the predicates
of `predicates`, in their order. -/
theorem analytics_predicateNames (q : Query) (hq : q.PlainFilters) :
    q.analytics.namesOf "predicate_names" = q.predicates.filterMap Term.predicateName? := by
  obtain ⟨current, rest, preamble, aggregate⟩ := q
  show (partsAnalytics (aggregateAnalytics (preambleAnalytics ∅ preamble) aggregate)
    (current :: rest)).namesOf _ = ((current :: rest).flatMap (·.term.predicates)).filterMap _
  rw [partsAnalytics_predicateNames _ (current :: rest) hq, aggregateAnalytics_predicateNames,
    preambleAnalytics_predicateNames, namesOf_empty, List.nil_append, List.filterMap_flatMap]

/-- A search for instances older than three days. -/
def instanceAgeQuery : Query :=
  let filter := Term.combinedTerm (.predicate "reported.kind" "=" (.str "instance") []) "and"
    (.predicate "reported.age" ">" (.num 3) [])
  { current := { term := filter } }

theorem analytics_predicateNames_instanceAge :
    instanceAgeQuery.PlainFilters ∧
      instanceAgeQuery.analytics.namesOf "predicate_names" =
        instanceAgeQuery.predicates.filterMap Term.predicateName? :=
  have hq : instanceAgeQuery.PlainFilters := by decide
  ⟨hq, analytics_predicateNames instanceAgeQuery hq⟩

/-- Under a `not`, a predicate is one of `predicates` and not one of the names of `analytics`. -/
example :
    let q : Query := { current := { term := .notTerm (.predicate "reported.age" ">" (.num 3) []) } }
    q.analytics.namesOf "predicate_names" = [] ∧
      q.predicates.filterMap Term.predicateName? = ["reported.age"] := by
  decide

end Resoto
