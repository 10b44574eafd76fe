import Resoto.Query.Builder

/-!
# The query model — §5, lifting ancestor/descendant predicates into a merge

`Part.rewrite_for_ancestors_descendants`: a predicate on `ancestors.<kind>.<path>` or
`descendants.<kind>.<path>` reads a node merged in from the graph. The rewrite walks the
part's term, sending conjuncts without such a predicate to a pre-filter (`before_merge`)
and the rest to a post-filter (`after_merge`), and builds one merge query per
`(ancestors|descendants, kind)`.

`walk_term` mutates its two accumulators; here it passes a `MergeSplit` along and returns
it, and raises through `Except`. Its conjunction branch is `walkConjunction`: the source
reaches it for an `and` term and for a `MergeTerm` with a post-filter, which it walks as
`CombinedTerm(pre_filter, "and", post_filter)` (`walkTerm_mergeTerm_some`).

`GraphResolver.resolved_property_names` (core.model.resolve_in_graph, not under src/) is
the parameter `resolved`.
-/

namespace Resoto

section Rewrite

variable (resolved : List String)

/-- `is_ancestor_descendant(name)`. -/
def isAncestorDescendant (name : String) : Bool :=
  decide (name ∉ resolved) && (startswith name "ancestors." || startswith name "descendants.")

mutual

/-- `has_ancestor_descendant(t)`. -/
def hasAncestorDescendant : Term → Bool
  | .predicate name _ _ _ => isAncestorDescendant resolved name
  | .combinedTerm left _ right => hasAncestorDescendant left || hasAncestorDescendant right
  | .mergeTerm preFilter _ postFilter =>
    hasAncestorDescendant preFilter || hasAncestorDescendantOpt postFilter
  | .notTerm term => hasAncestorDescendant term
  | _ => false
termination_by structural t => t

/-- `t is not None and has_ancestor_descendant(t)`. -/
def hasAncestorDescendantOpt : Option Term → Bool
  | some t => hasAncestorDescendant t
  | none => false
termination_by structural t => t

end

mutual

/-- `ancestor_descendant_predicates(t)`, each predicate given by its name, the one field
that `name_predicate` reads. -/
def ancestorDescendantPredicates : Term → List String
  | .predicate name _ _ _ => if isAncestorDescendant resolved name then [name] else []
  | .combinedTerm left _ right =>
    ancestorDescendantPredicates left ++ ancestorDescendantPredicates right
  | .mergeTerm preFilter _ postFilter =>
    ancestorDescendantPredicates preFilter ++ ancestorDescendantPredicatesOpt postFilter
  | .notTerm term => ancestorDescendantPredicates term
  | _ => []
termination_by structural t => t

/-- `result.extend(ancestor_descendant_predicates(t.post_filter))` when there is one. -/
def ancestorDescendantPredicatesOpt : Option Term → List String
  | some t => ancestorDescendantPredicates t
  | none => []
termination_by structural t => t

end

/-- The two accumulators of `walk_term`. -/
structure MergeSplit where
  beforeMerge : Term
  afterMerge : Term

/-- The branch of `walk_term` for a conjunction `left and right`: a side without an
ancestor/descendant predicate joins `before_merge`, a side with one is walked. -/
def walkConjunction (left right : Term) (walkLeft walkRight : MergeSplit → Except PyError MergeSplit)
    (s : MergeSplit) : Except PyError MergeSplit :=
  let leftHasAd := hasAncestorDescendant resolved left
  let rightHasAd := hasAncestorDescendant resolved right
  if leftHasAd ∧ rightHasAd then walkLeft s >>= walkRight
  else if leftHasAd then walkLeft { s with beforeMerge := s.beforeMerge.andTerm right }
  else if rightHasAd then walkRight { s with beforeMerge := s.beforeMerge.andTerm left }
  else .error (.notImplementedError "Logic unsound. This case should not happen!")

mutual

/-- `walk_term(term)`. -/
def walkTerm : Term → MergeSplit → Except PyError MergeSplit
  | .combinedTerm left op right, s =>
    if op = "or" then .ok { s with afterMerge := s.afterMerge.andTerm (.combinedTerm left op right) }
    else walkConjunction resolved left right (walkTerm left) (walkTerm right) s
  | .mergeTerm preFilter _ postFilter, s => walkMergeTerm preFilter postFilter (walkTerm preFilter) s
  | term, s => .ok { s with afterMerge := s.afterMerge.andTerm term }
termination_by structural t => t

/-- `walk_term` on a `MergeTerm`, given the walk of its pre-filter. -/
def walkMergeTerm (preFilter : Term) :
    Option Term → (MergeSplit → Except PyError MergeSplit) → MergeSplit → Except PyError MergeSplit
  | some postFilter, walkPre, s => walkConjunction resolved preFilter postFilter walkPre (walkTerm postFilter) s
  | none, walkPre, s => walkPre s
termination_by structural t => t

end

theorem walkTerm_combinedTerm (left : Term) (op : String) (right : Term) (s : MergeSplit) :
    walkTerm resolved (.combinedTerm left op right) s =
      if op = "or" then .ok { s with afterMerge := s.afterMerge.andTerm (.combinedTerm left op right) }
      else walkConjunction resolved left right (walkTerm resolved left) (walkTerm resolved right) s :=
  rfl

theorem walkTerm_mergeTerm (preFilter : Term) (merge : List MergeQuery) (postFilter : Option Term)
    (s : MergeSplit) :
    walkTerm resolved (.mergeTerm preFilter merge postFilter) s =
      walkMergeTerm resolved preFilter postFilter (walkTerm resolved preFilter) s :=
  rfl

/-- A `MergeTerm` with a post-filter is walked as the conjunction of its two filters. -/
theorem walkTerm_mergeTerm_some (preFilter postFilter : Term) (merge : List MergeQuery)
    (s : MergeSplit) :
    walkTerm resolved (.mergeTerm preFilter merge (some postFilter)) s =
      walkTerm resolved (.combinedTerm preFilter "and" postFilter) s := by
  rfl

/-- `name_predicate(predicate)`: `anc_dec, kind, _ = name.split(".", 2)` raises a
`ValueError` on a name of fewer than three segments. -/
def namePredicate (name : String) : Except PyError (String × String) :=
  match split name '.' 2 with
  | [ancDec, kind, _] => .ok (ancDec, kind)
  | parts => .error (.valueError
      ("not enough values to unpack (expected 3, got " ++ toString parts.length ++ ")"))

/-- `merge_query_for(anc_dec, kind)`: `is(kind) <-[1:Max]- all` for ancestors,
`is(kind) -[1:Max]-> all` for descendants. Nothing in its `try` raises, so the
`AttributeError` of its `except ValueError` is never built. -/
def mergeQueryFor (ancDec kind : String) : MergeQuery :=
  let direction := if ancDec = "ancestors" then Direction.inbound else Direction.outbound
  let navigation : Navigation := { start := 1, «until» := Navigation.Max, direction := direction }
  { name := ancDec ++ "." ++ kind
    query := { current := { term := .isTerm [kind] }
               rest := [{ term := .allTerm, navigation := some navigation }] } }

/-- Modelled from the spec: `group_by` (core.util, not under src/) groups the items under
the key `f` gives them, keys in first-occurrence order; an exception of `f` propagates. -/
def groupBy {α K : Type} [DecidableEq K] (f : α → Except PyError K) (xs : List α) :
    Except PyError (PyDict K (List α)) :=
  xs.foldlM (fun d x => do let k ← f x; pure (d.appendAt k x)) ∅

/-- The merge queries of a top-level `MergeTerm`, `[]` for any other term. -/
def Term.merges : Term → List MergeQuery
  | .mergeTerm _ merge _ => merge
  | _ => []

/-- `queries`: one created merge query per `(anc_dec, kind)`, a merge query of the part's
own `MergeTerm` replacing the created one of its name. -/
def liftedMerges (existing : List MergeQuery) (kinds : List (String × String)) : List MergeQuery :=
  let existing := PyDict.ofList (existing.map fun a => (a.name, a))
  let created := PyDict.ofList (kinds.map fun (ancDec, kind) =>
    ((mergeQueryFor ancDec kind).name, mergeQueryFor ancDec kind))
  (created.merge existing).values

/-- `Part.rewrite_for_ancestors_descendants()`. -/
def Part.rewriteForAncestorsDescendants (p : Part) : Except PyError Part :=
  if hasAncestorDescendant resolved p.term then do
    let s ← walkTerm resolved p.term ⟨.allTerm, .allTerm⟩
    let predicates ← groupBy namePredicate (ancestorDescendantPredicates resolved s.afterMerge)
    pure { p with
      term := (.mergeTerm s.beforeMerge (liftedMerges p.term.merges predicates.keys)
        (some s.afterMerge)) }
  else pure p

/-- What a successful rewrite returns: the part itself when its term has no
ancestor/descendant predicate, and otherwise the split of a successful walk. -/
theorem rewriteForAncestorsDescendants_ok {p p' : Part}
    (h : p.rewriteForAncestorsDescendants resolved = .ok p') :
    (hasAncestorDescendant resolved p.term = false ∧ p' = p) ∨
    (hasAncestorDescendant resolved p.term = true ∧
      ∃ s, walkTerm resolved p.term ⟨.allTerm, .allTerm⟩ = .ok s ∧
      ∃ predicates, groupBy namePredicate (ancestorDescendantPredicates resolved s.afterMerge) =
        .ok predicates ∧
      p' = { p with
        term := (.mergeTerm s.beforeMerge (liftedMerges p.term.merges predicates.keys)
          (some s.afterMerge)) }) := by
  unfold Part.rewriteForAncestorsDescendants at h
  split at h
  · obtain ⟨s, hs, predicates, hp, rfl⟩ := by simpa only [Except.bind_eq_ok, Except.pure_eq_ok] using h
    exact .inr ⟨‹_›, s, hs, predicates, hp, rfl⟩
  · exact .inl ⟨Bool.eq_false_iff.mpr ‹_›, (Except.pure_eq_ok.mp h).symm⟩

end Rewrite

/-- The names among `GraphResolver.resolved_property_names` that the repository reads as plain
properties of a node: the ancestor names `ReportResourceData` projects and the ids the
inspector filters accounts and clouds by. -/
def resolvedPropertyNames : List String :=
  ["ancestors.cloud.reported.id", "ancestors.cloud.reported.name",
    "ancestors.account.reported.id", "ancestors.account.reported.name",
    "ancestors.region.reported.name", "ancestors.zone.reported.name"]

end Resoto
