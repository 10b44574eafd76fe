import Resoto.Query.Reachable

/-!
# Laws of the fluent builders

`filter` on a query whose current part does not navigate replaces that part by
`Part(CombinedTerm(first.term, "and", res))`: a fresh part holding the conjunction, where
the sibling builders (`add_sort`, `with_limit`, `tag`, `filter_with`, `traverse`) all
`replace` one field of the part they change. So the part's tag, with-clause, sort and limit
are dropped (`filter_after_limit_sort_tag`). It also builds the conjunction with the
`CombinedTerm` constructor rather than with `&`, which `combine` uses and which drops an
`AllTerm` operand (`filter_of_allTerm`).
-/

namespace Resoto

namespace Query

/-- `Query.by("aws_instance").with_limit(10).add_sort("name").tag("t")`. -/
def limitedSortedTagged : Query :=
  (((Query.«by» (.kind "aws_instance")).withLimit 10).addSort "name").tag "t"

/-- **`filter` drops the current part's limit, sort and tag.** -/
theorem filter_after_limit_sort_tag :
    limitedSortedTagged.current.limit = some 10 ∧
    limitedSortedTagged.current.sort = [⟨"name", "asc"⟩] ∧
    limitedSortedTagged.current.tag = some "t" ∧
    (limitedSortedTagged.filter (.term ((P.single "x").eq (.num 1)))).current.limit = none ∧
    (limitedSortedTagged.filter (.term ((P.single "x").eq (.num 1)))).current.sort = [] ∧
    (limitedSortedTagged.filter (.term ((P.single "x").eq (.num 1)))).current.tag = none := by
  decide

/-- **`filter` keeps an `AllTerm` operand.** `Query.by(AllTerm()).filter(x == 1)` has the
current term `(all and x == 1)`, although its input terms hold no `CombinedTerm`. -/
theorem filter_of_allTerm :
    ((Query.«by» (.term .allTerm)).filter (.term ((P.single "x").eq (.num 1)))).current.term =
      .combinedTerm .allTerm "and" ((P.single "x").eq (.num 1)) :=
  rfl

/-- Two capped depths add up to the capped sum once the added ones are non-negative. -/
theorem min_add_min_eq {M a b c : Int} (hb : 0 ≤ b) (hc : 0 ≤ c) :
    min M (b + min M (a + c)) = min M (min M (a + b) + c) := by
  omega

/-- **Two traversals along one edge type and direction add up**, capped at
`Navigation.Max`: when the current part does not navigate, navigates along another edge
type or direction, or navigates this way with a non-negative start and until. Only the
second traversal's depths need to be non-negative. -/
theorem traverse_traverse (q : Query) (edgeType direction : String) (a₁ b₁ : Int) {a₂ b₂ : Int}
    (ha₂ : 0 ≤ a₂) (hb₂ : 0 ≤ b₂)
    (hq : ∀ n, q.current.navigation = some n → n.edgeType = edgeType → n.direction = direction →
      0 ≤ n.start ∧ 0 ≤ n.«until») :
    (q.traverse a₁ b₁ edgeType direction).traverse a₂ b₂ edgeType direction =
      q.traverse (min Navigation.Max (a₁ + a₂)) (min Navigation.Max (b₁ + b₂)) edgeType direction := by
  obtain ⟨⟨term, tag, withClause, sort, limit, navigation⟩, rest, preamble, aggregate⟩ := q
  cases navigation with
  | none => simp [traverse, Int.add_comm]
  | some n =>
    by_cases h : n.edgeType = edgeType ∧ n.direction = direction
    · obtain ⟨hs, hu⟩ := hq n rfl h.1 h.2
      simp only [traverse, h, and_self, if_true, min_add_min_eq ha₂ hs, min_add_min_eq hb₂ hu]
    · simp [traverse, h, Int.add_comm]

theorem traverse_traverse_byKind :
    (0 : Int) ≤ 1 ∧ ((Query.«by» (.kind "k")).traverse 1 1 EdgeType.default Direction.outbound).traverse 1 1
        EdgeType.default Direction.outbound =
      (Query.«by» (.kind "k")).traverse (min Navigation.Max (1 + 1)) (min Navigation.Max (1 + 1))
        EdgeType.default Direction.outbound :=
  ⟨by decide, traverse_traverse _ _ _ 1 1 (by decide) (by decide) nofun⟩

/-- `Query.by("k").traverse(-1, 1)`, whose current part navigates with start `-1`. -/
def negativeStartQuery : Query := (Query.«by» (.kind "k")).traverse (-1) 1

/-- **Capping twice is not capping once below zero.** From start `-1`, traversing
`10000` then `1` gives start `10000`, one traversal of `10000 + 1` gives `9999`. -/
theorem traverse_traverse_negativeStart :
    ((negativeStartQuery.traverse 10000 1).traverse 1 1).current.navigation.map (·.start) =
        some 10000 ∧
      (negativeStartQuery.traverse (min Navigation.Max (10000 + 1)) (min Navigation.Max (1 + 1))
        ).current.navigation.map (·.start) = some 9999 ∧
      (negativeStartQuery.traverse 10000 1).traverse 1 1 ≠
        negativeStartQuery.traverse (min Navigation.Max (10000 + 1)) (min Navigation.Max (1 + 1)) :=
  ⟨by decide, by decide,
    fun h => absurd (congrArg (fun q : Query => q.current.navigation.map (·.start)) h) (by decide)⟩

end Query

end Resoto
