import Resoto.Query.Rewrite

/-!
# Queries the fluent API builds: consecutive parts are joined by a navigation

A query is run from its last part to `parts[0]`, each part handing its result to the next
through its own `navigation` (the spec: "adjacent parts are joined by the preceding part's
navigation"). So every part other than `parts[0]`, the one still being built, must carry a
navigation. `Query.Reachable` is the set of queries built from `Query.by` by the fluent
builders, `combine` included; each builder keeps the invariant, so every reachable query
has it, and so do the merge sub-queries of the ancestor/descendant rewrite.
-/

namespace Resoto

namespace Query

/-- Every part after `parts[0]` carries a navigation. -/
def NavigationJoined (q : Query) : Prop := ∀ p ∈ q.rest, p.navigation.isSome

/-- The queries built from `Query.by` by successful calls of the fluent builders. -/
inductive Reachable : Query → Prop
  | «by» (term : TermArg) (terms : List TermArg) (preamble : PyDict String Json) :
      Reachable (Query.«by» term terms preamble)
  | filter {q : Query} (hq : Reachable q) (term : TermArg) (terms : List TermArg) :
      Reachable (q.filter term terms)
  | filterWith {q : Query} (hq : Reachable q) (clause : WithClause) :
      Reachable (q.filterWith clause)
  | traverse {q : Query} (hq : Reachable q) (start «until» : Int) (edgeType direction : String) :
      Reachable (q.traverse start «until» edgeType direction)
  | groupBy {q : Query} (hq : Reachable q) (vars : List AggregateVariable)
      (funcs : List AggregateFunction) : Reachable (q.groupBy vars funcs)
  | addSort {q : Query} (hq : Reachable q) (name order : String) : Reachable (q.addSort name order)
  | withLimit {q : Query} (hq : Reachable q) (num : Int) : Reachable (q.withLimit num)
  | tag {q : Query} (hq : Reachable q) (name : String) : Reachable (q.tag name)
  | mergePreamble {q : Query} (hq : Reachable q) (preamble : PyDict String Json) :
      Reachable (q.mergePreamble preamble)
  | changeVariable {q : Query} (hq : Reachable q) (fn : String → String) :
      Reachable (q.changeVariable fn)
  | onSection {q : Query} (hq : Reachable q) (sect : Option String) : Reachable (q.onSection sect)
  | relativeToSection {q : Query} (hq : Reachable q) (sect : String) :
      Reachable (q.relativeToSection sect)
  | combine {q other r : Query} (hq : Reachable q) (ho : Reachable other)
      (h : q.combine other = .ok r) : Reachable r

/-! ## One lemma per builder -/

variable {q : Query}

/-- When the current part navigates too, every part does. -/
theorem navigation_of_mem_parts (h : q.NavigationJoined) (hnav : q.current.navigation.isSome) :
    ∀ p ∈ q.parts, p.navigation.isSome := by
  intro p hp
  rw [QueryOf.parts_eq, List.mem_cons] at hp
  rcases hp with rfl | hp
  exacts [hnav, h p hp]

/-- Putting a new part in front of a query whose current part navigates. -/
theorem navigationJoined_push (h : q.NavigationJoined) (hnav : q.current.navigation.isSome)
    {r : Query} (hr : r.rest = q.parts) : r.NavigationJoined :=
  fun p hp => navigation_of_mem_parts h hnav p (hr ▸ hp)

theorem filter_navigationJoined (h : q.NavigationJoined) (term : TermArg) (terms : List TermArg) :
    (q.filter term terms).NavigationJoined := by
  unfold filter
  split
  · exact h
  · exact navigationJoined_push h (by simp [*]) rfl

theorem traverse_navigationJoined (h : q.NavigationJoined) (start «until» : Int)
    (edgeType direction : String) : (q.traverse start «until» edgeType direction).NavigationJoined := by
  unfold traverse
  split
  · split
    · exact h
    · exact navigationJoined_push h (by simp [*]) rfl
  · exact h

theorem changeCurrentPart_navigationJoined (h : q.NavigationJoined) (fn : Part → Part) :
    (q.changeCurrentPart fn).NavigationJoined := by
  unfold changeCurrentPart
  split
  · exact navigationJoined_push h (by simp [*]) rfl
  · exact h

theorem changeVariable_navigationJoined (h : q.NavigationJoined) (fn : String → String) :
    (q.changeVariable fn).NavigationJoined := by
  simpa [NavigationJoined] using h

theorem combine_navigationJoined {other r : Query} (hq : q.NavigationJoined)
    (ho : other.NavigationJoined) (h : q.combine other = .ok r) : r.NavigationJoined := by
  obtain ⟨-, -, ⟨hnav, hparts⟩ | ⟨-, hparts⟩⟩ := combine_ok h
  · have hrest : r.rest = other.rest ++ q.parts := by
      simpa using congrArg List.tail hparts
    intro p hp
    rw [hrest, List.mem_append] at hp
    rcases hp with hp | hp
    exacts [ho p hp, navigation_of_mem_parts hq hnav p hp]
  · cases hrest : other.rest with
    | nil =>
      have : r.rest = q.rest := by simpa [hrest] using congrArg List.tail hparts
      exact fun p hp => hq p (this ▸ hp)
    | cons x xs =>
      have hx : ∀ p ∈ x :: xs, p.navigation.isSome := hrest ▸ ho
      have : r.rest = (x :: xs).dropLast ++
          fuse q.current ((x :: xs).getLast (List.cons_ne_nil _ _)) :: q.rest := by
        simpa [hrest, List.getLast_cons] using congrArg List.tail hparts
      intro p hp
      simp only [this, List.mem_append, List.mem_cons] at hp
      rcases hp with hp | rfl | hp
      · exact hx p (List.dropLast_subset _ hp)
      · simpa using hx _ (List.getLast_mem _)
      · exact hq p hp

/-- **Consecutive parts of a built query are joined by a navigation.** Every query the
fluent API builds keeps every part after `parts[0]` navigating, and so does every merge
sub-query the ancestor/descendant rewrite builds. -/
theorem reachable_navigationJoined :
    (∀ q : Query, q.Reachable → q.NavigationJoined) ∧
      ∀ ancDec kind : String, (mergeQueryFor ancDec kind).query.NavigationJoined := by
  refine ⟨fun q hq => ?_, fun ancDec kind => by simp [NavigationJoined, mergeQueryFor]⟩
  induction hq with
  | «by» => simp [NavigationJoined, Query.«by»]
  | filter _ term terms ih => exact filter_navigationJoined ih term terms
  | filterWith _ _ ih | groupBy _ _ _ ih | mergePreamble _ _ ih => exact ih
  | traverse _ start «until» edgeType direction ih =>
    exact traverse_navigationJoined ih start «until» edgeType direction
  | addSort _ _ _ ih | withLimit _ _ ih | tag _ _ ih => exact changeCurrentPart_navigationJoined ih _
  | changeVariable _ fn ih | onSection _ _ ih => exact changeVariable_navigationJoined ih _
  | relativeToSection _ sect ih =>
    unfold relativeToSection
    split
    · exact changeVariable_navigationJoined ih _
    · exact ih
  | combine _ _ h ihq iho => exact combine_navigationJoined ihq iho h

theorem reachable_navigationJoined_traverseFilter :
    (((Query.«by» (.kind "aws_instance")).traverse 1 1 EdgeType.default Direction.outbound).filter
      (.term ((P.single "x").eq (.num 1)))).NavigationJoined :=
  reachable_navigationJoined.1 _ (.filter (.traverse (.«by» _ _ _) _ _ _ _) _ _)

end Query

end Resoto
