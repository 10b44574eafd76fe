import Resoto.Query.Model

/-!
# The query model — §4, the fluent builders

`Query.by`, `mk_term`, `filter`, `filter_with`, `traverse`, `group_by`, `add_sort`,
`with_limit`, `tag`, `merge_preamble` and `combine`, each returning a new query as the
source's `replace` does. Index 0 of `parts` is `current`; a builder that "inserts at 0"
makes the old parts the new `rest`.
-/

namespace Resoto

/-- `Union[str, Term]`, an argument of `Query.by`, `filter` and `mk_term`. -/
inductive TermArg where
  | kind (name : String)
  | term (t : Term)

/-- `make_term` inside `mk_term`: a string names a kind. -/
def TermArg.makeTerm : TermArg → Term
  | .kind name => .isTerm [name]
  | .term t => t

/-- `P(name, **kwargs)`, the predicate builder. -/
structure P where
  name : String
  args : List (String × Json) := []

/-- `P.single(name)`. -/
def P.single (name : String) : P := ⟨name, []⟩

/-- `P(name) == other`. -/
def P.eq (p : P) (other : Json) : Term := .predicate p.name "==" other p.args

/-- `P(name).is_in(other)`. -/
def P.isIn (p : P) (other : List Json) : Term := .predicate p.name "in" (.arr other) p.args

namespace QueryOf

/-- `Query(parts, preamble, aggregate)`: `__post_init__` rejects empty parts. -/
def ofParts {P : Type} (parts : List P) (preamble : PyDict String Json)
    (aggregate : Option Aggregate) : Except PyError (QueryOf P) :=
  match parts with
  | [] => .error (.attributeError "Expected non empty parts but got []")
  | current :: rest => .ok ⟨current, rest, preamble, aggregate⟩

theorem ofParts_cons {P : Type} (p : P) (ps : List P) (preamble : PyDict String Json)
    (aggregate : Option Aggregate) : ofParts (p :: ps) preamble aggregate = .ok ⟨p, ps, preamble, aggregate⟩ :=
  rfl

end QueryOf

namespace Query

/-- `Query.mk_term(term, *args)`: the terms and-ed from the left by `CombinedTerm`. -/
def mkTerm (term : TermArg) (args : List TermArg) : Term :=
  (args.map TermArg.makeTerm).foldl (fun l r => .combinedTerm l "and" r) term.makeTerm

/-- `Query.by(term, *terms, preamble=...)` (`by` is a keyword of Lean). -/
def «by» (term : TermArg) (terms : List TermArg := []) (preamble : PyDict String Json := ∅) :
    Query :=
  { current := { term := mkTerm term terms }, preamble := preamble }

/-- `Query.filter(term, *terms)`. -/
def filter (q : Query) (term : TermArg) (terms : List TermArg := []) : Query :=
  let res := mkTerm term terms
  match q.current.navigation with
  | none => { q with current := { term := .combinedTerm q.current.term "and" res } }
  | some _ => { q with current := { term := res }, rest := q.parts }

/-- `Query.filter_with(clause)`. -/
def filterWith (q : Query) (clause : WithClause) : Query :=
  { q with current := { q.current with withClause := some clause } }

/-- `Query.traverse(start, until, edge_type, direction)`. -/
def traverse (q : Query) (start «until» : Int) (edgeType : String := EdgeType.default)
    (direction : String := Direction.outbound) : Query :=
  match q.current.navigation with
  | some nav =>
    if nav.edgeType = edgeType ∧ nav.direction = direction then
      let startM := min Navigation.Max (start + nav.start)
      let untilM := min Navigation.Max («until» + nav.«until»)
      { q with current := { q.current with navigation := some ⟨startM, untilM, edgeType, direction⟩ } }
    else
      { q with
        current := { term := .allTerm, navigation := some ⟨start, «until», edgeType, direction⟩ }
        rest := q.parts }
  | none => { q with current := { q.current with navigation := some ⟨start, «until», edgeType, direction⟩ } }

/-- `Query.traverse_out(start, until, edge_type)`. -/
def traverseOut (q : Query) (start «until» : Int := 1) (edgeType : String := EdgeType.default) :
    Query :=
  q.traverse start «until» edgeType Direction.outbound

/-- `Query.traverse_in(start, until, edge_type)`. -/
def traverseIn (q : Query) (start «until» : Int := 1) (edgeType : String := EdgeType.default) :
    Query :=
  q.traverse start «until» edgeType Direction.inbound

/-- `Query.traverse_inout(start, until, edge_type)`. -/
def traverseInout (q : Query) (start «until» : Int := 1) (edgeType : String := EdgeType.default) :
    Query :=
  q.traverse start «until» edgeType Direction.any

/-- `Query.group_by(variables, funcs)`. -/
def groupBy (q : Query) (vars : List AggregateVariable) (funcs : List AggregateFunction) :
    Query :=
  { q with aggregate := some ⟨vars, funcs⟩ }

/-- `Query.__change_current_part(fn)`: a part that already navigates is finished, so `fn`
applies to a fresh `Part(AllTerm())` put in front. -/
def changeCurrentPart (q : Query) (fn : Part → Part) : Query :=
  match q.current.navigation with
  | some _ => { q with current := fn { term := .allTerm }, rest := q.parts }
  | none => { q with current := fn q.current }

/-- `Query.add_sort(name, order)`. -/
def addSort (q : Query) (name : String) (order : String := SortOrder.Asc) : Query :=
  q.changeCurrentPart fun p => { p with sort := p.sort ++ [⟨name, order⟩] }

/-- `Query.with_limit(num)`. -/
def withLimit (q : Query) (num : Int) : Query :=
  q.changeCurrentPart fun p => { p with limit := some num }

/-- `Query.tag(name)`. -/
def tag (q : Query) (name : String) : Query :=
  q.changeCurrentPart fun p => { p with tag := some name }

/-- `Query.merge_preamble(preamble)`. -/
def mergePreamble (q : Query) (preamble : PyDict String Json) : Query :=
  { q with preamble := if q.preamble.items.isEmpty then preamble else q.preamble.merge preamble }

/-- Modelled from the spec: `combine_optional` (core.util, not under src/) combines two
present values and otherwise keeps the one that is present ("take the tighter limit"). -/
def combineOptional {α : Type} (left right : Option α) (combine : α → α → α) : Option α :=
  match left, right with
  | some l, some r => some (combine l r)
  | some l, none => some l
  | none, r => r

/-- The part `combine` makes of `self`'s current part and `other`'s first-executed part,
when `self`'s current part does not navigate: the terms are and-ed, sorts concatenated,
the tighter limit kept, and the navigation is `other`'s. -/
def fuse (leftLast rightFirst : Part) : Part :=
  let term := leftLast.term.andTerm rightFirst.term
  let tag := if truthyStr leftLast.tag then leftLast.tag else rightFirst.tag
  let withClause := if leftLast.withClause.isSome then leftLast.withClause else rightFirst.withClause
  let sort := leftLast.sort ++ rightFirst.sort
  let limit := combineOptional leftLast.limit rightFirst.limit min
  ⟨term, tag, withClause, sort, limit, rightFirst.navigation⟩

@[simp] theorem fuse_navigation (leftLast rightFirst : Part) :
    (fuse leftLast rightFirst).navigation = rightFirst.navigation := rfl

/-- `Query.combine(other)`: `other` runs first. When `self`'s current part navigates the
part lists are concatenated; otherwise `other`'s first-executed part (`parts[-1]`) and
`self`'s current part are fused into one. -/
def combine (self other : Query) : Except PyError Query :=
  let preamble := self.preamble.merge other.preamble
  if self.aggregate.isSome ∧ other.aggregate.isSome then
    .error (.attributeError "Can not combine 2 aggregations!")
  else
    let aggregate := if self.aggregate.isSome then self.aggregate else other.aggregate
    let leftLast := self.current
    let rightFirst := other.parts.getLast (List.cons_ne_nil _ _)
    if leftLast.navigation.isSome then
      QueryOf.ofParts (other.parts ++ self.parts) preamble aggregate
    else if leftLast.withClause.isSome ∧ rightFirst.withClause.isSome then
      .error (.attributeError "Can not combine 2 with clauses!")
    else if truthyStr leftLast.tag ∧ truthyStr rightFirst.tag then
      .error (.attributeError "Can not combine 2 tag clauses!")
    else
      QueryOf.ofParts (other.parts.dropLast ++ fuse leftLast rightFirst :: self.rest) preamble aggregate

theorem ofParts_eq_ok {P : Type} {parts : List P} {preamble : PyDict String Json}
    {aggregate : Option Aggregate} {r : QueryOf P} :
    QueryOf.ofParts parts preamble aggregate = .ok r ↔
      r.parts = parts ∧ r.preamble = preamble ∧ r.aggregate = aggregate := by
  cases parts <;> cases r <;> simp [QueryOf.ofParts, eq_comm, and_assoc]

/-- What a successful `combine` returns: the merged preamble, the one aggregate, and the
concatenated or the fused parts. -/
theorem combine_ok {self other r : Query} (h : self.combine other = .ok r) :
    r.preamble = self.preamble.merge other.preamble ∧
    r.aggregate = (if self.aggregate.isSome then self.aggregate else other.aggregate) ∧
    ((self.current.navigation.isSome ∧ r.parts = other.parts ++ self.parts) ∨
     (self.current.navigation.isSome = false ∧
      r.parts = other.parts.dropLast ++
        fuse self.current (other.parts.getLast (List.cons_ne_nil _ _)) :: self.rest)) := by
  unfold combine at h
  simp only at h
  generalize (if self.aggregate.isSome = true then self.aggregate else other.aggregate) = agg at h ⊢
  by_cases hboth : self.aggregate.isSome = true ∧ other.aggregate.isSome = true
  · rw [if_pos hboth] at h; cases h
  by_cases hnav : self.current.navigation.isSome = true
  · rw [if_neg hboth, if_pos hnav] at h
    obtain ⟨hparts, hpre, hagg⟩ := ofParts_eq_ok.mp h
    exact ⟨hpre, hagg, .inl ⟨hnav, hparts⟩⟩
  rw [if_neg hboth, if_neg hnav] at h
  split at h
  · cases h
  split at h
  · cases h
  obtain ⟨hparts, hpre, hagg⟩ := ofParts_eq_ok.mp h
  exact ⟨hpre, hagg, .inr ⟨Bool.not_eq_true _ ▸ hnav, hparts⟩⟩

end Query

end Resoto
