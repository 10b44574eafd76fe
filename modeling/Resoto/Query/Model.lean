import Resoto.Python.Dict

/-!
# The query model (`core/query/model.py`) — §1, the syntax

`Term`, `MergeQuery`, `Query`, `Part` and `WithClause` are mutually recursive in the
source: a `MergeTerm` carries merge queries, a query carries parts, a part carries a term
and a with-clause, and a with-clause carries a term and another with-clause. Here `Term`
is the one inductive; the dataclasses around it are structures over the type they
contain (`PartOf`, `QueryOf`, …), instantiated at `Term` right after it, so that every
field keeps its source name and its default.

A `Query`'s `parts` is never empty (`__post_init__` raises on `[]`): the structure stores
`parts[0]`, the part being built, and `parts[1:]` apart, so an empty query cannot be
built. Parts are in reverse execution order, as in the source.

Names the source imports from modules not under src/ (`EdgeType`, `Direction`) are given
the values the source itself compares against.
-/

namespace Resoto

/-! ## Leaves -/

/-- Modelled from the spec: `EdgeType.default` (core.model.graph_access, not under src/). -/
def EdgeType.default : String := "default"

/-- Modelled from the spec: `Direction.outbound` (core.model.graph_access). -/
def Direction.outbound : String := "out"

/-- Modelled from the spec: `Direction.inbound`, the `"in"` that `analytics` compares with. -/
def Direction.inbound : String := "in"

/-- Modelled from the spec: `Direction.any`. -/
def Direction.any : String := "inout"

/-- `Navigation(start, until, edge_type, direction)`. -/
structure Navigation where
  start : Int := 1
  «until» : Int := 1
  edgeType : String := EdgeType.default
  direction : String := Direction.outbound
deriving DecidableEq, Repr

/-- `Navigation.Max`, the sentinel for an unbounded depth. -/
def Navigation.Max : Int := 10000

/-- `WithClauseFilter(op, num)`. -/
structure WithClauseFilter where
  op : String
  num : Int
deriving DecidableEq, Repr

/-- `SortOrder.Asc`. -/
def SortOrder.Asc : String := "asc"

/-- `SortOrder.Desc`. -/
def SortOrder.Desc : String := "desc"

/-- `SortOrder.reverse`. -/
def SortOrder.reverse (order : String) : String :=
  if order = SortOrder.Desc then SortOrder.Asc else SortOrder.Desc

/-- The source's `Sort(name, order)` (`Sort` is a keyword of Lean). -/
structure SortBy where
  name : String
  order : String := SortOrder.Asc
deriving DecidableEq, Repr

/-- `AggregateVariableName(name)`. -/
structure AggregateVariableName where
  name : String
deriving DecidableEq, Repr

/-- `AggregateVariableCombined(parts)`: literal strings and variable names, `"foo_{a}"`. -/
structure AggregateVariableCombined where
  parts : List (String ⊕ AggregateVariableName)
deriving DecidableEq, Repr

/-- `AggregateVariable(name, as_name)`. -/
structure AggregateVariable where
  name : AggregateVariableName ⊕ AggregateVariableCombined
  asName : Option String := none
deriving DecidableEq, Repr

/-- `AggregateFunction(function, name, ops, as_name)`; `name` is a `str` or an `int`. -/
structure AggregateFunction where
  function : String
  name : String ⊕ Int
  ops : List (String × Int) := []
  asName : Option String := none
deriving DecidableEq, Repr

/-- `Aggregate(group_by, group_func)`. -/
structure Aggregate where
  groupBy : List AggregateVariable
  groupFunc : List AggregateFunction
deriving DecidableEq, Repr

/-! ## The recursive syntax -/

/-- `WithClause(with_filter, navigation, term, with_clause)` over a term type. -/
structure WithClauseOf (T : Type) where
  withFilter : WithClauseFilter
  navigation : Navigation
  term : Option T := none
  withClause : Option (WithClauseOf T) := none

/-- `Part(term, tag, with_clause, sort, limit, navigation)`. -/
structure PartOf (T W : Type) where
  term : T
  tag : Option String := none
  withClause : Option W := none
  sort : List SortBy := []
  limit : Option Int := none
  navigation : Option Navigation := none

/-- `Query(parts, preamble, aggregate)`, its parts split as `parts[0]` and `parts[1:]`. -/
structure QueryOf (P : Type) where
  current : P
  rest : List P := []
  preamble : PyDict String Json := ∅
  aggregate : Option Aggregate := none

/-- `MergeQuery(name, query, only_first)`. -/
structure MergeQueryOf (Q : Type) where
  name : String
  query : Q
  onlyFirst : Bool := true

/-- The closed sum of term classes. `op` of a `CombinedTerm` is `"and"` or `"or"` when
built by the source, any string when read by `from_json`. -/
inductive Term where
  | allTerm
  | notTerm (term : Term)
  | predicate (name op : String) (value : Json) (args : List (String × Json))
  | combinedTerm (left : Term) (op : String) (right : Term)
  | idTerm (id : String)
  | isTerm (kinds : List String)
  | functionTerm (fn propertyPath : String) (args : List Json)
  | mergeTerm (preFilter : Term)
      (merge : List (MergeQueryOf (QueryOf (PartOf Term (WithClauseOf Term)))))
      (postFilter : Option Term)
deriving Inhabited

abbrev WithClause := WithClauseOf Term
abbrev Part := PartOf Term WithClause
abbrev Query := QueryOf Part
abbrev MergeQuery := MergeQueryOf Query

/-- `query.parts`, index 0 first. -/
def QueryOf.parts {P : Type} (q : QueryOf P) : List P := q.current :: q.rest

@[simp] theorem QueryOf.parts_eq {P : Type} (q : QueryOf P) : q.parts = q.current :: q.rest := rfl

/-! ## Term construction (`Term.__and__`, `__or__`, `not_term`) -/

namespace Term

/-- `self & other`: `AllTerm` is the unit of `and`. -/
def andTerm : Term → Term → Term
  | .allTerm, other => other
  | self, .allTerm => self
  | self, other => .combinedTerm self "and" other

/-- `self | other`: `AllTerm` absorbs `or`. -/
def orTerm : Term → Term → Term
  | .allTerm, _ => .allTerm
  | _, .allTerm => .allTerm
  | self, other => .combinedTerm self "or" other

@[simp] theorem allTerm_andTerm (t : Term) : Term.allTerm.andTerm t = t := by cases t <;> rfl

@[simp] theorem andTerm_allTerm (t : Term) : t.andTerm .allTerm = t := by cases t <;> rfl

theorem andTerm_of_ne {s t : Term} (hs : s ≠ .allTerm) (ht : t ≠ .allTerm) :
    s.andTerm t = .combinedTerm s "and" t := by
  cases s <;> cases t <;> first | rfl | contradiction

end Term

/-! ## §2  Renaming variables (`change_variable`)

Every `change_variable` walks its value and applies `fn` to each variable name: predicate
names, function property paths, sort names, aggregate variable names and string
aggregate-function names, down through merge queries and with-clauses. The list
comprehensions of the source are the `…s` functions, so that the walk is structural. -/

/-- `Sort.change_variable`. -/
def SortBy.changeVariable (fn : String → String) (s : SortBy) : SortBy := { s with name := fn s.name }

/-- `AggregateVariableName.change_variable`. -/
def AggregateVariableName.changeVariable (fn : String → String) (v : AggregateVariableName) :
    AggregateVariableName := ⟨fn v.name⟩

/-- `AggregateVariableCombined.change_variable`: literals stay, names are renamed. -/
def AggregateVariableCombined.changeVariable (fn : String → String)
    (v : AggregateVariableCombined) : AggregateVariableCombined :=
  ⟨v.parts.map (Sum.map id (AggregateVariableName.changeVariable fn))⟩

/-- `AggregateVariable.change_variable`. -/
def AggregateVariable.changeVariable (fn : String → String) (v : AggregateVariable) :
    AggregateVariable :=
  { v with
    name := v.name.map (AggregateVariableName.changeVariable fn)
      (AggregateVariableCombined.changeVariable fn) }

/-- `AggregateFunction.change_variable`: only a `str` name is a variable. -/
def AggregateFunction.changeVariable (fn : String → String) (f : AggregateFunction) :
    AggregateFunction :=
  match f.name with
  | .inl name => { f with name := .inl (fn name) }
  | .inr _ => f

/-- `Aggregate.change_variable`. -/
def Aggregate.changeVariable (fn : String → String) (a : Aggregate) : Aggregate :=
  ⟨a.groupBy.map (AggregateVariable.changeVariable fn),
    a.groupFunc.map (AggregateFunction.changeVariable fn)⟩

mutual

/-- `Term.change_variable` (its inner `walk`). -/
def Term.changeVariable (fn : String → String) : Term → Term
  | .combinedTerm left op right => .combinedTerm (left.changeVariable fn) op (right.changeVariable fn)
  | .predicate name op value args => .predicate (fn name) op value args
  | .functionTerm f propertyPath args => .functionTerm f (fn propertyPath) args
  | .mergeTerm preFilter merge postFilter =>
    .mergeTerm (preFilter.changeVariable fn) (MergeQuery.changeVariables fn merge)
      (Term.changeVariableOpt fn postFilter)
  | .notTerm term => .notTerm (term.changeVariable fn)
  | term => term

/-- `walk(t) if t else None`. -/
def Term.changeVariableOpt (fn : String → String) : Option Term → Option Term
  | some t => some (t.changeVariable fn)
  | none => none

/-- `[mq.change_variable(fn) for mq in merge]`. -/
def MergeQuery.changeVariables (fn : String → String) : List MergeQuery → List MergeQuery
  | [] => []
  | mq :: mqs => MergeQuery.changeVariable fn mq :: MergeQuery.changeVariables fn mqs

/-- `MergeQuery.change_variable`. -/
def MergeQuery.changeVariable (fn : String → String) : MergeQuery → MergeQuery
  | ⟨name, query, onlyFirst⟩ => ⟨name, Query.changeVariable fn query, onlyFirst⟩

/-- `Query.change_variable`. -/
def Query.changeVariable (fn : String → String) : Query → Query
  | ⟨current, rest, preamble, aggregate⟩ =>
    ⟨Part.changeVariable fn current, Part.changeVariables fn rest, preamble,
      aggregate.map (Aggregate.changeVariable fn)⟩

/-- `[p.change_variable(fn) for p in parts]`. -/
def Part.changeVariables (fn : String → String) : List Part → List Part
  | [] => []
  | p :: ps => Part.changeVariable fn p :: Part.changeVariables fn ps

/-- `Part.change_variable`. -/
def Part.changeVariable (fn : String → String) : Part → Part
  | ⟨term, tag, withClause, sort, limit, navigation⟩ =>
    ⟨term.changeVariable fn, tag, WithClause.changeVariableOpt fn withClause,
      sort.map (SortBy.changeVariable fn), limit, navigation⟩

/-- `w.change_variable(fn) if w else None`. -/
def WithClause.changeVariableOpt (fn : String → String) : Option WithClause → Option WithClause
  | some w => some (WithClause.changeVariable fn w)
  | none => none

/-- `WithClause.change_variable`. -/
def WithClause.changeVariable (fn : String → String) : WithClause → WithClause
  | ⟨withFilter, navigation, term, withClause⟩ =>
    ⟨withFilter, navigation, Term.changeVariableOpt fn term,
      WithClause.changeVariableOpt fn withClause⟩

end

@[simp] theorem Part.changeVariables_eq_map (fn : String → String) (ps : List Part) :
    Part.changeVariables fn ps = ps.map (Part.changeVariable fn) := by
  induction ps <;> simp [Part.changeVariables, *]

@[simp] theorem Part.changeVariable_navigation (fn : String → String) (p : Part) :
    (Part.changeVariable fn p).navigation = p.navigation := by
  cases p; simp [Part.changeVariable]

@[simp] theorem Query.changeVariable_rest (fn : String → String) (q : Query) :
    (q.changeVariable fn).rest = q.rest.map (Part.changeVariable fn) := by
  cases q; simp [Query.changeVariable]

theorem Part.changeVariable_tag (fn : String → String) (p : Part) :
    (Part.changeVariable fn p).tag = p.tag := by
  cases p; rfl

theorem Part.changeVariable_withClause_isSome (fn : String → String) (p : Part) :
    (Part.changeVariable fn p).withClause.isSome = p.withClause.isSome := by
  obtain ⟨_, _, _ | _, _, _, _⟩ := p <;> rfl

theorem Query.changeVariable_current (fn : String → String) (q : Query) :
    (q.changeVariable fn).current = Part.changeVariable fn q.current := by
  cases q; rfl

theorem Query.changeVariable_preamble (fn : String → String) (q : Query) :
    (q.changeVariable fn).preamble = q.preamble := by
  cases q; rfl

theorem Query.changeVariable_aggregate (fn : String → String) (q : Query) :
    (q.changeVariable fn).aggregate = q.aggregate.map (Aggregate.changeVariable fn) := by
  cases q; rfl

theorem Query.changeVariable_parts (fn : String → String) (q : Query) :
    (q.changeVariable fn).parts = q.parts.map (Part.changeVariable fn) := by
  rw [QueryOf.parts_eq, QueryOf.parts_eq, Query.changeVariable_current, Query.changeVariable_rest,
    List.map_cons]

theorem Term.changeVariable_ne_allTerm (fn : String → String) {t : Term} (ht : t ≠ .allTerm) :
    t.changeVariable fn ≠ .allTerm := by
  cases t <;> first | exact absurd rfl ht | exact fun h => nomatch h

/-- Renaming the variables of `s & t` renames those of `s` and of `t`. -/
theorem Term.changeVariable_andTerm (fn : String → String) (s t : Term) :
    (s.andTerm t).changeVariable fn = (s.changeVariable fn).andTerm (t.changeVariable fn) := by
  by_cases hs : s = .allTerm
  · subst hs
    rw [Term.allTerm_andTerm]
    exact (Term.allTerm_andTerm _).symm
  by_cases ht : t = .allTerm
  · subst ht
    rw [Term.andTerm_allTerm]
    exact (Term.andTerm_allTerm _).symm
  rw [Term.andTerm_of_ne hs ht, Term.andTerm_of_ne (Term.changeVariable_ne_allTerm fn hs)
    (Term.changeVariable_ne_allTerm fn ht)]
  rfl

/-! ## §3  Sections -/

/-- `PathRoot`. -/
def PathRoot : String := "/"

/-- `variable_to_absolute(section, name)` (`section` is a keyword of Lean: `sect`). -/
def variableToAbsolute (sect : Option String) (name : String) : String :=
  if startswith name PathRoot then dropPrefix name 1
  else match sect with
    | some s => if s ≠ "" ∧ s ≠ PathRoot then s ++ "." ++ name else name
    | none => name

/-- `variable_to_relative(section, name)`. -/
def variableToRelative (sect name : String) : String :=
  if startswith name PathRoot then name
  else if startswith name (sect ++ ".") then dropPrefix name (sect.length + 1)
  else PathRoot ++ name

/-- `Query.on_section(section)`. -/
def Query.onSection (q : Query) (sect : Option String) : Query :=
  let rootOrSection := if sect = none ∨ sect = some PathRoot then none else sect
  q.changeVariable (variableToAbsolute rootOrSection)

/-- `Query.relative_to_section(section)`. -/
def Query.relativeToSection (q : Query) (sect : String) : Query :=
  if sect ≠ PathRoot then q.changeVariable (variableToRelative sect) else q

end Resoto
